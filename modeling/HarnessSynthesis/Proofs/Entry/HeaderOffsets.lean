/-
# Headers by offsets

In front of a name in C or Java a cursor moves over annotations, template sections and modifiers,
with a mix of octets and characters, in a segment that can begin anywhere behind a statement or a
label. Here it is written down with everything that could stop it. It never is stopped: the cursor
lies between two characters whenever something is read there, since whatever it passes octet by
octet is ASCII, and each round takes an item off the head of the segment. Each qualifier that is
taken off the type leaves a shorter one. What comes out is the header of the characters.
-/

import HarnessSynthesis.Proofs.Entry.Headers
import HarnessSynthesis.Proofs.Source.BracketOffsets

namespace HarnessSynthesis.TypedSource

open Source
open Text (utf8 IsAscii)

/-! ## Segments -/

/-- The last character of a class, with its offset. -/
def lastOf? (p : Char → Bool) (t : Text) : Option (Nat × Char) :=
  match t.reverse.dropWhile fun c => !p c with
  | [] => none
  | c :: front => some (Text.octets front.reverse, c)

/-- Whether the octet at a place is a colon that touches no other one. -/
def isLoneColon (os : List UInt8) (i : Nat) : Bool :=
  os[i]? == some ':'.toUInt8 && !(decide (0 < i) && os[i - 1]? == some ':'.toUInt8) &&
    os[i + 1]? != some ':'.toUInt8

/-- The last such place below a bound. -/
def lastLoneColon? (os : List UInt8) : (bound : Nat) → Option Nat
  | 0 => none
  | i + 1 => if isLoneColon os i then some i else lastLoneColon? os i

/-- The offset at which the declaration of a name begins. -/
def segmentStart (t : Text) (nameStart : Nat) : Checked Nat := do
  let before ← t.sliceTo nameStart
  let start := match lastOf? endsStatement before with
    | some (i, _) => i + 1
    | none => 0
  let segment ← t.slice start nameStart
  return match lastLoneColon? (utf8 segment) (utf8 segment).length with
    | some i => start + (i + 1)
    | none => start

section Segments

/-- Behind the last character of a class begins the longest end without one. -/
theorem lastOf?_eq (p : Char → Bool) (t : Text) :
    (match lastOf? p t with
      | some (i, c) => i + c.utf8Size
      | none => 0) = (t.dropEndWhile fun c => !p c).octets := by
  rw [lastOf?, Text.dropEndWhile]
  cases t.reverse.dropWhile fun c => !p c with
  | nil => rfl
  | cons c front =>
    rw [List.reverse_cons, Text.octets_append, Text.octets_cons, Text.octets_nil, Nat.add_zero]

theorem holds_of_lastOf? {p : Char → Bool} {t : Text} {i : Nat} {c : Char}
    (found : lastOf? p t = some (i, c)) : p c = true := by
  have stops := List.head?_dropWhile_not (fun c => !p c) t.reverse
  rw [lastOf?] at found
  split at found
  · cases found
  · rename_i left
    cases found
    rw [left] at stops
    simpa using stops

theorem isAscii_of_endsStatement {c : Char} (ends : endsStatement c = true) : IsAscii c := by
  simp only [endsStatement, Bool.or_eq_true, beq_iff_eq] at ends
  rcases ends with (rfl | rfl) | rfl <;> decide

/-- In front of a boundary there is a colon exactly when the character there is one. -/
theorem colon_before_iff (front rest : Text) :
    (0 < front.octets ∧ (utf8 (front ++ rest))[front.octets - 1]? = some ':'.toUInt8) ↔
      front.getLast? = some ':' := by
  rcases List.eq_nil_or_concat front with rfl | ⟨front, c, rfl⟩
  · simp
  · have positive := Char.utf8Size_pos c
    rw [List.concat_eq_append, List.getLast?_concat, Text.octets_append, Text.octets_cons,
      Text.octets_nil, Nat.add_zero, Option.some_inj, List.append_assoc]
    by_cases ascii : IsAscii c
    · rw [Text.utf8Size_of_isAscii ascii, Nat.add_sub_cancel,
        Text.getElem?_utf8_append (by decide)]
      simp
    · refine iff_of_false ?_ ?_
      · rintro ⟨-, found⟩
        rw [Nat.add_sub_assoc positive] at found
        exact Text.getElem?_utf8_of_wide ascii (by decide) front rest (by omega) found
      · rintro rfl
        exact ascii (by decide)

/-- At a boundary the octets and the characters agree on whether a colon stands alone. -/
theorem isLoneColon_iff (front t : Text) :
    isLoneColon (utf8 (front ++ t)) front.octets = true ↔
      ∃ rest, t = ':' :: rest ∧ front.getLast? ≠ some ':' ∧ rest.head? ≠ some ':' := by
  have here := Text.getElem?_utf8_append (c := ':') (by decide) front t
  have before := not_congr (colon_before_iff front t)
  have behind (rest : Text) :=
    Text.getElem?_utf8_append (c := ':') (by decide) (front ++ [':']) rest
  simp only [List.append_assoc, List.singleton_append, Text.octets_append] at behind
  have lone : isLoneColon (utf8 (front ++ t)) front.octets = true ↔
      ((utf8 (front ++ t))[front.octets]? = some ':'.toUInt8 ∧
        ¬ (0 < front.octets ∧ (utf8 (front ++ t))[front.octets - 1]? = some ':'.toUInt8)) ∧
        (utf8 (front ++ t))[front.octets + 1]? ≠ some ':'.toUInt8 := by
    simp only [isLoneColon, Bool.and_eq_true, Bool.not_eq_true', ← Bool.not_eq_true,
      decide_eq_true_eq, beq_iff_eq, bne_iff_ne]
  rw [lone, here, before]
  constructor
  · rintro ⟨⟨head, last⟩, next⟩
    obtain ⟨rest, rfl⟩ := List.head?_eq_some_iff.1 head
    exact ⟨rest, rfl, last, fun same => next ((behind rest).2 same)⟩
  · rintro ⟨rest, rfl, last, next⟩
    exact ⟨⟨rfl, last⟩, fun same => next ((behind rest).1 same)⟩

/-- Inside of a character beyond ASCII no colon stands. -/
theorem lastLoneColon?_of_wide {c : Char} (wide : ¬ IsAscii c) (front rest : Text) {k : Nat}
    (within : k ≤ c.utf8Size) :
    lastLoneColon? (utf8 (front ++ c :: rest)) (front.octets + k) =
      lastLoneColon? (utf8 (front ++ c :: rest)) front.octets := by
  induction k with
  | zero => rfl
  | succ k ih =>
    have none : isLoneColon (utf8 (front ++ c :: rest)) (front.octets + k) = false := by
      have other := Text.getElem?_utf8_of_wide wide (d := ':') (by decide) front rest within
      rw [isLoneColon, beq_eq_false_iff_ne.2 other, Bool.false_and, Bool.false_and]
    rw [← Nat.add_assoc, lastLoneColon?, none, ih (Nat.le_of_succ_le within)]
    rfl

/-- The last lone colon of the octets is the last one of the characters. By induction on the text
that is still ahead. -/
theorem lastLoneColon?_append (front t : Text) :
    lastLoneColon? (utf8 (front ++ t)) (front ++ t).octets =
      match cutLastLabel? front.getLast? t with
      | some (label, _) => some ((front ++ label).octets - 1)
      | none => lastLoneColon? (utf8 (front ++ t)) front.octets := by
  induction t generalizing front with
  | nil => rw [List.append_nil]; rfl
  | cons c t ih =>
    have later := ih (front ++ [c])
    rw [List.getLast?_concat, List.append_assoc, List.singleton_append] at later
    rw [later, cutLastLabel?]
    cases cutLastLabel? (some c) t with
    | some p => simp only [List.append_assoc, List.singleton_append]
    | none =>
      dsimp only
      rw [Text.octets_append, Text.octets_cons, Text.octets_nil, Nat.add_zero]
      have lone := isLoneColon_iff front (c :: t)
      by_cases colon : c = ':' ∧ front.getLast? ≠ some ':' ∧ t.head? ≠ some ':'
      · rw [if_pos colon]
        obtain ⟨rfl, last, next⟩ := colon
        have size : (':' : Char).utf8Size = 1 := rfl
        rw [size, lastLoneColon?, if_pos (lone.2 ⟨t, rfl, last, next⟩)]
        dsimp only
        rw [Text.octets_append]
        rfl
      · rw [if_neg colon]
        by_cases ascii : IsAscii c
        · have noColon : ¬ isLoneColon (utf8 (front ++ c :: t)) front.octets = true := by
            intro found
            obtain ⟨rest, same, last, next⟩ := lone.1 found
            obtain ⟨rfl, rfl⟩ := List.cons.inj same
            exact colon ⟨rfl, last, next⟩
          rw [Text.utf8Size_of_isAscii ascii, lastLoneColon?, if_neg noColon]
        · exact lastLoneColon?_of_wide ascii front t (Nat.le_refl _)

theorem octets_pos_of_cutLastLabel? {previous : Option Char} {t label behind : Text}
    (h : cutLastLabel? previous t = some (label, behind)) : 0 < label.octets := by
  have positive (c : Char) (t : Text) : 0 < Text.octets (c :: t) :=
    Nat.lt_of_lt_of_le (Char.utf8Size_pos c) (Nat.le_add_right _ _)
  cases t with
  | nil => cases h
  | cons c t =>
    rw [cutLastLabel?] at h
    split at h
    · cases h
      exact positive _ _
    · split at h
      · cases h
        exact positive _ _
      · cases h

/-- The declaration of a name begins where the characters say, at a boundary. -/
theorem segmentStart_append (before rest : Text) :
    segmentStart (before ++ rest) before.octets = .ok (cutSegment before).1.octets := by
  have whole := Text.dropEndWhile_append_takeEndWhile (fun c => !endsStatement c) before
  have start : (match lastOf? endsStatement before with
      | some (i, _) => i + 1
      | none => 0) = (before.dropEndWhile fun c => !endsStatement c).octets := by
    rw [← lastOf?_eq]
    split
    · rename_i found
      rw [Text.utf8Size_of_isAscii (isAscii_of_endsStatement (holds_of_lastOf? found))]
    · rfl
  have segment : (before ++ rest).slice (before.dropEndWhile fun c => !endsStatement c).octets
      before.octets = .ok (before.takeEndWhile fun c => !endsStatement c) := by
    have slice := Text.slice_append (before.dropEndWhile fun c => !endsStatement c)
      (before.takeEndWhile fun c => !endsStatement c) rest
    rw [whole] at slice
    exact slice
  have colon := lastLoneColon?_append [] (before.takeEndWhile fun c => !endsStatement c)
  simp only [List.nil_append, List.getLast?_nil, ← Text.length_utf8] at colon
  simp only [segmentStart, Text.sliceTo_append, start, segment, colon, bind, Except.bind, pure,
    Except.pure, cutSegment]
  cases found : cutLastLabel? none (before.takeEndWhile fun c => !endsStatement c) with
  | none => rfl
  | some p =>
    obtain ⟨label, behind⟩ := p
    have positive := octets_pos_of_cutLastLabel? found
    dsimp only
    rw [Text.octets_append, Text.length_utf8, Nat.sub_add_cancel positive]

end Segments

/-! ## Items -/

/-- A cursor in a segment and the modifiers it has passed. -/
structure Cursor where
  place : Nat
  modifiers : List Text
  deriving Repr

/-- An annotation: its name, and its arguments if there are any. -/
def annotationAt (segment : Text) (s : Cursor) : Checked (Cursor ⊕ Option Cursor) := do
  let place := Text.skipOctets isAnnotationChar segment (s.place + 1)
  let behind ← segment.sliceFrom place
  if Text.startsWith ['('] behind.trimStart then
    let blanks ← Checked.minus behind.octets behind.trimStart.octets
    match ← matchingParenAt segment (place + blanks) with
    | some close => return .inl ⟨close + 1, s.modifiers⟩
    | none => return .inr none
  else
    return .inl ⟨place, s.modifiers⟩

/-- Whether a text begins with a template section. -/
def templateFollows (rest : Text) : Checked Bool := do
  if Text.startsWith "template" rest then
    let behind ← rest.sliceFrom (Text.octets "template")
    return Text.startsWith ['<'] behind.trimStart
  else
    return false

/-- A template section up to the bracket that closes its first one. -/
def templateAt (segment rest : Text) (s : Cursor) : Checked (Cursor ⊕ Option Cursor) := do
  match Text.cut? ['<'] rest with
  | none => return .inr none
  | some (before, _) =>
    match ← skipAngleAt segment (s.place + before.octets) with
    | some behind => return .inl ⟨behind, s.modifiers⟩
    | none => return .inr none

/-- A modifier, or the end of what stands in front of the type. -/
def wordAt (rest : Text) (s : Cursor) : Checked (Cursor ⊕ Option Cursor) := do
  let length := Text.octets (rest.takeWhile Text.isNameChar)
  let word ← rest.sliceTo length
  if 0 < length ∧ word ∈ modifierWords then
    return .inl ⟨s.place + length, s.modifiers ++ [word]⟩
  else
    return .inr (some s)

/-- What is found at a cursor with no blank of ASCII before it. -/
def itemAt (segment : Text) (s : Cursor) : Checked (Cursor ⊕ Option Cursor) := do
  if segment.octets ≤ s.place then
    return .inr (some s)
  else
    let rest ← segment.sliceFrom s.place
    if Text.startsWith ['@'] rest then
      annotationAt segment s
    else if ← templateFollows rest then
      templateAt segment rest s
    else
      wordAt rest s

/-- The cursor moves over blanks and one item in each round, up to the type, unless an item has no
end. -/
def itemsLoop (segment : Text) : Loop Cursor (Option Cursor) where
  size s := segment.octets - s.place
  round s := itemAt segment ⟨Text.skipOctets Text.isAsciiBlank segment s.place, s.modifiers⟩

section Items

/-- Where a cursor stands behind an item of the characters, in a segment of so many octets. -/
def HeaderItem.outcome (size : Nat) (s : Cursor) : HeaderItem → Cursor ⊕ Option Cursor
  | .type => .inr (some s)
  | .unclosed => .inr none
  | .aside rest => .inl ⟨size - rest.octets, s.modifiers⟩
  | .modifier word rest => .inl ⟨size - rest.octets, s.modifiers ++ [word]⟩

variable (front : Text) (modifiers : List Text)

theorem isAscii_of_isAnnotationChar {c : Char} (h : isAnnotationChar c = true) : IsAscii c := by
  have below {d : Char} (le : c ≤ d) (small : d.toNat < 0x80) : IsAscii c :=
    Nat.lt_of_le_of_lt (show c.toNat ≤ d.toNat from le) small
  simp only [isAnnotationChar, Text.isAsciiLetter, Text.isAsciiDigit, Bool.or_eq_true,
    Bool.and_eq_true, decide_eq_true_eq, beq_iff_eq] at h
  rcases h with (((⟨-, h⟩ | ⟨-, h⟩) | ⟨-, h⟩) | rfl) | rfl
  · exact below h (by decide)
  · exact below h (by decide)
  · exact below h (by decide)
  · decide
  · decide

theorem isAscii_of_isAsciiBlank {c : Char} (h : Text.isAsciiBlank c = true) : IsAscii c := by
  simp only [Text.isAsciiBlank, Bool.or_eq_true, beq_iff_eq] at h
  rcases h with (((rfl | rfl) | rfl) | rfl) | rfl <;> decide

/-- The blanks in front of a text take what their octets take. -/
theorem minus_trimStart (t : Text) : Checked.minus t.octets t.trimStart.octets =
    .ok (Text.octets (t.takeWhile Text.isBlank)) := by
  have whole := congrArg Text.octets (Text.takeWhile_append_trimStart t)
  rw [Text.octets_append] at whole
  rw [Checked.minus_of_le (by omega)]
  congr 1
  omega

/-- The place behind the bracket that closes an item is where the item's rest begins. -/
theorem octets_of_closeBracket? {opening closing : Char} (hopening : IsAscii opening)
    (hclosing : IsAscii closing) {inner inside after : Text}
    (closed : closeBracket? opening closing 0 inner = some (inside, after)) (front : Text) :
    front.octets + 1 + inside.octets + 1 =
      (front ++ opening :: inner).octets - after.octets := by
  have whole : front ++ opening :: inner = front ++ opening :: inside ++ [closing] ++ after := by
    rw [eq_append_of_closeBracket? closed]
    simp only [List.append_assoc, List.cons_append, List.nil_append]
  have one (c : Char) (ascii : IsAscii c) : c.utf8Size = 1 := Text.utf8Size_of_isAscii ascii
  rw [whole, Text.octets_append_sub]
  simp only [Text.octets_append, Text.octets_cons, Text.octets_nil, one opening hopening,
    one closing hclosing, Nat.add_assoc]

/-- The annotation of the octets is the annotation of the characters. -/
theorem annotationAt_append (rest : Text) :
    annotationAt (front ++ '@' :: rest) ⟨front.octets, modifiers⟩ =
      .ok ((HeaderItem.read ('@' :: rest)).outcome (front ++ '@' :: rest).octets
        ⟨front.octets, modifiers⟩) := by
  obtain ⟨lead, named⟩ : ∃ lead, lead = front ++ '@' :: rest.takeWhile isAnnotationChar := ⟨_, rfl⟩
  obtain ⟨behind, left⟩ : ∃ behind : Text, behind = rest.dropWhile isAnnotationChar := ⟨_, rfl⟩
  have whole : front ++ '@' :: rest = lead ++ behind := by
    rw [named, left, List.append_assoc, List.cons_append, List.takeWhile_append_dropWhile]
  have place : Text.skipOctets isAnnotationChar (front ++ '@' :: rest) (front.octets + 1) =
      lead.octets := by
    have run := Text.skipOctets_append (fun _ => isAscii_of_isAnnotationChar) (front ++ ['@']) rest
    simp only [List.append_assoc, List.singleton_append, Text.octets_append] at run
    rw [named, Text.octets_append]
    exact run
  have read : HeaderItem.read ('@' :: rest) =
      if Text.startsWith ['('] behind.trimStart then
        match parenthesized? behind.trimStart with
        | some (_, behind) => .aside behind
        | none => .unclosed
      else .aside behind := by
    rw [left]
    rfl
  rw [whole] at place ⊢
  rw [annotationAt, read]
  simp only [place, Text.sliceFrom_append, minus_trimStart, bind, Except.bind, pure, Except.pure]
  by_cases opens : Text.startsWith ['('] behind.trimStart = true
  · obtain ⟨inner, opened⟩ := Text.startsWith_singleton_iff.1 opens
    have spaced : lead ++ behind = lead ++ behind.takeWhile Text.isBlank ++ '(' :: inner := by
      rw [List.append_assoc, ← opened, Text.takeWhile_append_trimStart]
    have close : parenthesized? behind.trimStart = closeBracket? '(' ')' 0 inner := by
      rw [opened]
      rfl
    rw [if_pos opens, if_pos opens, close, spaced, ← Text.octets_append, matchingParenAt_append]
    cases closed : closeBracket? '(' ')' 0 inner with
    | none => rfl
    | some p =>
      obtain ⟨inside, after⟩ := p
      rw [HeaderItem.outcome,
        ← octets_of_closeBracket? (by decide) (by decide) closed (lead ++ behind.takeWhile _)]
      rfl
  · rw [if_neg opens, if_neg opens, HeaderItem.outcome, Text.octets_append_sub]

/-! ### Template sections -/

theorem templateFollows_eq (t : Text) : templateFollows t =
    .ok (((Text.afterPrefix? "template" t).map Text.trimStart).any (Text.startsWith ['<'])) := by
  rw [templateFollows, Text.startsWith]
  cases found : Text.afterPrefix? "template" t with
  | none => rfl
  | some behind =>
    obtain rfl := Text.afterPrefix?_eq_some_iff.1 found
    simp only [Option.isSome_some, if_true, Text.sliceFrom_append, bind, Except.bind, pure,
      Except.pure, Option.map_some, Option.any_some]

theorem read_of_template {t behind inner : Text}
    (keyword : Text.afterPrefix? "template" t = some behind)
    (opened : behind.trimStart = '<' :: inner) :
    HeaderItem.read t = (angled? ('<' :: inner)).elim .unclosed fun p => .aside p.2 := by
  unfold HeaderItem.read
  split
  · cases keyword
  · rw [keyword, Option.map_some, opened]
    split
    · rename_i same
      cases same
      cases angled? ('<' :: inner) <;> rfl
    · rename_i other
      exact absurd rfl (other inner)

/-- A template section opens with its keyword, blanks and an angle bracket, and it is looked for
from there on. -/
theorem templateAt_append {t behind inner : Text}
    (keyword : Text.afterPrefix? "template" t = some behind)
    (opened : behind.trimStart = '<' :: inner) :
    templateAt (front ++ t) t ⟨front.octets, modifiers⟩ =
      .ok ((HeaderItem.read t).outcome (front ++ t).octets ⟨front.octets, modifiers⟩) := by
  obtain ⟨lead, leads⟩ : ∃ lead : Text, lead = "template" ++ behind.takeWhile Text.isBlank :=
    ⟨_, rfl⟩
  have whole : t = lead ++ '<' :: inner := by
    rw [leads, List.append_assoc, ← opened, Text.takeWhile_append_trimStart]
    exact Text.afterPrefix?_eq_some_iff.1 keyword
  have absent : '<' ∉ lead := by
    rw [leads, List.mem_append]
    rintro (mem | mem)
    · exact absurd mem (by decide)
    · exact absurd (List.mem_takeWhile_imp mem) (by decide)
  have cut : Text.cut? ['<'] t = some (lead, inner) := by
    rw [whole]
    exact Text.cut?_singleton_of_not_mem absent
  have segment : front ++ t = front ++ lead ++ '<' :: inner := by
    rw [whole, List.append_assoc]
  rw [templateAt, cut, segment, read_of_template keyword opened, angled?]
  simp only [← Text.octets_append, skipAngleAt_append, bind, Except.bind, pure, Except.pure]
  cases closed : closeBracket? '<' '>' 0 inner with
  | none => rfl
  | some p =>
    obtain ⟨inside, after⟩ := p
    rw [Option.elim_some, HeaderItem.outcome,
      ← octets_of_closeBracket? (by decide) (by decide) closed (front ++ lead)]
    rfl

/-! ### Words -/

/-- Where neither an annotation nor a template section begins, a word is read. -/
theorem read_of_word {t : Text} (noMark : ∀ rest, t ≠ '@' :: rest)
    (noSection : ∀ behind inner, Text.afterPrefix? "template" t = some behind →
      behind.trimStart ≠ '<' :: inner) :
    HeaderItem.read t = if t.takeWhile Text.isNameChar ∈ modifierWords then
      .modifier (t.takeWhile Text.isNameChar) (t.dropWhile Text.isNameChar) else .type := by
  unfold HeaderItem.read
  split
  · exact absurd rfl (noMark _)
  · split
    · rename_i found
      obtain ⟨behind, keyword, opened⟩ := Option.map_eq_some_iff.1 found
      exact absurd opened (noSection behind _ keyword)
    · rfl

theorem wordAt_append (t : Text) : wordAt t ⟨front.octets, modifiers⟩ =
    .ok ((if t.takeWhile Text.isNameChar ∈ modifierWords then
      HeaderItem.modifier (t.takeWhile Text.isNameChar) (t.dropWhile Text.isNameChar)
      else .type).outcome (front ++ t).octets ⟨front.octets, modifiers⟩) := by
  obtain ⟨word, named⟩ : ∃ word : Text, word = t.takeWhile Text.isNameChar := ⟨_, rfl⟩
  obtain ⟨rest, left⟩ : ∃ rest : Text, rest = t.dropWhile Text.isNameChar := ⟨_, rfl⟩
  have whole : t = word ++ rest := by
    rw [named, left, List.takeWhile_append_dropWhile]
  have taken : t.sliceTo word.octets = .ok word := by
    rw [whole]
    exact Text.sliceTo_append word rest
  have place : front.octets + word.octets = (front ++ t).octets - rest.octets := by
    rw [whole, ← List.append_assoc, Text.octets_append_sub, Text.octets_append]
  rw [← named, ← left, wordAt, ← named, taken]
  simp only [bind, Except.bind, pure, Except.pure]
  by_cases modifier : word ∈ modifierWords
  · obtain ⟨c, more, spelled⟩ := List.exists_cons_of_ne_nil (ne_nil_of_mem_modifierWords modifier)
    have positive : 0 < word.octets := by
      rw [spelled]
      exact Nat.lt_of_lt_of_le (Char.utf8Size_pos c) (Nat.le_add_right _ _)
    rw [if_pos ⟨positive, modifier⟩, if_pos modifier, HeaderItem.outcome, place]
  · rw [if_neg fun found => modifier found.2, if_neg modifier, HeaderItem.outcome]

/-! ### Rounds -/

/-- What the cursor finds is the item at the head of the characters behind it. -/
theorem itemAt_append (t : Text) : itemAt (front ++ t) ⟨front.octets, modifiers⟩ =
    .ok ((HeaderItem.read t).outcome (front ++ t).octets ⟨front.octets, modifiers⟩) := by
  cases t with
  | nil =>
    rw [itemAt, List.append_nil, if_pos (Nat.le_refl _)]
    rfl
  | cons c rest =>
    have ahead : ¬ (front ++ c :: rest).octets ≤ front.octets := by
      have positive := Char.utf8Size_pos c
      rw [Text.octets_append, Text.octets_cons]
      omega
    rw [itemAt, if_neg ahead]
    simp only [Text.sliceFrom_append, templateFollows_eq, bind, Except.bind]
    by_cases annotated : c = '@'
    · rw [annotated]
      exact annotationAt_append front modifiers rest
    · have other (rest' : Text) : c :: rest ≠ '@' :: rest' := by
        intro same
        exact annotated (List.cons.inj same).1
      have noMark : ¬ Text.startsWith ['@'] (c :: rest) = true := by
        rw [Text.startsWith_singleton_iff]
        rintro ⟨rest', same⟩
        exact other rest' same
      rw [if_neg noMark]
      cases keyword : Text.afterPrefix? "template" (c :: rest) with
      | none =>
        rw [read_of_word other fun behind inner found => by rw [keyword] at found; cases found]
        exact wordAt_append front modifiers (c :: rest)
      | some behind =>
        rw [Option.map_some, Option.any_some]
        by_cases opens : Text.startsWith ['<'] behind.trimStart = true
        · obtain ⟨inner, opened⟩ := Text.startsWith_singleton_iff.1 opens
          rw [if_pos opens]
          exact templateAt_append front modifiers keyword opened
        · rw [if_neg opens, wordAt_append, read_of_word other]
          intro behind' inner found opened
          obtain rfl := Option.some.inj (keyword.symm.trans found)
          exact opens (Text.startsWith_singleton_iff.2 ⟨inner, opened⟩)

/-- Where a cursor stands in a segment: the items of the whole segment are the ones it has passed
and the ones of the characters behind it. -/
def Passed (segment : Text) (s : Cursor) : Prop :=
  ∃ front rest fuel, segment = front ++ rest ∧ front.octets = s.place ∧ rest.length ≤ fuel ∧
    readItems? segment.length segment =
      (readItems? fuel rest).map fun (words, t) => (s.modifiers ++ words, t)

theorem passed_start (segment : Text) : Passed segment ⟨0, []⟩ := by
  refine ⟨[], segment, segment.length, rfl, rfl, Nat.le_refl _, ?_⟩
  cases readItems? segment.length segment <;> rfl

theorem octets_lt_of_behind {rest t : Text} (behind : Behind rest t) : rest.octets < t.octets := by
  obtain ⟨⟨taken, rfl⟩, shorter⟩ := behind
  cases taken with
  | nil => exact absurd shorter (Nat.lt_irrefl _)
  | cons c taken =>
    have positive := Char.utf8Size_pos c
    rw [Text.octets_append, Text.octets_cons]
    omega

/-- A round passes the blanks and the item behind them. -/
theorem round_itemsLoop (front rest : Text) (modifiers : List Text) :
    (itemsLoop (front ++ rest)).round ⟨front.octets, modifiers⟩ =
      .ok ((HeaderItem.read (rest.dropWhile Text.isAsciiBlank)).outcome (front ++ rest).octets
        ⟨(front ++ rest.takeWhile Text.isAsciiBlank).octets, modifiers⟩) := by
  have item := itemAt_append (front ++ rest.takeWhile Text.isAsciiBlank) modifiers
    (rest.dropWhile Text.isAsciiBlank)
  rw [List.append_assoc, List.takeWhile_append_dropWhile] at item
  show itemAt (front ++ rest) ⟨Text.skipOctets _ (front ++ rest) front.octets, modifiers⟩ = _
  rw [Text.skipOctets_append fun _ => isAscii_of_isAsciiBlank]
  exact item

/-- The items from one on, if there is fuel for the rest. -/
def HeaderItem.follow (fuel : Nat) (t : Text) : HeaderItem → Option (List Text × Text)
  | .type => some ([], t)
  | .unclosed => none
  | .aside rest => readItems? fuel rest
  | .modifier word rest => (readItems? fuel rest).map fun (words, t) => (word :: words, t)

theorem readItems?_eq_follow {fuel : Nat} {t : Text} (enough : t.length ≤ fuel) :
    readItems? fuel t = (HeaderItem.read (t.dropWhile Text.isAsciiBlank)).follow (fuel - 1)
      (t.dropWhile Text.isAsciiBlank) := by
  cases fuel with
  | zero =>
    rw [List.eq_nil_of_length_eq_zero (Nat.le_zero.1 enough)]
    rfl
  | succ fuel =>
    rw [readItems?, Nat.add_sub_cancel]
    cases HeaderItem.read (t.dropWhile Text.isAsciiBlank) <;> rfl

/-- Behind an item the cursor lies between two characters again, and less is left than before. -/
theorem exists_front_of_behind {front rest behind : Text} {fuel : Nat}
    (shorter : Behind behind (rest.dropWhile Text.isAsciiBlank)) (enough : rest.length ≤ fuel) :
    ∃ front', front ++ rest = front' ++ behind ∧
      Text.octets front' = (front ++ rest).octets - behind.octets ∧ behind.length ≤ fuel - 1 ∧
        (front ++ rest).octets - ((front ++ rest).octets - behind.octets) <
          (front ++ rest).octets - front.octets := by
  have inside : Behind behind rest := shorter.of_suffix (List.dropWhile_suffix _)
  obtain ⟨⟨taken, rfl⟩, fewer⟩ := id inside
  have less := octets_lt_of_behind inside
  refine ⟨front ++ taken, (List.append_assoc _ _ _).symm, ?_, by omega, ?_⟩
  · rw [← List.append_assoc, Text.octets_append_sub]
  · simp only [Text.octets_append] at less ⊢
    omega

/-- Each round takes an item off what is ahead, and the last one finds the type or an item without
an end. -/
theorem advances_itemsLoop (segment : Text) (s : Cursor) (passed : Passed segment s) :
    (itemsLoop segment).Advances (Passed segment)
      (· = (readItems? segment.length segment).map fun (words, t) =>
        ⟨segment.octets - t.octets, words⟩) s := by
  obtain ⟨front, rest, fuel, rfl, place, enough, items⟩ := passed
  obtain ⟨place', modifiers⟩ := s
  obtain rfl : front.octets = place' := place
  have round := round_itemsLoop front rest modifiers
  have takes := HeaderItem.takes_read (rest.dropWhile Text.isAsciiBlank)
  rw [readItems?_eq_follow enough] at items
  cases item : HeaderItem.read (rest.dropWhile Text.isAsciiBlank) with
  | type =>
    rw [item] at items round
    refine .out _ round ?_
    have place := Text.octets_append_sub (front ++ rest.takeWhile Text.isAsciiBlank)
      (rest.dropWhile Text.isAsciiBlank)
    rw [List.append_assoc, List.takeWhile_append_dropWhile] at place
    rw [items]
    show _ = some (Cursor.mk _ (modifiers ++ []))
    rw [place, List.append_nil]
  | unclosed =>
    rw [item] at items round
    refine .out _ round ?_
    rw [items]
    rfl
  | aside behind =>
    rw [item] at items round takes
    obtain ⟨front', split, size, short, smaller⟩ := exists_front_of_behind takes enough
    exact .on _ round smaller ⟨front', behind, fuel - 1, split, size, short, items⟩
  | modifier word behind =>
    rw [item] at items round takes
    obtain ⟨front', split, size, short, smaller⟩ := exists_front_of_behind takes.2.2 enough
    refine .on _ round smaller ⟨front', behind, fuel - 1, split, size, short, ?_⟩
    rw [items, HeaderItem.follow, Option.map_map]
    congr 1
    funext p
    obtain ⟨words, t⟩ := p
    show (modifiers ++ word :: words, t) = (modifiers ++ [word] ++ words, t)
    rw [List.append_assoc, List.singleton_append]

/-- Whenever the cursor begins a round it lies between two characters, further on than before. -/
theorem exists_run_itemsLoop (segment : Text) : ∃ states result,
    (itemsLoop segment).run ⟨0, []⟩ = .ok (states, result) ∧
      (∀ s ∈ states, segment.IsBoundary s.place) ∧
      states.Pairwise fun a b => a.place < b.place := by
  obtain ⟨states, result, run, -, all, falling⟩ :=
    Loop.exists_run (advances_itemsLoop segment) (passed_start segment)
  refine ⟨states, result, run, fun s mem => ?_, falling.imp fun {a b} smaller => ?_⟩
  · obtain ⟨front, rest, fuel, whole, place, -⟩ := (all s mem).1
    exact ⟨front, rest, whole, place⟩
  · have sizes : segment.octets - b.place < segment.octets - a.place := smaller
    omega

/-- The cursor reaches the type of the segment with the modifiers in front of it. -/
theorem run_itemsLoop (segment : Text) :
    ((itemsLoop segment).run ⟨0, []⟩).map (·.2) =
      .ok ((readItems? segment.length segment).map fun (words, t) =>
        ⟨segment.octets - t.octets, words⟩) :=
  Loop.run_of_advances (advances_itemsLoop segment) (passed_start segment)

end Items

/-! ## Qualifiers -/

/-- The offset behind the last character that is in no name. -/
def trailingNameStart (t : Text) : Nat :=
  match lastOf? (fun c => !Text.isNameChar c) t with
  | some (i, c) => i + c.utf8Size
  | none => 0

/-- One qualifier is taken off the end of a type in each round, with the name in front of it. -/
def qualifierLoop : Loop Text Text where
  size type := type.octets
  round type := do
    if Text.endsWith "::" type then
      let trimmed := Text.trimEndMatches "::" type
      let front ← trimmed.sliceTo (trailingNameStart trimmed)
      return .inl front.trimEnd
    else
      return .inr type

section Qualifiers

theorem sliceTo_trailingNameStart (t : Text) :
    t.sliceTo (trailingNameStart t) = .ok (t.dropEndWhile Text.isNameChar) := by
  have start := lastOf?_eq (fun c => !Text.isNameChar c) t
  simp only [Bool.not_not] at start
  rw [trailingNameStart, start]
  have slice := Text.sliceTo_append (t.dropEndWhile Text.isNameChar)
    (t.takeEndWhile Text.isNameChar)
  rwa [Text.dropEndWhile_append_takeEndWhile] at slice

/-- A round leaves what is to be left, and a shorter type. -/
theorem advances_qualifierLoop (left type : Text) (leaves : dropQualifiers type = left) :
    qualifierLoop.Advances (dropQualifiers · = left) (· = left) type := by
  cases found : Text.beforeSuffix? "::" type with
  | none =>
    refine .out type ?_ ((dropQualifiers_of_none found).symm.trans leaves)
    have noEnd : ¬ Text.endsWith "::" type = true := by
      rw [Text.endsWith, found]
      exact Bool.false_ne_true
    simp only [qualifierLoop, if_neg noEnd]
    rfl
  | some rest =>
    obtain rfl := Text.beforeSuffix?_eq_some_iff.1 found
    have ends : Text.endsWith "::" (rest ++ "::") = true := by
      rw [Text.endsWith, found]
      rfl
    rw [dropQualifiers_append] at leaves
    refine .on ((Text.trimEndMatches "::" rest).dropEndWhile Text.isNameChar).trimEnd ?_ ?_ leaves
    · simp only [qualifierLoop, if_pos ends, sliceTo_trailingNameStart,
        Text.trimEndMatches_append (show ("::" : Text) ≠ [] by decide), bind, Except.bind, pure,
        Except.pure]
    · have front : ((Text.trimEndMatches "::" rest).dropEndWhile Text.isNameChar).trimEnd <+:
          rest :=
        ((dropEndWhile_isPrefix _ _).trans (dropEndWhile_isPrefix _ _)).trans
          (trimEndMatches_isPrefix _ _)
      have shorter : rest.octets < (rest ++ ("::" : Text)).octets := by
        rw [Text.octets_append]
        exact Nat.lt_add_of_pos_right (by decide)
      exact Nat.lt_of_le_of_lt (Text.octets_le_of_isPrefix front) shorter

/-- Whenever a qualifier is looked for, the type is shorter than before. -/
theorem exists_run_qualifierLoop (type : Text) : ∃ states left,
    qualifierLoop.run type = .ok (states, left) ∧
      states.Pairwise fun a b => b.octets < a.octets := by
  obtain ⟨states, left, run, -, -, falling⟩ :=
    Loop.exists_run (advances_qualifierLoop (dropQualifiers type)) rfl
  exact ⟨states, left, run, falling⟩

theorem run_qualifierLoop (type : Text) :
    (qualifierLoop.run type).map (·.2) = .ok (dropQualifiers type) :=
  Loop.run_of_advances (advances_qualifierLoop _) rfl

end Qualifiers

/-! ## Headers -/

/-- A header by the offset of its type. -/
structure HeaderPlace where
  typeOffset : Nat
  modifiers : List Text
  returnType : Text
  deriving DecidableEq, Repr

/-- The header in front of a name that begins at an offset. -/
def headerAt (t : Text) (nameStart : Nat) : Checked (Option HeaderPlace) := do
  let start ← segmentStart t nameStart
  let segment ← t.slice start nameStart
  match ← ((itemsLoop segment).run ⟨0, []⟩).map (·.2) with
  | none => return none
  | some s =>
    let type ← segment.sliceFrom s.place
    let returnType ← (qualifierLoop.run type.trim).map (·.2)
    if isReturnType returnType then
      return some ⟨start + s.place, s.modifiers, returnType⟩
    else
      return none

/-- A header by the place of its type. -/
def Header.place (h : Header) : HeaderPlace :=
  ⟨h.before.octets, h.modifiers, h.returnType⟩

/-- In front of any place between two characters the header is read without a stop, and it is the
header of the characters. -/
theorem headerAt_append (before rest : Text) :
    headerAt (before ++ rest) before.octets = .ok ((header? before).map Header.place) := by
  obtain ⟨done, segment, cut⟩ : ∃ done segment, cutSegment before = (done, segment) := ⟨_, _, rfl⟩
  have start := segmentStart_append before rest
  have whole := cutSegment_append before
  rw [cut] at start whole
  have slice : (before ++ rest).slice done.octets before.octets = .ok segment := by
    rw [← whole]
    exact Text.slice_append done segment rest
  simp only [headerAt, header?, start, slice, cut, run_itemsLoop, bind, Except.bind, pure,
    Except.pure]
  cases items : readItems? segment.length segment with
  | none => rfl
  | some p =>
    obtain ⟨modifiers, behind⟩ := p
    obtain ⟨front, ending⟩ := (suffix_of_readItems? (Nat.le_refl _) items).1
    have place : segment.octets - behind.octets = Text.octets front := by
      rw [← ending, Text.octets_append_sub]
    have type : Text.sliceFrom segment (Text.octets front) = .ok behind := by
      rw [← ending]
      exact Text.sliceFrom_append front behind
    have taken : segment.take (segment.length - behind.length) = front := by
      rw [← ending, List.length_append, Nat.add_sub_cancel, List.take_left]
    simp only [Option.map_some, place, type, run_qualifierLoop, taken, Option.bind_some]
    by_cases isType : isReturnType (dropQualifiers behind.trim) = true
    · simp only [if_pos isType, guard, Option.bind_some, Option.map_some, Header.place,
        Text.octets_append, Option.pure_def]
    · simp only [if_neg isType, guard, Option.failure_eq_none, Option.bind_none, Option.map_none]

end HarnessSynthesis.TypedSource
