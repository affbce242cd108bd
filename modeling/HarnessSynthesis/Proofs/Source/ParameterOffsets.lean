/-
# Parameters by offsets

A parameter list is split at octets that are commas, and a parameter is cut at octets that are
equals signs or colons. Each of these octets is a character, so every slice begins and ends between
two characters: in front of a separator, behind one, or at an end of the text. The pieces are those
of the characters. An escape in a string passes only one octet, but what is left of a character then
is not ASCII, and is passed as well.
-/

import HarnessSynthesis.Proofs.Source.BracketOffsets
import HarnessSynthesis.Proofs.Source.Pieces

namespace HarnessSynthesis.Source

open Text (IsAscii octetChars)
open SplitState (start)

section Classes

variable {c : Char} (wide : ¬ IsAscii c)

include wide

theorem opensBracket_of_wide : opensBracket c = false := by
  have other (d : Char) (ascii : IsAscii d) : (c == d) = false :=
    beq_eq_false_iff_ne.2 (Text.ne_of_not_isAscii wide ascii)
  simp only [opensBracket, other '<' (by decide), other '(' (by decide), other '[' (by decide),
    other '\x7b' (by decide), Bool.or_false]

theorem closesBracket_of_wide : closesBracket c = false := by
  have other (d : Char) (ascii : IsAscii d) : (c == d) = false :=
    beq_eq_false_iff_ne.2 (Text.ne_of_not_isAscii wide ascii)
  simp only [closesBracket, other '>' (by decide), other ')' (by decide), other ']' (by decide),
    other '\x7d' (by decide), Bool.or_false]

theorem opensQuote_of_wide : opensQuote c = false := by
  have other (d : Char) (ascii : IsAscii d) : (c == d) = false :=
    beq_eq_false_iff_ne.2 (Text.ne_of_not_isAscii wide ascii)
  simp only [opensQuote, other '"' (by decide), other '\'' (by decide), other '`' (by decide),
    Bool.or_false]

end Classes

/-- Whether the same characters of ASCII stand at two places, if there are any. -/
def SameNarrow (a b : Option Char) : Prop :=
  ∀ d, IsAscii d → (a = some d ↔ b = some d)

theorem SameNarrow.refl (a : Option Char) : SameNarrow a a :=
  fun _ _ => Iff.rfl

theorem sameNarrow_of_wide {c d : Char} (hc : ¬ IsAscii c) (hd : ¬ IsAscii d) :
    SameNarrow (some c) (some d) := by
  intro e ascii
  rw [Option.some_inj, Option.some_inj]
  exact iff_of_false (Text.ne_of_not_isAscii hc ascii) (Text.ne_of_not_isAscii hd ascii)

/-! ## Splitting -/

/-- The pieces of a text from the octets behind an offset, the current piece having begun before. -/
def piecesAt (t : Text) (begin offset : Nat) (s : SplitState) : Text → Checked (List Text)
  | [] => do return [← t.sliceFrom begin]
  | c :: rest =>
    if s.separates c then do
      let piece ← t.slice begin offset
      return piece :: (← piecesAt t (offset + 1) (offset + 1) (s.next c) rest)
    else piecesAt t begin (offset + 1) (s.next c) rest

/-- The parameters of a parameter list, which is split at octets. -/
def splitParametersAt (list : Text) : Checked (List Text) := do
  let pieces ← piecesAt list 0 0 start (octetChars list)
  return (pieces.map Text.trim).filter (· ≠ [])

/-- Splitters that stand alike: the character just passed may differ if it is none of ASCII. -/
structure SplitState.Alike (s s' : SplitState) : Prop where
  depth : s.depth = s'.depth
  quoting : s.quoting = s'.quoting
  narrow : s.quoting.Narrow
  previous : SameNarrow s.previous s'.previous

namespace SplitState.Alike

variable {s s' : SplitState} {c d : Char}

theorem separates_eq (alike : s.Alike s') (c : Char) : s.separates c = s'.separates c := by
  rw [separates, separates, alike.depth, alike.quoting]

/-- Splitters that stand alike go on alike. -/
theorem next (alike : s.Alike s') (ascii : IsAscii c) : (s.next c).Alike (s'.next c) := by
  obtain ⟨depth, quoting, previous⟩ := s
  obtain ⟨depth', quoting', previous'⟩ := s'
  obtain ⟨rfl, rfl, narrow, same⟩ := alike
  have arrow : c = '>' ∧ (previous = some '=' ∨ previous = some '-') ↔
      c = '>' ∧ (previous' = some '=' ∨ previous' = some '-') := by
    rw [same '=' (by decide), same '-' (by decide)]
  cases quoting with
  | escaped q => exact ⟨rfl, rfl, narrow, .refl _⟩
  | inside q =>
    simp only [SplitState.next]
    split
    · exact ⟨rfl, rfl, narrow, .refl _⟩
    · split
      · exact ⟨rfl, rfl, trivial, .refl _⟩
      · exact ⟨rfl, rfl, narrow, .refl _⟩
  | outside =>
    simp only [SplitState.next, arrow]
    split
    · exact ⟨rfl, rfl, ascii, .refl _⟩
    · split
      · exact ⟨rfl, rfl, trivial, .refl _⟩
      · split
        · exact ⟨rfl, rfl, trivial, .refl _⟩
        · split <;> exact ⟨rfl, rfl, trivial, .refl _⟩

/-- A splitter behind a character beyond ASCII stands where it stood, but behind an escape. -/
theorem next_of_wide (narrow : s.quoting.Narrow) (wide : ¬ IsAscii c) :
    s.next c = ⟨s.depth, s.quoting.pass, some c⟩ := by
  obtain ⟨depth, quoting, previous⟩ := s
  cases quoting with
  | escaped q => rfl
  | inside q =>
    rw [SplitState.next]
    simp only [if_neg (Text.ne_of_not_isAscii wide (show IsAscii '\\' by decide)),
      if_neg (Text.ne_of_not_isAscii wide narrow)]
    rfl
  | outside =>
    have noArrow : ¬ (c = '>' ∧ (previous = some '=' ∨ previous = some '-')) :=
      fun found => Text.ne_of_not_isAscii wide (by decide) found.1
    rw [SplitState.next]
    simp only [opensQuote_of_wide wide, opensBracket_of_wide wide, closesBracket_of_wide wide,
      if_neg noArrow, Bool.false_eq_true, if_false]
    rfl

theorem separates_of_wide (wide : ¬ IsAscii c) : s.separates c = false := by
  have other : (c == ',') = false := beq_eq_false_iff_ne.2 (Text.ne_of_not_isAscii wide (by decide))
  rw [separates, other, Bool.false_and, Bool.false_and]

/-- A splitter behind several characters beyond ASCII stands as behind one. -/
theorem after_of_wide (narrow : s.quoting.Narrow) {ds : Text} (wide : ∀ e ∈ d :: ds, ¬ IsAscii e) :
    ∃ e, ¬ IsAscii e ∧ s.after (d :: ds) = ⟨s.depth, s.quoting.pass, some e⟩ := by
  induction ds generalizing s d with
  | nil =>
    have first := wide d List.mem_cons_self
    exact ⟨d, first, next_of_wide narrow first⟩
  | cons e ds ih =>
    obtain ⟨first, others⟩ := List.forall_mem_cons.1 wide
    rw [after_cons, next_of_wide narrow first]
    obtain ⟨last, beyond, stands⟩ :=
      ih (s := ⟨s.depth, s.quoting.pass, some d⟩) (narrow_pass narrow) others
    rw [pass_pass] at stands
    exact ⟨last, beyond, stands⟩

/-- The octets of a character beyond ASCII move a splitter as the character does. -/
theorem after (alike : s.Alike s') (wide : ¬ IsAscii c) {ds : Text}
    (octets : ∀ e ∈ d :: ds, ¬ IsAscii e) : (s.after (d :: ds)).Alike (s'.next c) := by
  obtain ⟨e, beyond, stands⟩ := after_of_wide alike.narrow octets
  rw [stands, next_of_wide (alike.quoting ▸ alike.narrow) wide]
  refine ⟨alike.depth, ?_, narrow_pass alike.narrow, sameNarrow_of_wide beyond wide⟩
  show s.quoting.pass = s'.quoting.pass
  rw [alike.quoting]

end SplitState.Alike

theorem unsplit_of_wide {s : SplitState} {p : Text} (wide : ∀ c ∈ p, ¬ IsAscii c) :
    Unsplit s p := by
  induction p generalizing s with
  | nil => exact unsplit_nil s
  | cons c p ih =>
    obtain ⟨first, others⟩ := List.forall_mem_cons.1 wide
    exact unsplit_cons.2 ⟨SplitState.Alike.separates_of_wide first, ih others⟩

/-- Octets among which none separates belong to the current piece. -/
theorem piecesAt_append {t : Text} {begin offset : Nat} {s : SplitState} {p : Text}
    (unsplit : Unsplit s p) (rest : Text) : piecesAt t begin offset s (p ++ rest) =
      piecesAt t begin (offset + p.length) (s.after p) rest := by
  induction p generalizing offset s with
  | nil => rfl
  | cons c p ih =>
    obtain ⟨passes, others⟩ := unsplit_cons.1 unsplit
    rw [List.cons_append, piecesAt, passes, ih others, SplitState.after_cons, List.length_cons]
    simp only [Bool.false_eq_true, if_false]
    congr 1
    omega

theorem prepend_concat (p : Text) (c : Char) (pieces : List Text) :
    prepend (p ++ [c]) pieces = prepend p (consPiece c pieces) :=
  List.foldr_append

/-- The pieces between the octets that separate are the ones between the characters that do. By
induction on the text that is still ahead, behind the current piece. -/
theorem piecesAt_octetChars {s s' : SplitState} (alike : s.Alike s') (front piece rest : Text) :
    piecesAt (front ++ piece ++ rest) front.octets (front ++ piece).octets s (octetChars rest) =
      .ok (prepend piece (piecesFrom s' rest)) := by
  induction rest generalizing front piece s s' with
  | nil =>
    show (do return [← (front ++ piece ++ []).sliceFrom front.octets]) = _
    rw [List.append_nil, Text.sliceFrom_append, piecesFrom, prepend_piece, List.append_nil]
    rfl
  | cons c rest ih =>
    have next : front ++ piece ++ c :: rest = front ++ (piece ++ [c]) ++ rest := by
      simp only [List.append_assoc, List.singleton_append]
    by_cases ascii : IsAscii c
    · have size : c.utf8Size = 1 := Text.utf8Size_of_isAscii ascii
      rw [Text.octetChars_cons_of_isAscii ascii, piecesAt, piecesFrom, alike.separates_eq]
      cases separates : s'.separates c with
      | true =>
        have further := ih (alike.next ascii) (front ++ piece ++ [c]) []
        simp only [List.append_nil, Text.octets_append, Text.octets_cons, Text.octets_nil, size,
          List.append_assoc, List.singleton_append, prepend_nil, ← Nat.add_assoc] at further
        rw [if_pos rfl, if_pos rfl, Text.slice_append, prepend_piece, List.append_nil]
        simp only [List.append_assoc, Text.octets_append, further, bind, Except.bind, pure,
          Except.pure]
      | false =>
        have further := ih (alike.next ascii) front (piece ++ [c])
        rw [prepend_concat, ← next] at further
        rw [if_neg Bool.false_ne_true, if_neg Bool.false_ne_true, ← further]
        simp only [Text.octets_append, Text.octets_cons, Text.octets_nil, size, Nat.add_assoc]
    · obtain ⟨d, ds, whole, size, wide⟩ := Text.exists_octetChars_of_wide ascii rest
      have further := ih (alike.after ascii wide) front (piece ++ [c])
      rw [prepend_concat, ← next] at further
      rw [whole, piecesAt_append (unsplit_of_wide wide), piecesFrom,
        SplitState.Alike.separates_of_wide ascii, if_neg Bool.false_ne_true, size, ← further]
      simp only [Text.octets_append, Text.octets_cons, Text.octets_nil, Nat.add_zero, Nat.add_assoc]

/-- Splitting a parameter list in octets is never stopped, and gives its parameters. -/
theorem splitParametersAt_eq (list : Text) :
    splitParametersAt list = .ok (splitParameters list) := by
  have alike : start.Alike start := ⟨rfl, rfl, trivial, .refl _⟩
  have pieces := piecesAt_octetChars alike [] [] list
  rw [splitParametersAt]
  simp only [List.nil_append, Text.octets_nil, prepend_nil] at pieces
  rw [pieces]
  rfl

/-! ## One parameter -/

/-- The offset of the equals sign in front of a default value, from the octets at an offset. -/
def defaultAt? (depth offset : Nat) (previous : Option Char) : Text → Option Nat
  | [] => none
  | c :: rest =>
    if opensBracket c then defaultAt? (depth + 1) (offset + 1) (some c) rest
    else if c = '>' ∧ previous = some '=' then defaultAt? depth (offset + 1) (some c) rest
    else if closesBracket c then defaultAt? (depth - 1) (offset + 1) (some c) rest
    else if c = '=' ∧ depth = 0 ∧ rest.head? ≠ some '>' ∧ rest.head? ≠ some '=' then some offset
    else defaultAt? depth (offset + 1) (some c) rest

/-- The offset of the first colon outside of brackets, from the octets at an offset. -/
def colonAt? (depth offset : Nat) : Text → Option Nat
  | [] => none
  | c :: rest =>
    if opensBracket c then colonAt? (depth + 1) (offset + 1) rest
    else if closesBracket c then colonAt? (depth - 1) (offset + 1) rest
    else if c = ':' ∧ depth = 0 then some offset
    else colonAt? depth (offset + 1) rest

/-- A parameter without its default value. -/
def withoutDefaultAt (t : Text) : Checked Text :=
  match defaultAt? 0 0 none (octetChars t) with
  | some i => t.sliceTo i
  | none => .ok t

/-- The texts around the first colon outside of brackets. -/
def cutAtColonAt (t : Text) : Checked (Option (Text × Text)) := do
  match colonAt? 0 0 (octetChars t) with
  | some i => return some (← t.sliceTo i, ← t.sliceFrom (i + 1))
  | none => return none

/-- A parameter that puts its type behind a colon. -/
def Parameter.parseAt (written : Text) : Checked Parameter := do
  let bare := (← withoutDefaultAt written).trim
  let (left, type) ← (do
    match ← cutAtColonAt bare with
    | some (left, right) => return (left, right.trim)
    | none => return (bare, []))
  let marked := Text.trimStartMatches "*" (Text.trimStartMatches "..." left.trim)
  let name := ((Text.trimEndMatches "?" marked).words.getLast?).getD []
  return ⟨name, if type = [] then none else some type⟩

section Parameters

variable {depth offset : Nat} {previous previous' : Option Char} {c : Char}

/-! ### Default values -/

theorem withoutDefault_cons_of_wide (wide : ¬ IsAscii c) (t : Text) :
    withoutDefault depth previous (c :: t) = c :: withoutDefault depth (some c) t := by
  rw [withoutDefault, opensBracket_of_wide wide, closesBracket_of_wide wide,
    if_neg Bool.false_ne_true, if_neg fun found => Text.ne_of_not_isAscii wide (by decide) found.1,
    if_neg Bool.false_ne_true, if_neg fun found => Text.ne_of_not_isAscii wide (by decide) found.1]

theorem defaultAt?_append_of_wide (depth offset : Nat) (previous : Option Char) {ds : Text}
    (wide : ∀ d ∈ c :: ds, ¬ IsAscii d) (rest : Text) :
    ∃ d, ¬ IsAscii d ∧ defaultAt? depth offset previous (c :: ds ++ rest) =
      defaultAt? depth (offset + (c :: ds).length) (some d) rest := by
  have pass (previous : Option Char) {offset : Nat} {c : Char} (wide : ¬ IsAscii c) (rest : Text) :
      defaultAt? depth offset previous (c :: rest) =
        defaultAt? depth (offset + 1) (some c) rest := by
    rw [defaultAt?, opensBracket_of_wide wide, closesBracket_of_wide wide,
      if_neg Bool.false_ne_true,
      if_neg fun found => Text.ne_of_not_isAscii wide (by decide) found.1,
      if_neg Bool.false_ne_true,
      if_neg fun found => Text.ne_of_not_isAscii wide (by decide) found.1]
  induction ds generalizing c offset previous with
  | nil =>
    have first := wide c List.mem_cons_self
    exact ⟨c, first, pass previous first rest⟩
  | cons d ds ih =>
    obtain ⟨first, others⟩ := List.forall_mem_cons.1 wide
    obtain ⟨last, beyond, further⟩ := ih (offset + 1) (some c) others
    refine ⟨last, beyond, ?_⟩
    rw [List.cons_append, pass previous first, further, List.length_cons (a := c)]
    congr 1
    omega

/-- A place at which a text is cut, and what is in front of it; or none, and all of the text. -/
inductive CutAt (offset : Nat) (t : Text) : Option Nat → Text → Prop
  | nowhere : CutAt offset t none t
  | behind (front rest : Text) (whole : t = front ++ rest) :
    CutAt offset t (some (offset + front.octets)) front

theorem CutAt.cons {t left : Text} {place : Option Nat}
    (cut : CutAt (offset + c.utf8Size) t place left) :
    CutAt offset (c :: t) place (c :: left) := by
  cases cut with
  | nowhere => exact .nowhere
  | behind front rest whole =>
    rw [Nat.add_assoc, ← Text.octets_cons]
    exact .behind (c :: left) rest (by rw [whole, List.cons_append])

theorem CutAt.sliceTo {t left : Text} {place : Option Nat} (cut : CutAt 0 t place left) :
    (match place with
      | some i => t.sliceTo i
      | none => .ok t) = .ok left := by
  cases cut with
  | nowhere => rfl
  | behind front rest whole =>
    rw [whole, Nat.zero_add]
    exact Text.sliceTo_append left rest

/-- The octets and the characters agree on where a default value begins. -/
theorem defaultAt?_octetChars (depth offset : Nat) (same : SameNarrow previous previous')
    (t : Text) :
    CutAt offset t (defaultAt? depth offset previous (octetChars t))
      (withoutDefault depth previous' t) := by
  induction t generalizing depth offset previous previous' with
  | nil => exact .nowhere
  | cons c t ih =>
    by_cases ascii : IsAscii c
    · have further (depth : Nat) : CutAt offset (c :: t)
          (defaultAt? depth (offset + 1) (some c) (octetChars t))
          (c :: withoutDefault depth (some c) t) := by
        have cut := ih depth (offset + 1) (.refl (some c))
        rw [← Text.utf8Size_of_isAscii ascii] at cut ⊢
        exact cut.cons
      rw [Text.octetChars_cons_of_isAscii ascii]
      simp only [defaultAt?, withoutDefault, same '=' (by decide), ne_eq,
        Text.head?_octetChars (show IsAscii '>' by decide),
        Text.head?_octetChars (show IsAscii '=' by decide)]
      split
      · exact further (depth + 1)
      · split
        · exact further depth
        · split
          · exact further (depth - 1)
          · split
            · exact .behind [] (c :: t) rfl
            · exact further depth
    · obtain ⟨d, ds, whole, size, wide⟩ := Text.exists_octetChars_of_wide ascii t
      obtain ⟨last, beyond, passed⟩ :=
        defaultAt?_append_of_wide depth offset previous wide (octetChars t)
      rw [whole, passed, size, withoutDefault_cons_of_wide ascii]
      exact (ih depth _ (sameNarrow_of_wide beyond ascii)).cons

theorem withoutDefaultAt_eq (t : Text) : withoutDefaultAt t = .ok (withoutDefault 0 none t) :=
  (defaultAt?_octetChars 0 0 (.refl none) t).sliceTo

/-! ### Colons -/

theorem eq_append_of_cutAtColon? {t left right : Text}
    (cut : cutAtColon? depth t = some (left, right)) : t = left ++ ':' :: right := by
  induction t generalizing depth left with
  | nil => cases cut
  | cons c t ih =>
    have further {depth : Nat} {extend : Text × Text → Text × Text}
        (grows : ∀ p, extend p = (c :: p.1, p.2))
        (later : (cutAtColon? depth t).map extend = some (left, right)) :
        c :: t = left ++ ':' :: right := by
      obtain ⟨p, inner, same⟩ := Option.map_eq_some_iff.1 later
      obtain ⟨rfl, rfl⟩ := Prod.mk.inj ((grows p).symm.trans same)
      rw [ih inner, List.cons_append]
    rw [cutAtColon?] at cut
    split at cut
    · exact further (fun _ => rfl) cut
    · split at cut
      · exact further (fun _ => rfl) cut
      · split at cut
        · rename_i colon
          obtain ⟨rfl, rfl⟩ := Prod.mk.inj (Option.some.inj cut)
          rw [colon.1]
          rfl
        · exact further (fun _ => rfl) cut

theorem colonAt?_append_of_wide {ds : Text} (wide : ∀ d ∈ ds, ¬ IsAscii d) (rest : Text) :
    colonAt? depth offset (ds ++ rest) = colonAt? depth (offset + ds.length) rest := by
  induction ds generalizing offset with
  | nil => rfl
  | cons d ds ih =>
    obtain ⟨first, others⟩ := List.forall_mem_cons.1 wide
    rw [List.cons_append, colonAt?, opensBracket_of_wide first, closesBracket_of_wide first,
      if_neg Bool.false_ne_true, if_neg Bool.false_ne_true,
      if_neg fun found => Text.ne_of_not_isAscii first (by decide) found.1, ih others,
      List.length_cons]
    congr 1
    omega

/-- The octets and the characters agree on the first colon outside of brackets. -/
theorem colonAt?_octetChars (t : Text) : colonAt? depth offset (octetChars t) =
    (cutAtColon? depth t).map fun p => offset + p.1.octets := by
  induction t generalizing depth offset with
  | nil => rfl
  | cons c t ih =>
    have further (depth : Nat) {extend : Text × Text → Text × Text}
        (grows : ∀ p, (extend p).1 = c :: p.1) :
        (cutAtColon? depth t).map (fun p => offset + c.utf8Size + p.1.octets) =
          ((cutAtColon? depth t).map extend).map fun p => offset + p.1.octets := by
      rw [Option.map_map]
      congr 1
      funext p
      show offset + c.utf8Size + p.1.octets = offset + (extend p).1.octets
      rw [grows, Text.octets_cons, Nat.add_assoc]
    by_cases ascii : IsAscii c
    · rw [Text.utf8Size_of_isAscii ascii] at further
      rw [Text.octetChars_cons_of_isAscii ascii, colonAt?, cutAtColon?]
      simp only [ih]
      split
      · exact further (depth + 1) fun _ => rfl
      · split
        · exact further (depth - 1) fun _ => rfl
        · split
          · rfl
          · exact further depth fun _ => rfl
    · obtain ⟨d, ds, whole, size, wide⟩ := Text.exists_octetChars_of_wide ascii t
      rw [whole, colonAt?_append_of_wide wide, size, ih, cutAtColon?,
        opensBracket_of_wide ascii, closesBracket_of_wide ascii, if_neg Bool.false_ne_true,
        if_neg Bool.false_ne_true,
        if_neg fun found => Text.ne_of_not_isAscii ascii (by decide) found.1]
      exact further depth fun _ => rfl

theorem cutAtColonAt_eq (t : Text) : cutAtColonAt t = .ok (cutAtColon? 0 t) := by
  rw [cutAtColonAt, colonAt?_octetChars]
  cases cut : cutAtColon? 0 t with
  | none => rfl
  | some p =>
    obtain ⟨left, right⟩ := p
    have behind := Text.sliceFrom_append (left ++ [':']) right
    rw [Text.octets_concat (by decide), List.append_assoc, List.singleton_append] at behind
    simp only [eq_append_of_cutAtColon? cut, Option.map_some, Nat.zero_add, Text.sliceTo_append,
      behind, bind, Except.bind]
    rfl

/-- Taking a parameter apart is never stopped. -/
theorem Parameter.parseAt_eq (written : Text) :
    Parameter.parseAt written = .ok (Parameter.parse .python written) := by
  rw [Parameter.parseAt, Parameter.parse, withoutDefaultAt_eq]
  simp only [cutAtColonAt_eq, bind, Except.bind, pure, Except.pure]
  cases cutAtColon? 0 (withoutDefault 0 none written).trim <;> rfl

end Parameters

end HarnessSynthesis.Source
