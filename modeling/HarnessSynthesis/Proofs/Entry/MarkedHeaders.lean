/-
# Headers of marked texts

In front of a name both texts of a marked one are read alike. A declaration begins at one place, and
the lead of the one is the lead of the other, as long as all marks in it are at keywords of classes:
such a keyword is no item of a lead, so it can only stand inside of brackets. A mark at the type
itself adds one modifier to the lead. In a type the word is one more name among others.
-/

import HarnessSynthesis.Proofs.Entry.Marks
import HarnessSynthesis.Proofs.Entry.TypePlaces

namespace HarnessSynthesis.TypedSource

open Source
open scoped Text.OfCharacters
open Text (isBlank isAsciiBlank isNameChar isNameStart isWordChar)

namespace Marked

/-! ## Where a declaration begins -/

section Segments

variable {previous : Option Char} {m : Marked}

theorem cutLastLabel?_cons_of_ne {c : Char} (other : c ≠ ':') (t : Text) :
    cutLastLabel? previous (c :: t) =
      (cutLastLabel? (some c) t).map fun p => (c :: p.1, p.2) := by
  rw [cutLastLabel?]
  cases cutLastLabel? (some c) t with
  | none => exact if_neg fun label => other label.1
  | some p => rfl

theorem cutLastLabel?_append_cons {w : Text} {c : Char} (noColon : ∀ d ∈ w, d ≠ ':')
    (other : c ≠ ':') (t : Text) :
    cutLastLabel? previous (w ++ c :: t) =
      (cutLastLabel? (some c) t).map fun p => (w ++ c :: p.1, p.2) := by
  induction w generalizing previous with
  | nil => exact cutLastLabel?_cons_of_ne other t
  | cons d w ih =>
    rw [List.forall_mem_cons] at noColon
    rw [List.cons_append, cutLastLabel?_cons_of_ne noColon.1, ih noColon.2, Option.map_map]
    rfl

/-- What is cut off the two texts of a marked one. -/
def CutAt (m : Marked) (p p' : Text × Text) : Prop :=
  ∃ a b, m = a ++ b ∧ p = (bare a, bare b) ∧ p' = (written a, written b)

theorem rel_cutLastLabel? (previous : Option Char) (spaced : Spaced m) :
    Option.Rel (CutAt m) (cutLastLabel? previous (bare m))
      (cutLastLabel? previous (written m)) := by
  induction m generalizing previous with
  | nil => exact .none
  | cons x m ih =>
    obtain ⟨k, c⟩ := x
    have related := ih (some c) spaced.tail
    by_cases colon : c = ':'
    · obtain rfl : k = false := spaced.eq_false (by rw [colon]; decide)
      have ahead : (written m).head? = some ':' ↔ (bare m).head? = some ':' := by
        cases m with
        | nil => exact Iff.rfl
        | cons y m =>
          obtain ⟨k', d⟩ := y
          cases k' with
          | false => exact Iff.rfl
          | true =>
            have starts := spaced.tail.startsType List.mem_cons_self
            refine iff_of_false (fun same => absurd (Option.some.inj same) (by decide)) ?_
            intro same
            have colon : d = ':' := Option.some.inj same
            rw [colon] at starts
            exact absurd starts (by decide)
      rw [bare_cons, written_cons_false, cutLastLabel?, cutLastLabel?]
      generalize cutLastLabel? (some c) (bare m) = o at related ⊢
      generalize cutLastLabel? (some c) (written m) = o' at related ⊢
      cases related with
      | none =>
        simp only [ne_eq, ahead]
        split
        · exact .some ⟨[(false, c)], m, rfl, rfl, rfl⟩
        · exact .none
      | some cut =>
        obtain ⟨a, b, rfl, rfl, rfl⟩ := cut
        exact .some ⟨(false, c) :: a, b, rfl, rfl, rfl⟩
    · have noColon : ∀ d ∈ word k, d ≠ ':' := by
        cases k with
        | true => exact (by decide : ∀ d ∈ "static ".toList, d ≠ ':')
        | false => exact List.forall_mem_nil _
      rw [bare_cons, cutLastLabel?_cons_of_ne colon, written_cons,
        cutLastLabel?_append_cons noColon colon]
      generalize cutLastLabel? (some c) (bare m) = o at related ⊢
      generalize cutLastLabel? (some c) (written m) = o' at related ⊢
      cases related with
      | none => exact .none
      | some cut =>
        obtain ⟨a, b, rfl, rfl, rfl⟩ := cut
        exact .some ⟨(k, c) :: a, b, rfl, rfl, by rw [written_cons]⟩

theorem Done.written {done segment : Marked} (cut : Done (bare done) (bare segment)) :
    Done (Marked.written done) (Marked.written segment) where
  last := by
    rw [getLast?_written]
    exact cut.last
  within c mem := by
    rcases mem_written mem with inside | static
    · exact cut.within c inside
    · exact (by decide : ∀ c ∈ "static ".toList, endsStatement c = false) c static

/-- A declaration begins at one place of both texts. -/
theorem exists_cutSegment (spaced : Spaced m) : ∃ start segment, m = start ++ segment ∧
    cutSegment (bare m) = (bare start, bare segment) ∧
      cutSegment (written m) = (written start, written segment) := by
  obtain ⟨done, segment, whole, cut⟩ := exists_done (bare m)
  obtain ⟨done, segment, rfl, rfl, rfl⟩ := exists_of_bare_eq_append whole
  have related := rel_cutLastLabel? none spaced.right
  rw [bare_append, cut.cutSegment, written_append, (Done.written cut).cutSegment]
  generalize cutLastLabel? none (bare segment) = o at related ⊢
  generalize cutLastLabel? none (Marked.written segment) = o' at related ⊢
  cases related with
  | none => exact ⟨done, segment, rfl, rfl, rfl⟩
  | some cut =>
    obtain ⟨label, segment, rfl, rfl, rfl⟩ := cut
    exact ⟨done ++ label, segment, by rw [List.append_assoc], by simp, by simp⟩

end Segments

/-! ## Leads -/

/-- Whether a text starts with the keyword of a class, as a word. -/
def AtKeyword (t : Text) : Prop :=
  ∃ rest, t = "class".toList ++ rest ∧ ∀ c ∈ rest.head?, isBlank c = true

/-- Whether all marks in front of the last characters are at keywords of classes. -/
def OnKeywords (m : Marked) (last : Nat) : Prop :=
  ∀ a c b, m = a ++ (true, c) :: b → last ≤ b.length → AtKeyword (c :: bare b)

theorem OnKeywords.right {a b : Marked} {last : Nat} (keywords : OnKeywords (a ++ b) last) :
    OnKeywords b last :=
  fun a' c b' whole => keywords (a ++ a') c b' (by rw [whole, List.append_assoc])

theorem OnKeywords.eq_c {c : Char} {m : Marked} {last : Nat}
    (keywords : OnKeywords ((true, c) :: m) last) (le : last ≤ m.length) : c = 'c' := by
  obtain ⟨rest, whole, -⟩ := keywords [] c m rfl le
  exact (List.cons.inj whole).1

theorem OnKeywords.eq_false {k : Bool} {c : Char} {m : Marked} {last : Nat}
    (keywords : OnKeywords ((k, c) :: m) last) (le : last ≤ m.length) (other : c ≠ 'c') :
    k = false := by
  cases k with
  | false => rfl
  | true => exact absurd (keywords.eq_c le) other

section Leads

variable {m : Marked}

/-- In front of the last characters no blank is marked. -/
theorem OnKeywords.exists_of_blank {gap t : Text} {last : Nat} (blank : Text.Blank gap)
    (keywords : OnKeywords m last) (le : last ≤ t.length) (whole : bare m = gap ++ t) :
    ∃ b, m = unmarked gap ++ b ∧ bare b = t := by
  induction gap generalizing m with
  | nil => exact ⟨m, rfl, whole⟩
  | cons c gap ih =>
    obtain ⟨k, m, rfl, rest⟩ := exists_of_bare_eq_cons whole
    have short : last ≤ m.length := by
      have size := congrArg List.length rest
      rw [length_bare] at size
      rw [size]
      exact Nat.le_trans le (List.suffix_append gap t).length_le
    obtain rfl : k = false := keywords.eq_false short (by
      rintro rfl
      exact absurd (blank _ List.mem_cons_self) (by decide))
    obtain ⟨b, rfl, same⟩ := ih (Text.blank_cons.1 blank).2 (keywords.right (a := [_])) rest
    exact ⟨b, rfl, same⟩

/-- The word does not start the arguments of an annotation. -/
theorem startsArguments_written (spaced : Spaced m) (h : StartsArguments (written m)) :
    StartsArguments (bare m) := by
  obtain ⟨gap, b, rfl, blank, stops⟩ := exists_gap m
  rw [StartsArguments, written_append, written_unmarked, Text.trimStart_append_of_blank blank] at h
  rw [StartsArguments, bare_append, bare_unmarked, Text.trimStart_append_of_blank blank]
  cases b with
  | nil => exact h
  | cons x b =>
    obtain ⟨k, c⟩ := x
    cases k with
    | true => exact absurd (Option.some.inj h) (by decide)
    | false =>
      have visible : isBlank c = false := (stops _ rfl).resolve_left Bool.false_ne_true
      rw [written_cons_false, Text.trimStart_cons_of_not_isBlank visible] at h
      rw [bare_cons, Text.trimStart_cons_of_not_isBlank visible]
      exact h

/-- Brackets in pairs stay so. -/
theorem closed_written {opening closing : Char}
    (neutral : ∀ c ∈ "static ".toList, c ≠ opening ∧ c ≠ closing)
    (inside : ∀ c, (true, c) ∈ m → c ≠ closing) (closed : Closed opening closing (bare m)) :
    Closed opening closing (written m) := by
  have inside' : ∀ c, (true, c) ∈ m ++ [(false, closing)] → c ≠ closing := fun c mem =>
    inside c ((List.mem_append.1 mem).resolve_right (by simp))
  have related := rel_closeBracket? opening closing 0 neutral inside'
  rw [bare_append, bare_cons, bare_nil, closed, written_append, written_cons_false,
    written_nil] at related
  rw [Closed]
  generalize closeBracket? opening closing 0 (written m ++ [closing]) = o at related ⊢
  cases related with
  | some at' =>
    obtain ⟨a, b, whole, same, rfl⟩ := at'
    obtain ⟨inner, outer⟩ := Prod.mk.inj same
    obtain rfl : b = [] := List.map_eq_nil_iff.1 outer.symm
    obtain rfl : m = a := List.append_cancel_right whole
    rfl

/-- What brackets hold may be marked, but not the brackets. -/
theorem exists_of_closed {opening closing : Char} {inside t : Text}
    (neutral : ∀ c ∈ "static ".toList, c ≠ opening ∧ c ≠ closing) (other : ¬ StartsType closing)
    (spaced : Spaced m) (closed : Closed opening closing inside)
    (whole : bare m = inside ++ closing :: t) :
    ∃ a b, m = a ++ (false, closing) :: b ∧ bare b = t ∧ Closed opening closing (written a) := by
  obtain ⟨a, b, rfl, rfl, rest⟩ := exists_of_bare_eq_append whole
  obtain ⟨k, b, rfl, behind⟩ := exists_of_bare_eq_cons rest
  obtain rfl := spaced.right.eq_false other
  refine ⟨a, b, rfl, behind, closed_written neutral (fun c mem => ?_) closed⟩
  rintro rfl
  exact other (spaced.left.startsType mem)

/-- What is no keyword of a class is not marked in front of the last characters. -/
theorem OnKeywords.plain_of_head {c : Char} {t : Text} {last : Nat} (keywords : OnKeywords m last)
    (le : last ≤ t.length) (other : c ≠ 'c') (whole : bare m = c :: t) : Plain m := by
  obtain ⟨k, m, rfl, rfl⟩ := exists_of_bare_eq_cons whole
  rw [length_bare] at le
  exact plain_cons.2 (keywords.eq_false le other)

/-- The arguments of an annotation open at one place of both texts. -/
theorem OnKeywords.exists_of_annotation {name gap t : Text} {last : Nat}
    (keywords : OnKeywords m last) (spaced : Spaced m) (le : last ≤ t.length)
    (named : ∀ c ∈ name, isAnnotationChar c = true) (blank : Text.Blank gap)
    (whole : bare m = '@' :: (name ++ (gap ++ '(' :: t))) :
    ∃ b, m = (false, '@') :: (unmarked name ++ (unmarked gap ++ (false, '(') :: b)) ∧
      bare b = t := by
  obtain ⟨k, m, rfl, atName⟩ := exists_of_bare_eq_cons whole
  obtain rfl := spaced.eq_false (by decide)
  obtain ⟨m, rfl, -, atGap⟩ := exists_of_run (fun _ => not_breaks_of_isAnnotationChar)
    spaced.tail (spaced.plain (by decide)) named (not_isAnnotationChar_gap blank) atName
  have within : last ≤ ('(' :: t).length := Nat.le_succ_of_le le
  obtain ⟨m, rfl, atOpening⟩ := (keywords.right (a := _ :: _)).exists_of_blank blank within atGap
  obtain ⟨k, m, rfl, behind⟩ := exists_of_bare_eq_cons atOpening
  obtain rfl := spaced.tail.right.right.eq_false (by decide)
  exact ⟨m, rfl, behind⟩

/-- The parameters of a template open at one place of both texts. -/
theorem OnKeywords.exists_of_template {gap t : Text} {last : Nat} (keywords : OnKeywords m last)
    (spaced : Spaced m) (le : last ≤ t.length) (blank : Text.Blank gap)
    (whole : bare m = "template".toList ++ (gap ++ '<' :: t)) :
    ∃ b, m = unmarked "template".toList ++ (unmarked gap ++ (false, '<') :: b) ∧
      bare b = t := by
  have within : last ≤ ('<' :: t).length := Nat.le_succ_of_le le
  have head : bare m = 't' :: ("emplate".toList ++ gap ++ '<' :: t) := by
    rw [whole, List.append_assoc]
    rfl
  have plain : Plain m := keywords.plain_of_head
    (within.trans (List.suffix_append ("emplate".toList ++ gap) _).length_le) (by decide) head
  obtain ⟨m, rfl, -⟩ := exists_of_isPrefix (by decide) (by decide) spaced plain
    (Or.inl (whole ▸ List.prefix_append _ _))
  rw [bare_append, bare_unmarked] at whole
  obtain ⟨m, rfl, atOpening⟩ := keywords.right.exists_of_blank blank within
    (List.append_cancel_left whole)
  obtain ⟨k, m, rfl, behind⟩ := exists_of_bare_eq_cons atOpening
  rw [← behind, length_bare] at le
  obtain rfl : k = false := keywords.right.right.eq_false le (by decide)
  exact ⟨m, rfl, behind⟩

/-- A modifier is no keyword of a class, so it is not marked. -/
theorem OnKeywords.plain_of_modifier {word t : Text} {last : Nat} (keywords : OnKeywords m last)
    (le : last ≤ t.length) (known : word ∈ modifierWords)
    (stops : ∀ c ∈ t.head?, isNameChar c = false) (whole : bare m = word ++ t) : Plain m := by
  have name : ∀ word ∈ modifierWords, ∀ c ∈ word, isNameChar c = true := by decide +kernel
  by_contra marked
  obtain ⟨c, m, rfl⟩ := exists_of_not_plain marked
  have long := congrArg List.length whole
  have nonempty := List.length_pos_iff.2 (ne_nil_of_mem_modifierWords known)
  simp only [length_bare, List.length_cons, List.length_append] at long
  obtain ⟨behind, keyword, ends⟩ := keywords [] c m rfl (by omega)
  -- the keyword itself would be the modifier
  rw [bare_cons, keyword] at whole
  have run := (Text.takeWhile_dropWhile_append (name word known) stops).1
  rw [← whole, (Text.takeWhile_dropWhile_append (by decide)
    fun d head => Text.isNameChar_of_isBlank (ends d head)).1] at run
  rw [← run] at known
  exact absurd known (by decide)

/-- Keywords of classes are marked in a lead inside of brackets only. -/
theorem lead_written {words : List Text} {t rest : Text} (spaced : Spaced m)
    (keywords : OnKeywords m rest.length) (lead : Lead modifierWords t words rest)
    (whole : bare m = t) :
    ∃ a b, m = a ++ b ∧ bare b = rest ∧ Lead modifierWords (written m) words (written b) := by
  induction lead generalizing m with
  | done => exact ⟨[], m, rfl, whole, .done⟩
  | @blank c t rest words space lead ih =>
    obtain ⟨k, m, rfl, behind⟩ := exists_of_bare_eq_cons whole
    obtain rfl : k = false := keywords.eq_false (by
      rw [← length_bare, behind]
      exact lead.suffix.length_le) (by rintro rfl; exact absurd space (by decide))
    obtain ⟨a, b, rfl, same, lead'⟩ := ih spaced.tail (keywords.right (a := [_])) behind
    exact ⟨(false, c) :: a, b, rfl, same, .blank space lead'⟩
  | @noted name t rest words named stops plain lead ih =>
    obtain ⟨k, m, rfl, behind⟩ := exists_of_bare_eq_cons whole
    obtain rfl := spaced.eq_false (by decide)
    obtain ⟨m, rfl, plain', rfl⟩ := exists_of_run (fun _ => not_breaks_of_isAnnotationChar)
      spaced.tail (spaced.plain (by decide)) named stops behind
    obtain ⟨a, b, rfl, same, lead'⟩ := ih spaced.tail.right (keywords.right (a := _ :: _)) rfl
    refine ⟨(false, '@') :: (unmarked name ++ a), b, by simp, same, ?_⟩
    rw [written_cons_false, written_append, written_unmarked]
    refine .noted named ?_ (fun opens => plain (startsArguments_written spaced.tail.right opens))
      lead'
    rw [head?_written plain', ← head?_bare]
    exact stops
  | @applied name gap arguments t rest words named blank closed lead ih =>
    have within : rest.length ≤ (arguments ++ ')' :: t).length :=
      (lead.suffix.trans ⟨arguments ++ [')'], by simp⟩).length_le
    obtain ⟨m, rfl, atArguments⟩ :=
      keywords.exists_of_annotation spaced within named blank whole
    have spaced' := spaced.tail.right.right.tail
    obtain ⟨inside, m, rfl, rfl, closed'⟩ :=
      exists_of_closed (by decide) (by decide) spaced' closed atArguments
    have keywords' : OnKeywords m rest.length := by
      refine OnKeywords.right
        (a := (false, '@') :: (unmarked name ++ (unmarked gap ++ (false, '(') ::
          (inside ++ [(false, ')')])))) ?_
      simpa using keywords
    obtain ⟨a, b, rfl, same, lead'⟩ := ih spaced'.right.tail keywords' rfl
    refine ⟨(false, '@') :: (unmarked name ++ (unmarked gap ++ (false, '(') ::
      (inside ++ (false, ')') :: a))), b, by simp, same, ?_⟩
    simpa using Lead.applied named blank closed' lead'
  | @template gap parameters t rest words blank closed lead ih =>
    have within : rest.length ≤ (parameters ++ '>' :: t).length :=
      (lead.suffix.trans ⟨parameters ++ ['>'], by simp⟩).length_le
    obtain ⟨m, rfl, atParameters⟩ := keywords.exists_of_template spaced within blank whole
    have spaced' := spaced.right.right.tail
    obtain ⟨inside, m, rfl, rfl, closed'⟩ :=
      exists_of_closed (by decide) (by decide) spaced' closed atParameters
    have keywords' : OnKeywords m rest.length := by
      refine OnKeywords.right (a := unmarked "template" ++ (unmarked gap ++ (false, '<') ::
        (inside ++ [(false, '>')]))) ?_
      simpa using keywords
    obtain ⟨a, b, rfl, same, lead'⟩ := ih spaced'.right.tail keywords' rfl
    refine ⟨unmarked "template" ++ (unmarked gap ++ (false, '<') ::
      (inside ++ (false, '>') :: a)), b, by simp, same, ?_⟩
    have lead'' := Lead.template blank closed' lead'
    simpa using lead''
  | @modifier word t rest words known stops lead ih =>
    have name : ∀ word ∈ modifierWords, ∀ c ∈ word, isNameChar c = true := by decide +kernel
    have plain := keywords.plain_of_modifier lead.suffix.length_le known stops whole
    obtain ⟨m, rfl, plain', rfl⟩ := exists_of_run (fun _ => not_breaks_of_isNameChar) spaced plain
      (name word known) stops whole
    obtain ⟨a, b, rfl, same, lead'⟩ := ih spaced.right keywords.right rfl
    refine ⟨unmarked word ++ a, b, by simp, same, ?_⟩
    rw [written_append, written_unmarked]
    refine .modifier known ?_ lead'
    rw [head?_written plain', ← head?_bare]
    exact stops

/-- Where a type begins in the one text, it begins in the other. -/
theorem read_written_type (spaced : Spaced m) (plain : Plain m)
    (type : HeaderItem.read (bare m) = .type) : HeaderItem.read (written m) = .type := by
  obtain ⟨noAt, noTemplate, noWord⟩ := read_eq_type_iff.1 type
  refine read_eq_type_iff.2 ⟨?_, ?_, ?_⟩
  · rwa [head?_written plain, ← head?_bare]
  · rintro ⟨gap, rest, blank, whole⟩
    obtain ⟨m, rfl, -⟩ := exists_of_isPrefix (by decide) (by decide) spaced plain
      (Or.inr (whole ▸ List.prefix_append _ _))
    rw [written_append, written_unmarked] at whole
    have start := congrArg Text.trimStart (List.append_cancel_left whole)
    obtain ⟨gap', b, rfl, blank', stops⟩ := exists_gap m
    rw [written_append, written_unmarked, Text.trimStart_append_of_blank blank',
      Text.trimStart_append_of_blank blank, Text.trimStart_cons_of_not_isBlank (by decide)] at start
    cases b with
    | nil => cases start
    | cons x b =>
      obtain ⟨k, c⟩ := x
      cases k with
      | true =>
        have head := congrArg List.head? start
        exact absurd (Option.some.inj head) (by decide)
      | false =>
        have visible : isBlank c = false := (stops _ rfl).resolve_left Bool.false_ne_true
        rw [written_cons_false, Text.trimStart_cons_of_not_isBlank visible] at start
        obtain ⟨rfl, -⟩ := List.cons.inj start
        exact noTemplate ⟨gap', bare b, blank', by simp⟩
  · rwa [takeWhile_written (fun _ => not_breaks_of_isNameChar) spaced plain]

/-- Brackets that do not close stay so. -/
theorem closeBracket?_written_eq_none {opening closing : Char}
    (neutral : ∀ c ∈ "static ".toList, c ≠ opening ∧ c ≠ closing) (other : ¬ StartsType closing)
    (spaced : Spaced m) (open' : closeBracket? opening closing 0 (bare m) = none) :
    closeBracket? opening closing 0 (written m) = none := by
  have related := rel_closeBracket? opening closing 0 neutral
    (fun c mem => by rintro rfl; exact other (spaced.startsType mem))
  rw [open'] at related
  generalize closeBracket? opening closing 0 (written m) = o at related ⊢
  cases related
  rfl

/-- Where an item does not end in the one text, it does not in the other. -/
theorem read_written_unclosed (spaced : Spaced m) (keywords : OnKeywords m 0)
    (unclosed : HeaderItem.read (bare m) = .unclosed) :
    HeaderItem.read (written m) = .unclosed := by
  rcases read_eq_unclosed_iff.1 unclosed with
    ⟨name, gap, rest, whole, named, blank, open'⟩ | ⟨gap, rest, whole, blank, open'⟩
  · obtain ⟨m, rfl, rfl⟩ :=
      keywords.exists_of_annotation spaced (Nat.zero_le _) named blank whole
    refine read_eq_unclosed_iff.2 (Or.inl ⟨name, gap, written m, by simp, named, blank, ?_⟩)
    exact closeBracket?_written_eq_none (by decide) (by decide) spaced.tail.right.right.tail open'
  · obtain ⟨m, rfl, rfl⟩ := keywords.exists_of_template spaced (Nat.zero_le _) blank whole
    refine read_eq_unclosed_iff.2 (Or.inr ⟨gap, written m, by simp, blank, ?_⟩)
    exact closeBracket?_written_eq_none (by decide) (by decide) spaced.right.right.tail open'

end Leads

end Marked

end HarnessSynthesis.TypedSource
