/-
# Trimming

Trimming takes blanks away at both ends and nothing else. So a text is its trimmed self between
blanks, blanks added at an end do not change what trimming leaves, and trimming twice is trimming
once.
-/

import Mathlib.Data.List.TakeWhile
import HarnessSynthesis.Text.Basic

namespace HarnessSynthesis.Text

/-! ## Deciding over characters -/

namespace OfCharacters

/-- What holds of all characters of a text is decided on the text, not over all characters. -/
scoped instance (priority := high) forallMem {p : Char → Prop} [DecidablePred p] (t : Text) :
    Decidable (∀ c ∈ t, p c) :=
  List.decidableBAll p t

scoped instance (priority := high) forallMemOption {p : Char → Prop} [DecidablePred p]
    (o : Option Char) : Decidable (∀ c ∈ o, p c) :=
  decidable_of_iff (∀ c ∈ o.toList, p c) (by simp)

end OfCharacters

/-! ## Blanks -/

/-- A text of blanks only. -/
def Blank (t : Text) : Prop :=
  ∀ c ∈ t, isBlank c = true

theorem blank_nil : Blank [] := by
  intro c hc
  cases hc

theorem blank_cons {c : Char} {t : Text} : Blank (c :: t) ↔ isBlank c = true ∧ Blank t :=
  List.forall_mem_cons

theorem blank_space : Blank [' '] :=
  blank_cons.2 ⟨by decide, blank_nil⟩

theorem Blank.reverse {b : Text} (blank : Blank b) : Blank b.reverse := by
  intro c hc
  exact blank c (List.mem_reverse.1 hc)

theorem blank_takeWhile (t : Text) : Blank (t.takeWhile isBlank) := by
  intro c hc
  exact List.mem_takeWhile_imp hc

/-! ## Runs -/

/-- A run of characters of a class, and what stops it. -/
theorem takeWhile_dropWhile_append {p : Char → Bool} {run t : Text} (all : ∀ c ∈ run, p c = true)
    (stops : ∀ c ∈ t.head?, p c = false) :
    (run ++ t).takeWhile p = run ∧ (run ++ t).dropWhile p = t := by
  rw [List.takeWhile_append_of_pos all, List.dropWhile_append_of_pos all]
  cases t with
  | nil => exact ⟨List.append_nil run, rfl⟩
  | cons c t =>
    have other : ¬ p c = true := by
      rw [stops c rfl]
      exact Bool.false_ne_true
    rw [List.takeWhile_cons_of_neg other, List.dropWhile_cons_of_neg other, List.append_nil]
    exact ⟨rfl, rfl⟩

theorem dropWhile_eq_self {p : Char → Bool} {t : Text} (stops : ∀ c ∈ t.head?, p c = false) :
    t.dropWhile p = t := by
  cases t with
  | nil => rfl
  | cons c t => exact List.dropWhile_cons_of_neg (by simp [stops c rfl])

/-- A run of a class at the end is dropped, and nothing in front of it. -/
theorem dropEndWhile_append {p : Char → Bool} {t run : Text} (all : ∀ c ∈ run, p c = true)
    (stops : ∀ c ∈ t.getLast?, p c = false) : (t ++ run).dropEndWhile p = t := by
  have all' : ∀ c ∈ run.reverse, p c = true := fun c mem => all c (List.mem_reverse.1 mem)
  have stops' : ∀ c ∈ t.reverse.head?, p c = false := fun c found =>
    stops c (by rwa [List.head?_reverse] at found)
  have drop := (takeWhile_dropWhile_append all' stops').2
  rw [dropEndWhile, List.reverse_append, drop, List.reverse_reverse]

/-! ## What trimming takes away -/

theorem takeWhile_append_trimStart (t : Text) : t.takeWhile isBlank ++ trimStart t = t :=
  List.takeWhile_append_dropWhile

theorem trimEnd_append_takeEndWhile (t : Text) : trimEnd t ++ takeEndWhile isBlank t = t :=
  dropEndWhile_append_takeEndWhile isBlank t

/-- A text is its trimmed self between blanks. -/
theorem exists_eq_append_trim (t : Text) :
    ∃ b b', Blank b ∧ Blank b' ∧ t = b ++ (trim t ++ b') := by
  refine ⟨t.takeWhile isBlank, takeEndWhile isBlank (trimStart t), blank_takeWhile t,
    (blank_takeWhile _).reverse, ?_⟩
  rw [trim, trimEnd_append_takeEndWhile, takeWhile_append_trimStart]

theorem mem_of_mem_trim {c : Char} {t : Text} (h : c ∈ trim t) : c ∈ t :=
  (List.dropWhile_suffix isBlank).subset
    (List.mem_reverse.1 ((List.dropWhile_suffix isBlank).subset (List.mem_reverse.1 h)))

theorem Blank.eq_nil {b : Text} (blank : Blank b) (none : ∀ c ∈ b, isBlank c = false) : b = [] := by
  cases b with
  | nil => rfl
  | cons c b =>
    have first := none c List.mem_cons_self
    rw [blank c List.mem_cons_self] at first
    cases first

/-- Behind a character that is no blank there are no blanks at the end. -/
theorem Blank.eq_nil_of_getLast? {t b : Text} (blank : Blank b)
    (visible : ∀ c ∈ (t ++ b).getLast?, isBlank c = false) : b = [] := by
  rcases List.eq_nil_or_concat b with empty | ⟨front, c, rfl⟩
  · exact empty
  · rw [List.concat_eq_append] at blank visible
    have shown := visible c (by rw [← List.append_assoc, List.getLast?_concat]; rfl)
    rw [blank c (List.mem_append_right front (List.mem_singleton_self c))] at shown
    cases shown

/-- A text without blanks is trimmed. -/
theorem trim_eq_self {t : Text} (none : ∀ c ∈ t, isBlank c = false) : trim t = t := by
  obtain ⟨b, b', before, behind, whole⟩ := exists_eq_append_trim t
  rw [whole, List.forall_mem_append, List.forall_mem_append] at none
  rw [before.eq_nil none.1, behind.eq_nil none.2.2, List.nil_append, List.append_nil] at whole
  exact whole.symm

/-- Of blanks alone nothing is left, and of nothing else. -/
theorem blank_of_trim_eq_nil {t : Text} (empty : trim t = []) : Blank t := by
  obtain ⟨b, b', before, behind, whole⟩ := exists_eq_append_trim t
  rw [whole, empty, List.nil_append]
  exact List.forall_mem_append.2 ⟨before, behind⟩

/-- A trimmed text does not start with a blank. -/
theorem isBlank_head_of_trim_eq_self {c : Char} {t : Text} (trimmed : trim (c :: t) = c :: t) :
    isBlank c = false := by
  cases blank : isBlank c with
  | false => rfl
  | true =>
    rw [trim, trimStart, List.dropWhile_cons_of_pos blank, ← trimStart, ← trim] at trimmed
    have shorter := length_trim_le t
    rw [trimmed, List.length_cons] at shorter
    exact absurd shorter (Nat.not_succ_le_self _)

theorem trimEndMatches_append {ending t : Text} (nonempty : ending ≠ []) :
    trimEndMatches ending (t ++ ending) = trimEndMatches ending t := by
  have found : beforeSuffix? ending (t ++ ending) = some t :=
    beforeSuffix?_eq_some_iff.2 rfl
  rw [trimEndMatches, if_neg nonempty]
  split
  · rename_i rest found'
    rw [found] at found'
    rw [Option.some.inj found']
  · rename_i found'
    rw [found] at found'
    cases found'

theorem trimEndMatches_of_none {ending t : Text} (none : beforeSuffix? ending t = none) :
    trimEndMatches ending t = t := by
  rw [trimEndMatches]
  split
  · rfl
  · split
    · rename_i found
      rw [none] at found
      cases found
    · rfl

/-- Only copies of a text's ending are taken away. -/
theorem exists_eq_trimEndMatches_append (ending t : Text) :
    ∃ count, t = trimEndMatches ending t ++ repeated count ending := by
  fun_induction trimEndMatches ending t with
  | case1 t => exact ⟨0, (List.append_nil t).symm⟩
  | case2 t _ rest found ih =>
    obtain ⟨count, whole⟩ := ih
    refine ⟨count + 1, ?_⟩
    rw [repeated, List.replicate_succ', List.flatten_append, ← repeated, ← List.append_assoc,
      ← whole, beforeSuffix?_eq_some_iff.1 found, List.flatten_singleton]
  | case3 t => exact ⟨0, (List.append_nil t).symm⟩

/-! ## Blanks at an end -/

section Ends

variable {b : Text}

theorem trimStart_append_of_blank (blank : Blank b) (t : Text) :
    trimStart (b ++ t) = trimStart t := by
  induction b with
  | nil => rfl
  | cons c b ih =>
    rw [List.cons_append, trimStart, List.dropWhile_cons_of_pos (blank_cons.1 blank).1]
    exact ih (blank_cons.1 blank).2

theorem trimEnd_append_of_blank (blank : Blank b) (t : Text) : trimEnd (t ++ b) = trimEnd t := by
  rw [trimEnd, trimEnd, dropEndWhile, dropEndWhile, List.reverse_append]
  exact congrArg List.reverse (trimStart_append_of_blank blank.reverse t.reverse)

theorem trim_append_of_blank_left (blank : Blank b) (t : Text) : trim (b ++ t) = trim t := by
  rw [trim, trimStart_append_of_blank blank, trim]

theorem trim_append_of_blank_right (blank : Blank b) (t : Text) : trim (t ++ b) = trim t := by
  rw [trim, trim, trimStart, trimStart, List.dropWhile_append]
  split
  · rename_i onlyBlanks
    rw [List.isEmpty_iff.1 onlyBlanks, List.dropWhile_eq_nil_iff.2 blank]
  · exact trimEnd_append_of_blank blank _

theorem trim_trim (t : Text) : trim (trim t) = trim t := by
  obtain ⟨b, b', before, behind, whole⟩ := exists_eq_append_trim t
  have rewritten : trim t = trim (b ++ (trim t ++ b')) := congrArg trim whole
  rw [trim_append_of_blank_left before, trim_append_of_blank_right behind] at rewritten
  exact rewritten.symm

theorem trim_trimStart (t : Text) : trim (trimStart t) = trim t := by
  rw [← trim_append_of_blank_left (blank_takeWhile t), takeWhile_append_trimStart]

theorem trim_trimEnd (t : Text) : trim (trimEnd t) = trim t := by
  have blank : Blank (takeEndWhile isBlank t) := (blank_takeWhile t.reverse).reverse
  rw [← trim_append_of_blank_right blank, trimEnd_append_takeEndWhile]

end Ends

end HarnessSynthesis.Text
