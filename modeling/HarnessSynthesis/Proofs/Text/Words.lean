/-
# Words of a text

The words of a text are its pieces between the characters that belong to no name. Everything about
them follows from one equation: at such a character the words of a text are those in front of it and
those behind it. Blanks, brackets and asterisks are such characters, so a word of a part that they
set off is a word of the whole.
-/

import HarnessSynthesis.Proofs.Text.Trim
import HarnessSynthesis.Source.TypeDeclaration

namespace HarnessSynthesis

namespace Text

/-! ## Blanks belong to no name -/

/-- The code points of the blanks. -/
def blankCodes : List Nat :=
  Ranges.whiteSpace.flatMap fun (first, last) => List.range' first (last + 1 - first)

theorem mem_blankCodes {code : Nat} (h : inRanges Ranges.whiteSpace code = true) :
    code ∈ blankCodes := by
  obtain ⟨⟨first, last⟩, range, inside⟩ := List.any_eq_true.1 h
  rw [Bool.and_eq_true, decide_eq_true_eq, decide_eq_true_eq] at inside
  exact List.mem_flatMap.2 ⟨(first, last), range, List.mem_range'_1.2 (by omega)⟩

theorem toNat_mem_of_isBlank {c : Char} (blank : isBlank c = true) :
    c.toNat ∈ [32, 9, 10, 11, 12, 13] ++ blankCodes := by
  rw [List.mem_append]
  rw [isBlank] at blank
  split at blank
  · refine Or.inl ?_
    rw [Bool.or_eq_true, beq_iff_eq, Bool.and_eq_true, decide_eq_true_eq,
      decide_eq_true_eq] at blank
    rcases blank with rfl | range
    · decide
    · simp only [List.mem_cons]
      omega
  · exact Or.inr (mem_blankCodes blank)

theorem not_of_mem_blankCodes : ∀ code ∈ [32, 9, 10, 11, 12, 13] ++ blankCodes,
    isNameChar (Char.ofNat code) = false ∧ isWordChar (Char.ofNat code) = false := by
  decide +kernel

theorem isNameChar_of_isBlank {c : Char} (blank : isBlank c = true) : isNameChar c = false := by
  rw [← Char.ofNat_toNat c]
  exact (not_of_mem_blankCodes _ (toNat_mem_of_isBlank blank)).1

theorem isWordChar_of_isBlank {c : Char} (blank : isBlank c = true) : isWordChar c = false := by
  rw [← Char.ofNat_toNat c]
  exact (not_of_mem_blankCodes _ (toNat_mem_of_isBlank blank)).2

theorem isNameChar_of_ascii {c : Char} (ascii : isAsciiLetter c = true ∨ isAsciiDigit c = true) :
    isNameChar c = true := by
  have small : c.toNat < 0x80 := by
    simp only [isAsciiLetter, isAsciiDigit, Bool.or_eq_true, Bool.and_eq_true,
      decide_eq_true_eq] at ascii
    rcases ascii with (⟨-, last⟩ | ⟨-, last⟩) | ⟨-, last⟩
    · exact Nat.lt_of_le_of_lt (show c.toNat ≤ 'z'.toNat from last) (by decide)
    · exact Nat.lt_of_le_of_lt (show c.toNat ≤ 'Z'.toNat from last) (by decide)
    · exact Nat.lt_of_le_of_lt (show c.toNat ≤ '9'.toNat from last) (by decide)
  rw [isNameChar, isAlphanumeric, if_pos small, Bool.or_eq_true, Bool.or_eq_true]
  exact Or.inl ascii

theorem isNameChar_of_isNameStart {c : Char} (starts : isNameStart c = true) :
    isNameChar c = true := by
  rw [isNameStart, Bool.or_eq_true] at starts
  rcases starts with letter | line
  · exact isNameChar_of_ascii (Or.inl letter)
  · rw [isNameChar, line, Bool.or_true]

theorem isBlank_of_isNameStart {c : Char} (starts : isNameStart c = true) : isBlank c = false := by
  refine Bool.eq_false_iff.2 fun blank => ?_
  have name := isNameChar_of_isNameStart starts
  rw [isNameChar_of_isBlank blank] at name
  cases name

/-! ## Splitting -/

section Split

variable {p : Char → Bool}

theorem splitWhere_ne_nil (t : Text) : splitWhere p t ≠ [] := by
  cases t with
  | nil => exact nofun
  | cons c t =>
    rw [splitWhere]
    split
    · exact nofun
    · split <;> exact nofun

/-- The pieces of a text are those in front of a separator and those behind it. -/
theorem splitWhere_append_cons {c : Char} (separates : p c = true) (s t : Text) :
    splitWhere p (s ++ c :: t) = splitWhere p s ++ splitWhere p t := by
  induction s with
  | nil =>
    change splitWhere p (c :: t) = [] :: splitWhere p t
    rw [splitWhere, if_pos separates]
  | cons d s ih =>
    rw [List.cons_append, splitWhere, splitWhere, ih]
    split
    · rfl
    · obtain ⟨piece, pieces, cut⟩ := List.exists_cons_of_ne_nil (splitWhere_ne_nil (p := p) s)
      rw [cut]
      rfl

/-- No piece holds a separator. -/
theorem not_of_mem_splitWhere {t piece : Text} (h : piece ∈ splitWhere p t) :
    ∀ c ∈ piece, p c = false := by
  induction t generalizing piece with
  | nil =>
    rw [List.mem_singleton.1 h]
    exact nofun
  | cons d t ih =>
    rw [splitWhere] at h
    split at h
    · rcases List.mem_cons.1 h with rfl | later
      · exact nofun
      · exact ih later
    · rename_i passes
      obtain ⟨first, others, cut⟩ := List.exists_cons_of_ne_nil (splitWhere_ne_nil (p := p) t)
      rw [cut] at h ih
      rcases List.mem_cons.1 h with rfl | later
      · exact List.forall_mem_cons.2
          ⟨Bool.eq_false_iff.2 passes, ih List.mem_cons_self⟩
      · exact ih (List.mem_cons_of_mem first later)

end Split

end Text

namespace Source

open Text

/-! ## Words -/

/-- A text without any character of a name. -/
def Wordless (t : Text) : Prop :=
  ∀ c ∈ t, isNameChar c = false

instance (t : Text) : Decidable (Wordless t) :=
  List.decidableBAll (fun c => isNameChar c = false) t

theorem Wordless.repeated {t : Text} (wordless : Wordless t) (count : Nat) :
    Wordless (repeated count t) := by
  intro c hc
  obtain ⟨copy, place, hc⟩ := List.mem_flatten.1 hc
  rw [List.eq_of_mem_replicate place] at hc
  exact wordless c hc

theorem Wordless.of_blank {b : Text} (blank : Blank b) : Wordless b := by
  intro c hc
  exact isNameChar_of_isBlank (blank c hc)

section Words

variable {w : Text}

theorem hasWord_append_cons {c : Char} (separates : isNameChar c = false) (s t : Text) :
    hasWord w (s ++ c :: t) = (hasWord w s || hasWord w t) := by
  rw [hasWord, splitWhere_append_cons (by rw [separates]; rfl), Bool.eq_iff_iff, Bool.or_eq_true,
    hasWord, hasWord, List.contains_iff_mem, List.contains_iff_mem, List.contains_iff_mem,
    List.mem_append]

theorem hasWord_nil (nonempty : w ≠ []) : hasWord w [] = false := by
  rw [hasWord, Bool.eq_false_iff, Ne, List.contains_iff_mem]
  exact fun h => nonempty (List.mem_singleton.1 h)

theorem hasWord_wordless (nonempty : w ≠ []) {t : Text} (wordless : Wordless t) :
    hasWord w t = false := by
  induction t with
  | nil => exact hasWord_nil nonempty
  | cons c t ih =>
    obtain ⟨first, others⟩ := List.forall_mem_cons.1 wordless
    rw [← List.nil_append (c :: t), hasWord_append_cons first, hasWord_nil nonempty, ih others]
    rfl

theorem hasWord_append_wordless (nonempty : w ≠ []) (s : Text) {t : Text}
    (wordless : Wordless t) : hasWord w (s ++ t) = hasWord w s := by
  cases t with
  | nil => rw [List.append_nil]
  | cons c t =>
    obtain ⟨first, others⟩ := List.forall_mem_cons.1 wordless
    rw [hasWord_append_cons first, hasWord_wordless nonempty others, Bool.or_false]

theorem hasWord_wordless_append (nonempty : w ≠ []) {s : Text} (wordless : Wordless s)
    (t : Text) : hasWord w (s ++ t) = hasWord w t := by
  induction s with
  | nil => rfl
  | cons c s ih =>
    obtain ⟨first, others⟩ := List.forall_mem_cons.1 wordless
    rw [List.cons_append, ← List.nil_append (c :: (s ++ t)), hasWord_append_cons first,
      hasWord_nil nonempty, ih others, Bool.false_or]

/-- Trimming takes away no word. -/
theorem hasWord_trim (nonempty : w ≠ []) (t : Text) : hasWord w (trim t) = hasWord w t := by
  obtain ⟨b, b', before, behind, whole⟩ := exists_eq_append_trim t
  have same := congrArg (hasWord w) whole
  rw [hasWord_wordless_append nonempty (.of_blank before),
    hasWord_append_wordless nonempty _ (.of_blank behind)] at same
  exact same.symm

/-- A word has no blanks that trimming could take away. -/
theorem trim_of_mem_words {t : Text} (h : w ∈ splitWhere (fun c => !isNameChar c) t) :
    w.trim = w := by
  refine trim_eq_self fun c hc => ?_
  have named : isNameChar c = true := by simpa using not_of_mem_splitWhere h c hc
  rw [Bool.eq_false_iff]
  intro blank
  rw [isNameChar_of_isBlank blank] at named
  cases named

end Words

end Source

end HarnessSynthesis
