/-
# Integers in JSON texts

An integer is written by its digits and read back from them, provided that it fits a word of 64
bits, signed or unsigned, and that what stands behind it does not go on the number. Reading gathers
digits in a word, so the proof follows the digits as they are written: the last one apart from those
before it.
-/

import HarnessSynthesis.Json.Reader

namespace HarnessSynthesis

/-! ## Decimal digits -/

namespace Text

theorem isAsciiDigit_digit {d : Nat} (h : d < 10) : isAsciiDigit (Char.ofNat (48 + d)) = true := by
  have all : ∀ d < 10, isAsciiDigit (Char.ofNat (48 + d)) = true := by decide
  exact all d h

theorem isAsciiDigit_of_mem_ofNat (n : Nat) {c : Char} (h : c ∈ ofNat n) :
    isAsciiDigit c = true := by
  induction n using Nat.strongRecOn with
  | ind n ih =>
    rw [ofNat] at h
    split at h
    · rw [List.mem_singleton.1 h]
      exact isAsciiDigit_digit ‹_›
    · rcases List.mem_append.1 h with front | last
      · exact ih (n / 10) (by omega) front
      · rw [List.mem_singleton.1 last]
        exact isAsciiDigit_digit (Nat.mod_lt n (by decide))

/-- Digits start with a zero only when they are a zero. -/
theorem ofNat_eq_cons (n : Nat) :
    ∃ c t, ofNat n = c :: t ∧ (c = '0' → t = []) := by
  induction n using Nat.strongRecOn with
  | ind n ih =>
    rw [ofNat]
    split
    · exact ⟨_, [], rfl, fun _ => rfl⟩
    · rename_i large
      obtain ⟨c, t, digits, alone⟩ := ih (n / 10) (by omega)
      refine ⟨c, t ++ [Char.ofNat (48 + n % 10)], by rw [digits, List.cons_append], fun zero => ?_⟩
      -- A lone zero in front would be the number zero, and a tenth of `n` is not.
      obtain rfl := alone zero
      rw [zero] at digits
      rw [ofNat] at digits
      split at digits
      · have small : n / 10 < 10 := ‹_›
        have nonzero : ∀ d < 10, d ≠ 0 → [Char.ofNat (48 + d)] ≠ ['0'] := by decide
        exact absurd digits (nonzero _ small (by omega))
      · have lengths := congrArg List.length digits
        rw [List.length_append, List.length_singleton, List.length_singleton] at lengths
        obtain ⟨c', t', front, -⟩ := ih (n / 10 / 10) (by omega)
        rw [front, List.length_cons] at lengths
        omega

end Text

namespace Json

namespace Number

/-- Whether a number is an integer that fits a word of 64 bits, signed or unsigned. -/
def isWord : Number → Bool
  | .integer i => Word.leastSigned 64 ≤ i && i ≤ Word.greatest 64
  | .binary _ => false

theorem exists_of_isWord {n : Number} (h : n.isWord = true) :
    ∃ i : Int, n = .integer i ∧ Word.leastSigned 64 ≤ i ∧ i ≤ Word.greatest 64 := by
  cases n with
  | binary b => exact absurd h Bool.false_ne_true
  | integer i =>
    rw [isWord, Bool.and_eq_true, decide_eq_true_eq, decide_eq_true_eq] at h
    exact ⟨i, rfl, h⟩

end Number

namespace Spelling

/-- A text that does not go on a number written in front of it. -/
def Ends (rest : Text) : Prop :=
  ∀ c ∈ rest.head?, Text.isAsciiDigit c = false ∧ c ≠ '.' ∧ c ≠ 'e' ∧ c ≠ 'E'

theorem ends_nil : Ends [] := by
  intro c h
  cases h

theorem ends_cons {c : Char} {rest : Text}
    (h : Text.isAsciiDigit c = false ∧ c ≠ '.' ∧ c ≠ 'e' ∧ c ≠ 'E') : Ends (c :: rest) := by
  intro d found
  cases found
  exact h

/-- A text that does not go on digits written in front of it. -/
def Stops (rest : Text) : Prop :=
  ∀ c ∈ rest.head?, Text.isAsciiDigit c = false

theorem stops_cons {c : Char} {rest : Text} (h : Text.isAsciiDigit c = false) :
    Stops (c :: rest) := by
  intro d found
  cases found
  exact h

theorem Ends.stops {rest : Text} (ends : Ends rest) : Stops rest :=
  fun c found => (ends c found).1

/-! ## Splitting the spelling -/

theorem digits_append {ds rest : Text} (all : ∀ c ∈ ds, Text.isAsciiDigit c = true)
    (stops : Stops rest) : digits (ds ++ rest) = (ds, rest) := by
  have none_left : rest.takeWhile Text.isAsciiDigit = [] ∧
      rest.dropWhile Text.isAsciiDigit = rest := by
    cases rest with
    | nil => exact ⟨rfl, rfl⟩
    | cons c rest =>
      have other := stops c rfl
      rw [List.takeWhile_cons, List.dropWhile_cons, other]
      exact ⟨rfl, rfl⟩
  rw [digits, List.takeWhile_append_of_pos all, List.dropWhile_append_of_pos all, none_left.1,
    none_left.2, List.append_nil]

/-- Digits before a point do not start with a zero, unless they are one. -/
theorem lexWhole?_digits {c : Char} {ds rest : Text}
    (all : ∀ d ∈ c :: ds, Text.isAsciiDigit d = true) (alone : c = '0' → ds = [])
    (stops : Stops rest) : lexWhole? (c :: ds ++ rest) = some (c :: ds, rest) := by
  have split := digits_append all stops
  by_cases zero : c = '0'
  · obtain rfl := alone zero
    subst zero
    cases rest with
    | nil => rfl
    | cons d rest => simp [lexWhole?, stops d rfl]
  · rw [lexWhole?]
    · simp only [split, reduceCtorEq, if_false]
    · intro more same
      exact zero (List.cons.inj same).1

theorem lexWhole?_ofNat (n : Nat) {rest : Text} (stops : Stops rest) :
    lexWhole? (Text.ofNat n ++ rest) = some (Text.ofNat n, rest) := by
  have all : ∀ c ∈ Text.ofNat n, Text.isAsciiDigit c = true := fun c =>
    Text.isAsciiDigit_of_mem_ofNat n
  obtain ⟨c, t, digits, alone⟩ := Text.ofNat_eq_cons n
  rw [digits] at all ⊢
  exact lexWhole?_digits all alone stops

theorem lexFraction?_of_ends {rest : Text} (ends : Ends rest) :
    lexFraction? rest = some (none, rest) := by
  cases rest with
  | nil => rfl
  | cons c rest => simp [lexFraction?, (ends c rfl).2.1]

theorem lexExponent?_of_ends {rest : Text} (ends : Ends rest) :
    lexExponent? rest = some (none, rest) := by
  cases rest with
  | nil => rfl
  | cons c rest => simp [lexExponent?, (ends c rfl).2.2.1, (ends c rfl).2.2.2]

theorem lexUnsigned?_ofNat (negative : Bool) (n : Nat) {rest : Text} (ends : Ends rest) :
    lexUnsigned? negative (Text.ofNat n ++ rest) =
      some (⟨negative, Text.ofNat n, none, none⟩, rest) := by
  simp [lexUnsigned?, lexWhole?_ofNat n ends.stops, lexFraction?_of_ends ends,
    lexExponent?_of_ends ends]

theorem lex?_ofInt (i : Int) {rest : Text} (ends : Ends rest) :
    lex? (Text.ofInt i ++ rest) = some (⟨i < 0, Text.ofNat i.natAbs, none, none⟩, rest) := by
  cases i with
  | negSucc n =>
    have negative : decide (Int.negSucc n < 0) = true := decide_eq_true (Int.negSucc_lt_zero n)
    rw [negative]
    exact lexUnsigned?_ofNat true (n + 1) ends
  | ofNat n =>
    have lexed := lexUnsigned?_ofNat false n ends
    obtain ⟨c, t, digits, -⟩ := Text.ofNat_eq_cons n
    have digit : Text.isAsciiDigit c = true :=
      Text.isAsciiDigit_of_mem_ofNat n (by rw [digits]; exact List.mem_cons_self)
    have unsigned : c ≠ '-' := by
      rintro rfl
      exact absurd digit (by decide)
    have positive : decide (Int.ofNat n < 0) = false :=
      decide_eq_false (Int.not_lt.2 (Int.natCast_nonneg n))
    rw [positive, Text.ofInt, lex?]
    · exact lexed
    · intro more same
      rw [digits] at same
      exact unsigned (List.cons.inj same).1

/-! ## Gathering the value -/

theorem digitValue_digit {d : Nat} (h : d < 10) : digitValue (Char.ofNat (48 + d)) = d := by
  have all : ∀ d < 10, digitValue (Char.ofNat (48 + d)) = d := by decide
  exact all d h

theorem gather_append {word word' : Nat} {ds more : Text} (h : gather word ds = (word', [])) :
    gather word (ds ++ more) = gather word' more := by
  induction ds generalizing word with
  | nil => rw [gather] at h; cases h; rfl
  | cons c ds ih =>
    rw [List.cons_append]
    rw [gather] at h ⊢
    split at h
    · cases h
    · rw [if_neg ‹_›]
      exact ih h

theorem gather_ofNat {n : Nat} (fits : n ≤ Word.greatest 64) :
    gather 0 (Text.ofNat n) = (n, []) := by
  induction n using Nat.strongRecOn with
  | ind n ih =>
    rw [Text.ofNat]
    split
    · rename_i small
      rw [gather, digitValue_digit small, if_neg (by omega), gather]
      simp
    · have front := ih (n / 10) (by omega) (by omega)
      have whole : n / 10 * 10 + n % 10 = n := by omega
      rw [gather_append front, gather, digitValue_digit (Nat.mod_lt n (by decide)), whole,
        if_neg (by omega), gather]

theorem value?_ofNat (negative : Bool) {n : Nat} (fits : n ≤ Word.greatest 64)
    (signed : negative = true → 0 < n ∧ n ≤ Nat.pow 2 63) :
    value? ⟨negative, Text.ofNat n, none, none⟩ =
      some (.integer (if negative then -n else n)) := by
  cases negative with
  | false => simp [value?, scaled, gather_ofNat fits]
  | true =>
    obtain ⟨positive, small⟩ := signed rfl
    have inside : ¬ (n = 0 ∨ Nat.pow 2 63 < n) := by omega
    simp [value?, scaled, gather_ofNat fits, inside]

end Spelling

/-- An integer that fits a word is read back from its digits. -/
theorem Node.readNumber_write {n : Number} (h : n.isWord = true) {rest : Text}
    (ends : Spelling.Ends rest) :
    Node.readNumber (n.write ++ rest) = (.number (some n), rest) := by
  obtain ⟨i, rfl, least, greatest⟩ := Number.exists_of_isWord h
  have bottom : Word.leastSigned 64 = -(Nat.pow 2 63 : Nat) := rfl
  have top : Nat.pow 2 63 ≤ Word.greatest 64 := by decide
  have fits : i.natAbs ≤ Word.greatest 64 := by omega
  have value : Spelling.value? ⟨decide (i < 0), Text.ofNat i.natAbs, none, none⟩ =
      some (.integer i) := by
    rw [Spelling.value?_ofNat _ fits (by rw [decide_eq_true_eq]; omega)]
    by_cases negative : i < 0
    · rw [decide_eq_true negative, if_pos rfl]
      exact congrArg (some ∘ Number.integer) (by omega)
    · rw [decide_eq_false negative, if_neg Bool.false_ne_true]
      exact congrArg (some ∘ Number.integer) (by omega)
  rw [Node.readNumber, Number.write, Spelling.lex?_ofInt i ends]
  simp only [value]

end Json

end HarnessSynthesis
