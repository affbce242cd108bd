/-
# Numeric literals of derived types

Where a signature declares no type, a number of Java or C++ is written as a literal of the type that
is derived for it and the numbers around it. A literal of a word holds no fraction and no integer
above the signed words, a literal of a double no integer of many digits. What a literal stands for
can be read off it. It is the number that was written, up to its canonical form, exactly when this
one fits the type.
-/

import HarnessSynthesis.Literal
import HarnessSynthesis.Json.Canonical
import HarnessSynthesis.Proofs.Json.ProperValues
import HarnessSynthesis.Proofs.Number.Exact

namespace HarnessSynthesis

open Json

/-! ## Numbers that fit a type -/

namespace Json

/-- Whether a document can hold a number: integers are words, signed or unsigned, and doubles are
finite and in normal form. -/
def Number.Held : Number → Prop
  | .integer i => Word.leastSigned 64 ≤ i ∧ i ≤ Word.greatest 64
  | .binary b => b.Proper

/-- A number of a document. -/
abbrev HeldNumber :=
  { n : Number // n.Held }

/-- Whether a number is, in canonical form, one that the literals of a derived type can stand for:
a signed word, or a double or an integer of few digits. -/
def Number.fits : NativeType → Number → Bool
  | .double, .integer i => i.natAbs < Nat.pow 10 15
  | .double, .binary _ => true
  | _, n => n.canonical?.any fun
    | .integer i => i ≤ Word.greatestSigned 64
    | .binary _ => false

namespace HeldNumber

theorem proper_toBinary64 (n : HeldNumber) : n.1.toBinary64.Proper := by
  obtain ⟨n, held⟩ := n
  cases n with
  | integer i =>
    refine Binary64.proper_ofInt ?_
    have opposite : -Word.leastSigned 64 ≤ Word.greatest 64 := by decide
    have bounds : Word.leastSigned 64 ≤ i ∧ i ≤ Word.greatest 64 := held
    omega
  | binary b => exact held

theorem integerValue_bounds (n : HeldNumber) :
    Word.leastSigned 64 ≤ Literal.integerValue (.number n.1) ∧
      Literal.integerValue (.number n.1) ≤ Word.greatestSigned 64 := by
  obtain ⟨n, held⟩ := n
  cases n with
  | integer i =>
    by_cases word : i ≤ Word.greatestSigned 64
    · simp only [Literal.integerValue, Number.toInt64?, if_pos word]
      exact ⟨held.1, word⟩
    · simp only [Literal.integerValue, Number.toInt64?, if_neg word]
      exact Binary64.toInt64_bounds _
  | binary b => exact Binary64.toInt64_bounds b

/-- The number that the literal of a derived type stands for. -/
def denoted (t : NativeType) (n : HeldNumber) : HeldNumber :=
  if t = .double then ⟨.binary n.1.toBinary64, n.proper_toBinary64⟩
  else ⟨.integer (Literal.integerValue (.number n.1)), n.integerValue_bounds.1,
    n.integerValue_bounds.2.trans (by decide)⟩

/-! ### Words -/

theorem integerValue_of_le {i : Int} (word : i ≤ Word.greatestSigned 64) :
    Literal.integerValue (.int i) = i := by
  simp only [Literal.integerValue, Value.int, Number.toInt64?, if_pos word]

theorem integerValue_of_lt {i : Int} (above : Word.greatestSigned 64 < i)
    (held : i ≤ Word.greatest 64) : Literal.integerValue (.int i) = Word.greatestSigned 64 := by
  simp only [Literal.integerValue, Value.int, Number.toInt64?, if_neg (not_le.2 above)]
  exact Binary64.toInt64_ofInt_of_greatestSigned_lt above held

theorem fits_iff_of_ne {t : NativeType} (other : t ≠ .double) {n : Number} :
    n.fits t = true ↔ ∃ i, n.canonical? = some (.integer i) ∧ i ≤ Word.greatestSigned 64 := by
  have word : n.fits t = n.canonical?.any fun
      | .integer i => i ≤ Word.greatestSigned 64
      | .binary _ => false := by
    cases t <;> first | rfl | exact absurd rfl other
  rw [word, Option.any_eq_true]
  constructor
  · rintro ⟨integer | binary, canonical, word⟩
    · exact ⟨integer, canonical, of_decide_eq_true word⟩
    · cases word
  · rintro ⟨i, canonical, word⟩
    exact ⟨.integer i, canonical, decide_eq_true word⟩

/-- A number is the word that is written for it exactly when it is a word. -/
theorem canonical?_integerValue_iff (n : HeldNumber) :
    n.1.canonical? = some (.integer (Literal.integerValue (.number n.1))) ↔
      ∃ i, n.1.canonical? = some (.integer i) ∧ i ≤ Word.greatestSigned 64 := by
  refine ⟨fun same => ⟨_, same, n.integerValue_bounds.2⟩, ?_⟩
  rintro ⟨i, canonical, word⟩
  obtain ⟨n, held⟩ := n
  cases n with
  | integer j =>
    obtain rfl : j = i := by simpa [Number.canonical?] using canonical
    exact congrArg (some ∘ Number.integer) (integerValue_of_le word).symm
  | binary b =>
    simp only [Number.canonical?] at canonical ⊢
    split at canonical
    · rename_i whole
      rw [if_pos whole]
      rfl
    · split at canonical <;> cases canonical

/-! ### Doubles -/

/-- An integer and its double have one canonical form exactly when its digits are few. -/
theorem canonical?_ofInt_iff {i : Int} :
    (Number.binary (Binary64.ofInt i)).canonical? = some (.integer i) ↔
      i.natAbs < Nat.pow 10 15 := by
  have exact_ : Nat.pow 10 15 < Nat.pow 2 53 := by decide
  have word : ∀ j : Int, j.natAbs < Nat.pow 10 15 →
      Word.leastSigned 64 ≤ j ∧ j ≤ Word.greatestSigned 64 := by
    have least : (Nat.pow 10 15 : Int) ≤ -Word.leastSigned 64 := by decide
    have greatest : (Nat.pow 10 15 : Int) ≤ Word.greatestSigned 64 := by decide
    intro j few
    omega
  have back {b : Binary64} (whole : b.isWhole = true) (few : b.truncate.natAbs < Nat.pow 10 15) :
      (Number.binary b).canonical? = some (.integer b.truncate) := by
    have finite : b.isFinite = true := by
      cases b <;> first | rfl | cases whole
    rw [Number.canonical?, if_pos ⟨whole, few⟩,
      Binary64.toInt64_eq_truncate (word _ few).1 (word _ few).2 finite]
  constructor
  · intro canonical
    by_cases whole : (Binary64.ofInt i).isWhole = true ∧
        (Binary64.ofInt i).truncate.natAbs < Nat.pow 10 15
    · rw [back whole.1 whole.2] at canonical
      have same : (Binary64.ofInt i).truncate = i := by simpa using canonical
      rw [← same]
      exact whole.2
    · rw [Number.canonical?, if_neg whole] at canonical
      split at canonical <;> cases canonical
  · intro few
    obtain ⟨whole, same⟩ := Binary64.truncate_ofInt (few.trans exact_)
    rw [back whole (by rwa [same]), same]

/-! ### Derived types -/

/-- The type that literals get which are derived from a number. -/
def literalType (n : HeldNumber) : NativeType :=
  NativeType.ofNumber? (some (.number n.1))

/-- What a literal stands for fits its type, and it is the number itself, up to its canonical form,
when this one does. -/
theorem canonical?_denoted_iff {t : NativeType} (n : HeldNumber) :
    (n.denoted t).1.canonical? = n.1.canonical? ↔ n.1.fits t = true := by
  by_cases double : t = .double
  · subst double
    obtain ⟨n, held⟩ := n
    cases n with
    | integer i => exact canonical?_ofInt_iff.trans decide_eq_true_iff.symm
    | binary b => exact iff_of_true rfl rfl
  · rw [fits_iff_of_ne double, ← canonical?_integerValue_iff, denoted, if_neg double]
    exact eq_comm

/-- What a literal stands for has this literal. -/
theorem denoted_denoted (t : NativeType) (n : HeldNumber) :
    (n.denoted t).denoted t = n.denoted t := by
  by_cases double : t = .double
  · simp only [denoted, if_pos double, Number.toBinary64]
  · simp only [denoted, if_neg double]
    exact Subtype.ext (congrArg Number.integer (integerValue_of_le n.integerValue_bounds.2))

theorem fits_denoted (t : NativeType) (n : HeldNumber) : (n.denoted t).1.fits t = true := by
  rw [← canonical?_denoted_iff, denoted_denoted]

theorem not_fitsSigned_of_lt {i : Int} (above : Word.greatestSigned 64 < i) :
    ¬ Word.fitsSigned 32 i = true := by
  have narrow : Word.greatestSigned 32 ≤ Word.greatestSigned 64 := by decide
  rw [Word.fitsSigned, Bool.and_eq_true, decide_eq_true_eq, decide_eq_true_eq]
  omega

/-- Integers get the narrower type that holds them, and those above all words the wider one. -/
theorem ofNumber?_int (i : Int) :
    NativeType.ofNumber? (some (.int i)) = if Word.fitsSigned 32 i = true then .int else .long := by
  by_cases word : i ≤ Word.greatestSigned 64
  · simp only [Value.int, NativeType.ofNumber?, Number.toInt64?, if_pos word, Option.map_some,
      Option.getD_some]
  · simp only [Value.int, NativeType.ofNumber?, Number.toInt64?, if_neg word,
      if_neg (not_fitsSigned_of_lt (not_le.1 word)), Option.map_none, Option.getD_none,
      Bool.false_eq_true, if_false]

/-- The number that a type is derived from keeps it. -/
theorem literalType_denoted (n : HeldNumber) :
    (n.denoted n.literalType).literalType = n.literalType := by
  obtain ⟨n, held⟩ := n
  cases n with
  | binary b => rfl
  | integer i =>
    have derived : literalType ⟨.integer i, held⟩ =
        if Word.fitsSigned 32 i = true then .int else .long := ofNumber?_int i
    have integral : literalType ⟨.integer i, held⟩ ≠ .double := by
      rw [derived]
      split <;> decide
    rw [denoted, if_neg integral]
    by_cases word : i ≤ Word.greatestSigned 64
    · exact congrArg (fun j => NativeType.ofNumber? (some (.int j))) (integerValue_of_le word)
    · have same := integerValue_of_lt (not_le.1 word) held.2
      have top : NativeType.ofNumber? (some (.int (Word.greatestSigned 64))) = .long := by decide
      rw [derived, if_neg (not_fitsSigned_of_lt (not_le.1 word))]
      exact (congrArg (fun j => NativeType.ofNumber? (some (.int j))) same).trans top

end HeldNumber

end Json

/-! ## Reading a literal -/

namespace Literal

variable {l : Language}

/-- Whether numbers derive a type. -/
def IsDerived (t : NativeType) : Prop :=
  t = .int ∨ t = .long ∨ t = .double

theorem isDerived_ofNumber? (sample : Option Value) : IsDerived (NativeType.ofNumber? sample) := by
  unfold NativeType.ofNumber? IsDerived
  split
  · exact Or.inr (Or.inr rfl)
  · split
    · exact Or.inl rfl
    · exact Or.inr (Or.inl rfl)
  · exact Or.inl rfl

theorem IsDerived.integral {t : NativeType} (derived : IsDerived t) (other : t ≠ .double) :
    t = .int ∨ t = .long := by
  rcases derived with int | long | double
  · exact Or.inl int
  · exact Or.inr long
  · exact absurd double other

/-- The suffix of the literals of a derived type. -/
def suffix (l : Language) : NativeType → Text
  | .long => if l = .cpp then "LL" else "L"
  | _ => []

theorem mem_plain (digits : Text) (exponent : Int) : '.' ∈ Layout.plain digits exponent := by
  rw [Layout.plain]
  split
  · simp
  · dsimp only
    split <;> simp

theorem mem_scientific (layout : Layout) (digits : Text) (exponent : Int) :
    'e' ∈ layout.scientific digits exponent := by
  have mark : 'e' ∈ if 0 ≤ exponent ∧ layout.signedExponent = true then ['e', '+'] else ['e'] := by
    split <;> exact List.mem_cons_self
  exact List.mem_append_left _ (List.mem_append_right _ mark)

/-- A double that is written shows that it is one. -/
theorem marked_write (layout : Layout) {b : Binary64} (finite : b.isFinite = true) :
    ((layout.write b).any fun c => c == '.' || c == 'e' || c == 'E') = true := by
  refine List.any_eq_true.2 ?_
  cases b with
  | infinite negative | notANumber => cases finite
  | finite negative m e =>
    rw [Layout.write]
    split
    · exact ⟨'.', List.mem_append_right _ (by decide), rfl⟩
    · dsimp only
      split
      · exact ⟨'.', List.mem_append_right _ (mem_plain _ _), rfl⟩
      · exact ⟨'e', List.mem_append_right _ (mem_scientific layout _ _), rfl⟩

theorem isFinite_of_proper {b : Binary64} (proper : b.Proper) : b.isFinite = true := by
  cases b with
  | finite negative m e => rfl
  | infinite negative | notANumber => exact proper.elim

theorem native_double (n : HeldNumber) :
    native l .double (.number n.1) = Layout.literal.write n.1.toBinary64 := by
  have finite := isFinite_of_proper n.proper_toBinary64
  simp only [native, double, finite, if_true, marked_write, List.append_nil]

theorem native_integer {t : NativeType} (integral : t = .int ∨ t = .long) (n : HeldNumber) :
    native l t (.number n.1) = integer (suffix l t) (.number n.1) := by
  rcases integral with rfl | rfl <;> rfl

/-- A literal depends on no more of a number than what it stands for. -/
theorem native_denoted {t : NativeType} (derived : IsDerived t) (n : HeldNumber) :
    native l t (.number (n.denoted t).1) = native l t (.number n.1) := by
  by_cases double : t = .double
  · subst double
    rw [native_double, native_double]
    rfl
  · have integral := derived.integral double
    have same : integerValue (.number (n.denoted t).1) = integerValue (.number n.1) := by
      rw [HeldNumber.denoted, if_neg double]
      exact HeldNumber.integerValue_of_le n.integerValue_bounds.2
    rw [native_integer integral, native_integer integral]
    unfold integer
    rw [same]

/-- A text behind the suffix at its head. -/
def dropSuffix (t : Text) : Text :=
  t.dropWhile (· == 'L')

/-- The number that a literal at the head of a text stands for, and the rest. A difference stands
for the least word, which is no negated literal. -/
def readLiteral? (t : Text) : Option (Number × Text) :=
  match Text.afterPrefix? ['('] t with
  | none => do
    let (n, rest) ← Spelling.readNearest? t
    return (n, dropSuffix rest)
  | some t => do
    let (n, rest) ← Spelling.readNearest? t
    let rest ← Text.afterPrefix? " - " (dropSuffix rest)
    let (m, rest) ← Spelling.readNearest? rest
    let rest ← Text.afterPrefix? [')'] (dropSuffix rest)
    match n, m with
    | .integer i, .integer j => return (.integer (i - j), rest)
    | _, _ => none

/-- A text that an element can stand in front of. -/
def Closes (rest : Text) : Prop :=
  ∀ c ∈ rest.head?, c = ',' ∨ c = '}'

theorem suffix_cases (l : Language) (t : NativeType) :
    suffix l t = [] ∨ suffix l t = ['L'] ∨ suffix l t = ['L', 'L'] := by
  cases t with
  | long =>
    rw [suffix]
    split
    · exact Or.inr (Or.inr rfl)
    · exact Or.inr (Or.inl rfl)
  | _ => exact Or.inl rfl

theorem ends_suffix_append (t : NativeType) {rest : Text} (ends : Spelling.Ends rest) :
    Spelling.Ends (suffix l t ++ rest) := by
  rcases suffix_cases l t with none | one | two
  · rw [none]
    exact ends
  · rw [one]
    exact Spelling.ends_cons (by decide)
  · rw [two]
    exact Spelling.ends_cons (by decide)

theorem dropSuffix_suffix_append (t : NativeType) {rest : Text} (other : rest.head? ≠ some 'L') :
    dropSuffix (suffix l t ++ rest) = rest := by
  have stops : dropSuffix rest = rest := by
    cases rest with
    | nil => rfl
    | cons c rest =>
      refine List.dropWhile_cons_of_neg fun same => other ?_
      rw [eq_of_beq same]
      rfl
  rcases suffix_cases l t with none | one | two
  · rw [none]
    exact stops
  · rw [one]
    exact stops
  · rw [two]
    exact stops

theorem Closes.ends {rest : Text} (closes : Closes rest) : Spelling.Ends rest := by
  intro c found
  rcases closes c found with rfl | rfl <;> decide

theorem Closes.head?_ne {rest : Text} (closes : Closes rest) : rest.head? ≠ some 'L' := by
  intro found
  rcases closes 'L' found with same | same <;> exact absurd same (by decide)

theorem readLiteral?_of_readNearest? {t rest : Text} {n : Number}
    (read : Spelling.readNearest? t = some (n, rest)) :
    readLiteral? t = some (n, dropSuffix rest) := by
  have other : Text.afterPrefix? ['('] t = none := by
    obtain ⟨c, u, rfl, start⟩ := Spelling.exists_of_readNearest? read
    refine Option.eq_none_iff_forall_ne_some.2 fun rest found => ?_
    obtain ⟨rfl, -⟩ := List.cons.inj (Text.afterPrefix?_eq_some_iff.1 found)
    exact absurd start (by decide)
  simp only [readLiteral?, other, read, Option.bind_eq_bind, Option.bind_some, Option.pure_def]

/-- The least word is read as the difference it is. -/
theorem readLiteral?_difference (t : NativeType) (i j : Int) (rest : Text) :
    readLiteral? (['('] ++ Text.ofInt i ++ suffix l t ++ " - " ++ Text.ofInt j ++ suffix l t ++
      [')'] ++ rest) = some (.integer (i - j), rest) := by
  generalize right : Text.ofInt j ++ (suffix l t ++ ([')'] ++ rest)) = operand
  have minus : " - ".toList ++ operand = ' ' :: ("- ".toList ++ operand) := rfl
  have ends : Spelling.Ends (" - ".toList ++ operand) := by
    rw [minus]
    exact Spelling.ends_cons (by decide)
  have first := Spelling.readNearest?_write_integer i (ends_suffix_append (l := l) t ends)
  have second : Spelling.readNearest? operand =
      some (.integer j, suffix l t ++ ([')'] ++ rest)) := by
    rw [← right]
    exact Spelling.readNearest?_write_integer j
      (ends_suffix_append t (Spelling.ends_cons (by decide)))
  have behind : dropSuffix (suffix l t ++ (" - ".toList ++ operand)) = " - ".toList ++ operand := by
    refine dropSuffix_suffix_append t ?_
    rw [minus]
    exact by simp
  have closed : dropSuffix (suffix l t ++ ([')'] ++ rest)) = [')'] ++ rest :=
    dropSuffix_suffix_append t (by simp)
  simp only [List.append_assoc, right, readLiteral?, Text.afterPrefix?_append, first, behind,
    second, closed, Option.bind_eq_bind, Option.bind_some, Option.pure_def]

/-- A literal is read as what it stands for. -/
theorem readLiteral?_native {t : NativeType} (derived : IsDerived t) (n : HeldNumber) {rest : Text}
    (closes : Closes rest) :
    readLiteral? (native l t (.number n.1) ++ rest) = some ((n.denoted t).1, rest) := by
  by_cases double : t = .double
  · subst double
    have read := Spelling.readNearest?_write_binary Layout.literal n.proper_toBinary64 closes.ends
    have behind : dropSuffix rest = rest :=
      dropSuffix_suffix_append (l := l) .double closes.head?_ne
    rw [native_double, readLiteral?_of_readNearest? read, behind]
    rfl
  · have stands : (n.denoted t).1 = .integer (integerValue (.number n.1)) := by
      rw [HeldNumber.denoted, if_neg double]
    have one : " - 1".toList = " - ".toList ++ Text.ofInt 1 := by simp [Text.ofInt, Text.ofNat]
    rw [native_integer (derived.integral double), stands, integer]
    split
    · have read := readLiteral?_difference (l := l) t (integerValue (.number n.1) + 1) 1 rest
      rw [add_sub_cancel_right] at read
      rw [← read, one]
      simp only [List.append_assoc]
    · have read := Spelling.readNearest?_write_integer (integerValue (.number n.1))
        (ends_suffix_append (l := l) t closes.ends)
      rw [List.append_assoc, readLiteral?_of_readNearest? read,
        dropSuffix_suffix_append t closes.head?_ne]

/-! ## Integers -/

/-- The size of the integers of a derived type. -/
def bits (t : NativeType) : Nat :=
  if t = .int then 32 else 64

/-- The integer that a place of a derived type gets from a literal: none unless the literal is one
of an integer that the type holds. -/
def given? (t : NativeType) (literal : Text) : Option Int :=
  match readLiteral? literal with
  | some (.integer i, []) => if Word.fitsSigned (bits t) i then some i else none
  | _ => none

/-- The literal of an integer gives this integer exactly when its type holds it. -/
theorem given?_native_iff {t : NativeType} (integral : t = .int ∨ t = .long) {i : Int}
    (least : Word.leastSigned 64 ≤ i) (greatest : i ≤ Word.greatest 64) :
    given? t (native l t (.int i)) = some i ↔ Word.fitsSigned (bits t) i = true := by
  have derived : IsDerived t := integral.imp_right Or.inl
  have closes : Closes [] := nofun
  have read := readLiteral?_native (l := l) derived ⟨.integer i, least, greatest⟩ closes
  have stands : (HeldNumber.denoted t ⟨.integer i, least, greatest⟩).1 =
      .integer (integerValue (.int i)) := by
    rw [HeldNumber.denoted, if_neg (by rcases integral with rfl | rfl <;> decide)]
    rfl
  rw [List.append_nil, stands] at read
  have given : given? t (native l t (.int i)) =
      if Word.fitsSigned (bits t) (integerValue (.int i)) = true then some (integerValue (.int i))
      else none := by
    rw [given?, Value.int, read]
    rfl
  rw [given]
  by_cases word : i ≤ Word.greatestSigned 64
  · rw [HeldNumber.integerValue_of_le word]
    exact ite_eq_left_iff.trans (by simp)
  · have above := not_le.1 word
    have large : ¬ Word.fitsSigned (bits t) i = true := by
      rcases integral with rfl | rfl
      · exact HeldNumber.not_fitsSigned_of_lt above
      · rw [Word.fitsSigned, Bool.and_eq_true, decide_eq_true_eq, decide_eq_true_eq]
        exact fun fits => word fits.2
    rw [HeldNumber.integerValue_of_lt above greatest]
    refine iff_of_false ?_ large
    split
    · exact fun same => above.ne (Option.some.inj same)
    · nofun

theorem given?_write_iff (family : l.isCFamily = true) {i : Int}
    (least : Word.leastSigned 64 ≤ i) (greatest : i ≤ Word.greatest 64) :
    given? (NativeType.ofNumber? (some (.int i))) (write l .number none (.int i)) = some i ↔
      i ≤ Word.greatestSigned 64 := by
  have text : write l .number none (.int i) =
      native l (NativeType.ofNumber? (some (.int i))) (.int i) := by
    rw [write, if_pos family]
    rfl
  rw [text, HeldNumber.ofNumber?_int]
  split
  · rename_i narrow
    have word : i ≤ Word.greatestSigned 64 := by
      by_contra above
      exact HeldNumber.not_fitsSigned_of_lt (not_le.1 above) narrow
    rw [given?_native_iff (Or.inl rfl) least greatest]
    exact iff_of_true narrow word
  · rw [given?_native_iff (Or.inr rfl) least greatest]
    have wide : Word.fitsSigned (bits .long) i = true ↔
        Word.leastSigned 64 ≤ i ∧ i ≤ Word.greatestSigned 64 := by
      rw [Word.fitsSigned, Bool.and_eq_true, decide_eq_true_eq, decide_eq_true_eq]
      rfl
    rw [wide, and_iff_right least]

end Literal

end HarnessSynthesis
