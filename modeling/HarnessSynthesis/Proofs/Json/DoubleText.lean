/-
# Doubles in texts

TypeScript, Python, Java and C++ round a floating-point literal once, from all its digits. Read that
way, the text of a double is the double again, in every layout: the digits denote the shortest
decimal, wherever the point stands and however the exponent is signed.
-/

import Mathlib.Data.List.Induction
import HarnessSynthesis.Number.Numeral
import HarnessSynthesis.Proofs.Json.NumberText
import HarnessSynthesis.Proofs.Number.Shortest

namespace HarnessSynthesis

open Json

/-! ## The value of digits -/

namespace Numeral

/-- What decimal digits denote. -/
def digitsValue (ds : Text) : Nat :=
  ds.foldl (fun n c => n * 10 + (c.toNat - 48)) 0

theorem natural?_of_digits {ds : Text} (all : ∀ c ∈ ds, Text.isAsciiDigit c = true)
    (nonempty : ds ≠ []) : natural? ds = some (digitsValue ds) := by
  have gathered : ∀ (ds : Text) (n : Nat), (∀ c ∈ ds, Text.isAsciiDigit c = true) →
      ds.foldlM
          (fun n c => if Text.isAsciiDigit c then some (n * 10 + (c.toNat - 48)) else none) n =
        some (ds.foldl (fun n c => n * 10 + (c.toNat - 48)) n) := by
    intro ds
    induction ds with
    | nil => intro n _; rfl
    | cons c ds ih =>
      intro n all
      rw [List.foldlM_cons, if_pos (all c List.mem_cons_self), Option.bind_eq_bind,
        Option.bind_some, ih _ fun d later => all d (List.mem_cons_of_mem c later), List.foldl_cons]
  rw [natural?, if_neg nonempty, gathered ds 0 all, digitsValue]

theorem digitsValue_append (ds es : Text) :
    digitsValue (ds ++ es) = digitsValue ds * 10 ^ es.length + digitsValue es := by
  induction es using List.reverseRecOn with
  | nil => rw [List.append_nil, List.length_nil, Nat.pow_zero, Nat.mul_one]; rfl
  | append_singleton es c ih =>
    have last (t : Text) : digitsValue (t ++ [c]) = digitsValue t * 10 + (c.toNat - 48) := by
      rw [digitsValue, List.foldl_append]
      rfl
    rw [← List.append_assoc, last, last, ih, List.length_append, List.length_singleton,
      Nat.pow_succ]
    ring

theorem digitsValue_ofNat (n : Nat) : digitsValue (Text.ofNat n) = n := by
  induction n using Nat.strongRecOn with
  | ind n ih =>
    have single {d : Nat} (h : d < 10) : digitsValue [Char.ofNat (48 + d)] = d := by
      have value := Spelling.digitValue_digit h
      rw [Spelling.digitValue] at value
      rw [digitsValue, List.foldl_cons, value, List.foldl_nil, Nat.zero_mul, Nat.zero_add]
    rw [Text.ofNat]
    split
    · exact single ‹_›
    · rw [digitsValue_append, ih (n / 10) (by omega), single (Nat.mod_lt n (by decide)),
        List.length_singleton]
      omega

theorem natural?_ofNat (n : Nat) : natural? (Text.ofNat n) = some n := by
  obtain ⟨c, t, digits, -⟩ := Text.ofNat_eq_cons n
  have nonempty : Text.ofNat n ≠ [] := by
    rw [digits]
    exact List.cons_ne_nil c t
  rw [natural?_of_digits (fun d => Text.isAsciiDigit_of_mem_ofNat n) nonempty, digitsValue_ofNat]

theorem digitsValue_zeros (count : Nat) : digitsValue (List.replicate count '0') = 0 := by
  induction count with
  | zero => rfl
  | succ count ih => rw [List.replicate_succ', digitsValue_append, ih]; rfl

end Numeral

namespace Json.Spelling

/-! ## Reading with one rounding -/

/-- The decimal that a spelling denotes. -/
def decimal? (s : Spelling) : Option Decimal := do
  let fraction := s.fraction.getD []
  let digits ← Numeral.natural? (s.whole ++ fraction)
  let exponent ← match s.exponent with
    | none => some (0 : Int)
    | some (lowered, ds) => (Numeral.natural? ds).map fun n => if lowered then -(n : Int) else n
  return ⟨digits, exponent - fraction.length⟩

/-- The number that a spelling stands for in a program: an integer, however long, or the double
nearest to its decimal. -/
def nearest? (s : Spelling) : Option Number :=
  if s.fraction = none ∧ s.exponent = none then
    (Numeral.natural? s.whole).map fun n => .integer (if s.negative then -(n : Int) else n)
  else
    s.decimal?.map fun d => .binary (Binary64.ofDecimal s.negative d.digits d.exponent)

/-- The number at the head of a text. -/
def readNearest? (t : Text) : Option (Number × Text) := do
  let (s, rest) ← lex? t
  let n ← s.nearest?
  return (n, rest)

/-! ## Fractions and exponents -/

section Lex

variable {rest : Text}

theorem lexFraction?_cons {ds : Text} (all : ∀ c ∈ ds, Text.isAsciiDigit c = true)
    (nonempty : ds ≠ []) (stops : Stops rest) :
    lexFraction? ('.' :: (ds ++ rest)) = some (some ds, rest) := by
  rw [lexFraction?, digits_append all stops]
  exact if_neg nonempty

theorem lexExponentDigits?_ofNat (negative : Bool) (n : Nat) (stops : Stops rest) :
    lexExponentDigits? negative (Text.ofNat n ++ rest) =
      some (some (negative, Text.ofNat n), rest) := by
  have nonempty : Text.ofNat n ≠ [] := by
    obtain ⟨c, t, digits, -⟩ := Text.ofNat_eq_cons n
    rw [digits]
    exact List.cons_ne_nil c t
  rw [lexExponentDigits?, digits_append (fun c => Text.isAsciiDigit_of_mem_ofNat n) stops]
  exact if_neg nonempty

/-- An exponent is read whether or not its sign is written when it is positive. -/
theorem lexExponent?_ofInt {mark : Text} {e : Int} (stops : Stops rest)
    (marked : mark = ['e'] ∨ 0 ≤ e ∧ mark = ['e', '+']) :
    lexExponent? (mark ++ Text.ofInt e ++ rest) =
      some (some (decide (e < 0), Text.ofNat e.natAbs), rest) := by
  cases e with
  | negSucc n =>
    obtain rfl := marked.resolve_right fun h => absurd h.1 (by omega)
    have negative : decide (Int.negSucc n < 0) = true := decide_eq_true (Int.negSucc_lt_zero n)
    rw [negative]
    exact lexExponentDigits?_ofNat true (n + 1) stops
  | ofNat n =>
    have positive : decide (Int.ofNat n < 0) = false :=
      decide_eq_false (Int.not_lt.2 (Int.natCast_nonneg n))
    rw [positive]
    have lexed := lexExponentDigits?_ofNat false n stops
    rcases marked with rfl | ⟨-, rfl⟩
    · obtain ⟨c, t, digits, -⟩ := Text.ofNat_eq_cons n
      have digit : Text.isAsciiDigit c = true :=
        Text.isAsciiDigit_of_mem_ofNat n (by rw [digits]; exact List.mem_cons_self)
      have plus : c ≠ '+' := by
        rintro rfl
        exact absurd digit (by decide)
      have minus : c ≠ '-' := by
        rintro rfl
        exact absurd digit (by decide)
      have head : Text.ofInt (.ofNat n) ++ rest = c :: (t ++ rest) := by
        rw [Text.ofInt, digits, List.cons_append]
      have unsigned : lexExponent? ('e' :: c :: (t ++ rest)) =
          lexExponentDigits? false (c :: (t ++ rest)) := by
        simp [lexExponent?, plus, minus]
      rw [List.append_assoc, head, List.singleton_append, unsigned, ← head]
      exact lexed
    · exact lexed

theorem lexUnsigned?_of_parts {negative : Bool} {t u v whole : Text} {fraction : Option Text}
    {exponent : Option (Bool × Text)} (first : lexWhole? t = some (whole, u))
    (second : lexFraction? u = some (fraction, v))
    (third : lexExponent? v = some (exponent, rest)) :
    lexUnsigned? negative t = some (⟨negative, whole, fraction, exponent⟩, rest) := by
  simp [lexUnsigned?, first, second, third]

end Lex

/-! ## Layouts -/

/-- A text that is lexed as the spelling of a decimal with a point or an exponent, whatever stands
behind it. -/
structure Spells (negative : Bool) (t : Text) (d : Decimal) (s : Spelling) : Prop where
  lexed : ∀ rest, Ends rest → lexUnsigned? negative (t ++ rest) = some (s, rest)
  negative_eq : s.negative = negative
  marked : ¬ (s.fraction = none ∧ s.exponent = none)
  decimal : s.decimal? = some d

section Layout

variable {n : Nat} (top : Int)

theorem spells_point (negative : Bool) {c : Char} {whole fraction : Text}
    (wholeDigits : ∀ d ∈ c :: whole, Text.isAsciiDigit d = true) (alone : c = '0' → whole = [])
    (fractionDigits : ∀ d ∈ fraction, Text.isAsciiDigit d = true) (nonempty : fraction ≠ []) :
    Spells negative (c :: whole ++ '.' :: fraction)
      ⟨Numeral.digitsValue (c :: whole ++ fraction), -fraction.length⟩
      ⟨negative, c :: whole, some fraction, none⟩ where
  lexed rest ends := by
    have point : c :: whole ++ '.' :: fraction ++ rest = c :: whole ++ '.' :: (fraction ++ rest) :=
      List.append_assoc _ _ _
    rw [point]
    exact lexUnsigned?_of_parts (lexWhole?_digits wholeDigits alone (stops_cons (by decide)))
      (lexFraction?_cons fractionDigits nonempty ends.stops) (lexExponent?_of_ends ends)
  negative_eq := rfl
  marked := fun h => absurd h.1 (Option.some_ne_none fraction)
  decimal := by
    have all : ∀ d ∈ c :: whole ++ fraction, Text.isAsciiDigit d = true := by
      rw [List.forall_mem_append]
      exact ⟨wholeDigits, fractionDigits⟩
    have value := Numeral.natural?_of_digits all (List.cons_ne_nil _ _)
    simp only [decimal?, Option.getD_some, value, Option.bind_eq_bind, Option.bind_some,
      Int.zero_sub, Option.pure_def]

theorem exists_digits (positive : 0 < n) :
    ∃ c t, Text.ofNat n = c :: t ∧ c ≠ '0' ∧ ∀ d ∈ c :: t, Text.isAsciiDigit d = true := by
  obtain ⟨c, t, digits, alone⟩ := Text.ofNat_eq_cons n
  refine ⟨c, t, digits, ?_, ?_⟩
  · intro zero
    have value := Numeral.digitsValue_ofNat n
    rw [digits, alone zero, zero] at value
    exact positive.ne value
  · rw [← digits]
    exact fun d => Text.isAsciiDigit_of_mem_ofNat n

theorem isAsciiDigit_of_mem_zeros {count : Nat} :
    ∀ d ∈ List.replicate count '0', Text.isAsciiDigit d = true := by
  intro d place
  rw [List.eq_of_mem_replicate place]
  decide

/-- Digits with zeros in front of them, behind the point. -/
theorem spells_zeros_append (negative : Bool) {ds : Text} (nonempty : ds ≠ [])
    (all : ∀ d ∈ ds, Text.isAsciiDigit d = true) (count : Nat) :
    ∃ s, Spells negative (['0', '.'] ++ List.replicate count '0' ++ ds)
      ⟨Numeral.digitsValue ds, -(count + ds.length : Nat)⟩ s := by
  have fraction : ∀ d ∈ List.replicate count '0' ++ ds, Text.isAsciiDigit d = true := by
    rw [List.forall_mem_append]
    exact ⟨isAsciiDigit_of_mem_zeros, all⟩
  have zero : ∀ d ∈ ['0'], Text.isAsciiDigit d = true := List.forall_mem_singleton.2 rfl
  have spelled := spells_point negative zero (fun _ => rfl) fraction
    (List.append_ne_nil_of_right_ne_nil _ nonempty)
  have value : Numeral.digitsValue (['0'] ++ (List.replicate count '0' ++ ds)) =
      Numeral.digitsValue ds := by
    rw [Numeral.digitsValue_append, Numeral.digitsValue_append, Numeral.digitsValue_zeros,
      Nat.zero_mul, Nat.zero_add]
    exact (Nat.zero_mul _).symm ▸ Nat.zero_add _
  rw [value, List.length_append, List.length_replicate] at spelled
  exact ⟨_, spelled⟩

/-- Digits with zeros behind them, and a zero behind the point. -/
theorem spells_append_zeros (negative : Bool) {c : Char} {ds : Text} (lead : c ≠ '0')
    (all : ∀ d ∈ c :: ds, Text.isAsciiDigit d = true) (count : Nat) :
    ∃ s, Spells negative (c :: ds ++ List.replicate count '0' ++ ['.', '0'])
      ⟨Numeral.digitsValue (c :: ds) * 10 ^ (count + 1), -1⟩ s := by
  have whole : ∀ d ∈ c :: (ds ++ List.replicate count '0'), Text.isAsciiDigit d = true := by
    rw [← List.cons_append, List.forall_mem_append]
    exact ⟨all, isAsciiDigit_of_mem_zeros⟩
  have zero : ∀ d ∈ ['0'], Text.isAsciiDigit d = true := List.forall_mem_singleton.2 rfl
  have spelled := spells_point negative whole (fun zero => absurd zero lead) zero
    (List.cons_ne_nil _ _)
  have value : Numeral.digitsValue (c :: (ds ++ List.replicate count '0') ++ ['0']) =
      Numeral.digitsValue (c :: ds) * 10 ^ (count + 1) := by
    rw [← List.cons_append, Numeral.digitsValue_append, Numeral.digitsValue_append,
      Numeral.digitsValue_zeros, List.length_replicate, List.length_singleton, Nat.pow_succ]
    exact (Nat.mul_assoc _ _ _)
  rw [value] at spelled
  exact ⟨_, spelled⟩

/-- Digits with the point between them. -/
theorem spells_take_drop (negative : Bool) {c : Char} {ds : Text} (lead : c ≠ '0')
    (all : ∀ d ∈ c :: ds, Text.isAsciiDigit d = true) {count : Nat} (inside : count < ds.length) :
    ∃ s, Spells negative (c :: ds.take count ++ '.' :: ds.drop count)
      ⟨Numeral.digitsValue (c :: ds), -(ds.length - count : Nat)⟩ s := by
  have parts : c :: ds.take count ++ ds.drop count = c :: ds := by
    rw [List.cons_append, List.take_append_drop]
  have digits : ∀ d ∈ c :: ds.take count ++ ds.drop count, Text.isAsciiDigit d = true := by
    rwa [parts]
  rw [List.forall_mem_append] at digits
  have nonempty : ds.drop count ≠ [] := by
    rw [Ne, List.drop_eq_nil_iff]
    omega
  have spelled := spells_point negative digits.1 (fun zero => absurd zero lead) digits.2 nonempty
  rw [parts, List.length_drop] at spelled
  exact ⟨_, spelled⟩

/-- Digits laid out around a point. -/
theorem exists_spells_plain (negative : Bool) (positive : 0 < n) :
    ∃ d s, Spells negative (Layout.plain (Text.ofNat n) top) d s ∧ d.digits ≠ 0 ∧
      d.value = n * 10 ^ (top + 1 - (Text.ofNat n).length) := by
  have value := Numeral.digitsValue_ofNat n
  obtain ⟨c, t, digits, lead, all⟩ := exists_digits positive
  rw [digits] at value ⊢
  rw [Layout.plain]
  split
  · obtain ⟨s, spelled⟩ := spells_zeros_append negative (List.cons_ne_nil c t) all (-top - 1).toNat
    have exponent : -(((-top - 1).toNat + (c :: t).length : Nat) : Int) =
        top + 1 - (c :: t).length := by
      omega
    rw [value, exponent] at spelled
    exact ⟨_, s, spelled, positive.ne', rfl⟩
  · dsimp only
    split
    · obtain ⟨s, spelled⟩ := spells_append_zeros negative lead all (top.toNat + 1 - (c :: t).length)
      have exponent : top + 1 - (c :: t).length = (top.toNat + 1 - (c :: t).length : Nat) := by
        omega
      rw [value] at spelled
      refine ⟨_, s, spelled, Nat.mul_ne_zero positive.ne' (Nat.pow_pos (by decide)).ne', ?_⟩
      rw [exponent, Decimal.value, zpow_natCast, zpow_neg_one, Nat.cast_mul, Nat.cast_pow,
        Nat.cast_ofNat, pow_succ, mul_assoc, mul_assoc, mul_inv_cancel₀ (by norm_num), mul_one]
    · have inside : top.toNat < t.length := by
        have size : (c :: t).length = t.length + 1 := List.length_cons
        omega
      obtain ⟨s, spelled⟩ := spells_take_drop negative lead all inside
      have exponent : -((t.length - top.toNat : Nat) : Int) = top + 1 - (c :: t).length := by
        rw [List.length_cons]
        omega
      rw [value, exponent] at spelled
      refine ⟨⟨n, top + 1 - (c :: t).length⟩, s, ?_, positive.ne', rfl⟩
      rw [List.take_succ_cons, List.drop_succ_cons, List.append_assoc]
      exact spelled

/-- One digit, a point with the others if there are any, and the exponent. -/
theorem spells_exponent (negative : Bool) {c : Char} {ds mark : Text} {e : Int}
    (all : ∀ d ∈ c :: ds, Text.isAsciiDigit d = true)
    (marked : mark = ['e'] ∨ 0 ≤ e ∧ mark = ['e', '+']) :
    ∃ s, Spells negative ([c] ++ (if ds = [] then [] else '.' :: ds) ++ (mark ++ Text.ofInt e))
      ⟨Numeral.digitsValue (c :: ds), e - ds.length⟩ s := by
  have first : ∀ d ∈ [c], Text.isAsciiDigit d = true := by
    rw [List.forall_mem_singleton]
    exact all c List.mem_cons_self
  have fraction : ∀ d ∈ ds, Text.isAsciiDigit d = true := fun d later =>
    all d (List.mem_cons_of_mem c later)
  have head : ∃ t, mark = 'e' :: t := by
    rcases marked with rfl | ⟨-, rfl⟩ <;> exact ⟨_, rfl⟩
  obtain ⟨t, rfl⟩ := head
  refine ⟨⟨negative, [c], if ds = [] then none else some ds, some (e < 0, Text.ofNat e.natAbs)⟩,
    ?_, rfl, fun none => absurd none.2 (Option.some_ne_none _), ?_⟩
  · intro rest ends
    have exponent := lexExponent?_ofInt ends.stops marked
    have stops : Stops ('e' :: t ++ Text.ofInt e ++ rest) := stops_cons (by decide)
    split
    · rw [List.append_nil, List.append_assoc]
      exact lexUnsigned?_of_parts (lexWhole?_digits first (fun _ => rfl) stops) rfl exponent
    · rename_i several
      have point : [c] ++ '.' :: ds ++ ('e' :: t ++ Text.ofInt e) ++ rest =
          [c] ++ '.' :: (ds ++ ('e' :: t ++ Text.ofInt e ++ rest)) := by
        simp
      rw [point]
      exact lexUnsigned?_of_parts (lexWhole?_digits first (fun _ => rfl) (stops_cons (by decide)))
        (lexFraction?_cons fraction several stops) exponent
  · have digits := Numeral.natural?_of_digits all (List.cons_ne_nil c ds)
    have others : (if ds = [] then none else some ds).getD [] = ds := by
      split
      · rename_i none
        exact none.symm
      · rfl
    have power : (if e < 0 then -(e.natAbs : Int) else e.natAbs) = e := by omega
    simp only [decimal?, others, List.singleton_append, digits, Numeral.natural?_ofNat,
      Option.map_some, decide_eq_true_eq, power, Option.bind_eq_bind, Option.bind_some,
      Option.pure_def]

/-- Digits laid out with an exponent. -/
theorem exists_spells_scientific (layout : Layout) (negative : Bool) (positive : 0 < n) :
    ∃ d s, Spells negative (layout.scientific (Text.ofNat n) top) d s ∧ d.digits ≠ 0 ∧
      d.value = n * 10 ^ (top + 1 - (Text.ofNat n).length) := by
  have value := Numeral.digitsValue_ofNat n
  obtain ⟨c, t, digits, lead, all⟩ := exists_digits positive
  rw [digits] at value ⊢
  have marked : (if 0 ≤ top ∧ layout.signedExponent = true then ['e', '+'] else ['e']) = ['e'] ∨
      0 ≤ top ∧
        (if 0 ≤ top ∧ layout.signedExponent = true then ['e', '+'] else ['e']) = ['e', '+'] := by
    split
    · rename_i signed
      exact Or.inr ⟨signed.1, rfl⟩
    · exact Or.inl rfl
  obtain ⟨s, spelled⟩ := spells_exponent negative all marked
  have exponent : top - (t.length : Int) = top + 1 - (c :: t).length := by
    rw [List.length_cons]
    omega
  have text : layout.scientific (c :: t) top = [c] ++ (if t = [] then [] else '.' :: t) ++
      ((if 0 ≤ top ∧ layout.signedExponent = true then ['e', '+'] else ['e']) ++
        Text.ofInt top) := by
    cases t with
    | nil => simp [Layout.scientific]
    | cons d t => simp [Layout.scientific]
  rw [value, exponent, ← text] at spelled
  exact ⟨_, s, spelled, positive.ne', rfl⟩

end Layout

/-- The text of a positive double denotes a decimal that reads as the double. -/
theorem exists_spells_write (layout : Layout) (negative : Bool) {m : Nat} {e : Int}
    (positive : 0 < m) (small : m < 2 ^ 53) :
    ∃ t d s, layout.write (.finite negative m e) = (if negative then ['-'] else []) ++ t ∧
      Spells negative t d s ∧ Decimal.ReadsAs m e d := by
  have shortest : Decimal.ReadsAs m e (Decimal.shortest layout.tie m e) :=
    Decimal.readsAs_shortest positive small
  have digits := Nat.pos_of_ne_zero shortest.nonzero
  rw [Layout.write]
  dsimp only
  rw [if_neg positive.ne']
  generalize Decimal.shortest layout.tie m e = d at shortest digits
  have place : d.exponent + (Text.ofNat d.digits).length - 1 + 1 - (Text.ofNat d.digits).length =
      d.exponent := by
    omega
  split
  · obtain ⟨d', s, spelled, nonzero, value⟩ := exists_spells_plain
      (d.exponent + (Text.ofNat d.digits).length - 1) negative digits
    rw [place] at value
    exact ⟨_, d', s, rfl, spelled, shortest.of_value_eq nonzero value⟩
  · obtain ⟨d', s, spelled, nonzero, value⟩ := exists_spells_scientific
      (d.exponent + (Text.ofNat d.digits).length - 1) layout negative digits
    rw [place] at value
    exact ⟨_, d', s, rfl, spelled, shortest.of_value_eq nonzero value⟩

/-- No sign is mistaken for a digit. -/
theorem lex?_of_lexUnsigned? {t : Text} {r : Spelling × Text}
    (h : lexUnsigned? false t = some r) : lex? t = some r := by
  cases t with
  | nil => exact h
  | cons c t =>
    by_cases minus : c = '-'
    · subst minus
      have none : lexUnsigned? false ('-' :: t) = none := rfl
      rw [none] at h
      cases h
    · rw [lex?]
      · exact h
      · intro rest same
        exact minus (List.cons.inj same).1

theorem readNearest?_of_spells {negative : Bool} {t : Text} {d : Decimal} {s : Spelling}
    (h : Spells negative t d s) {rest : Text} (ends : Ends rest) :
    readNearest? ((if negative then ['-'] else []) ++ t ++ rest) =
      some (.binary (Binary64.ofDecimal negative d.digits d.exponent), rest) := by
  have lexed : lex? ((if negative then ['-'] else []) ++ t ++ rest) = some (s, rest) := by
    cases negative with
    | true => exact h.lexed rest ends
    | false => exact lex?_of_lexUnsigned? (h.lexed rest ends)
  have read : s.nearest? = some (.binary (Binary64.ofDecimal negative d.digits d.exponent)) := by
    rw [nearest?, if_neg h.marked, h.decimal, Option.map_some, h.negative_eq]
  simp only [readNearest?, lexed, read, Option.bind_eq_bind, Option.bind_some, Option.pure_def]

/-- A number starts with a digit or a minus sign. -/
theorem exists_of_readNearest? {t rest : Text} {n : Number}
    (h : readNearest? t = some (n, rest)) :
    ∃ c u, t = c :: u ∧ (c = '-' ∨ Text.isAsciiDigit c = true) := by
  simp only [readNearest?, Option.bind_eq_bind, Option.bind_eq_some_iff] at h
  obtain ⟨⟨s, rest'⟩, lexed, -⟩ := h
  cases t with
  | nil => cases lexed
  | cons c u =>
    refine ⟨c, u, rfl, or_iff_not_imp_left.2 fun minus => ?_⟩
    by_contra other
    have zero : c ≠ '0' := by
      rintro rfl
      exact other (by decide)
    have none : lexWhole? (c :: u) = none := by
      rw [lexWhole?]
      · rw [digits, List.takeWhile_cons_of_neg other]
        exact if_pos rfl
      · intro more same
        exact zero (List.cons.inj same).1
    rw [lex?] at lexed
    · rw [lexUnsigned?, none] at lexed
      cases lexed
    · intro more same
      exact minus (List.cons.inj same).1

/-- A double is read back from its text. -/
theorem readNearest?_write_binary (layout : Layout) {b : Binary64} (proper : b.Proper)
    {rest : Text} (ends : Ends rest) :
    readNearest? (layout.write b ++ rest) = some (.binary b, rest) := by
  cases b with
  | finite negative m e =>
    rcases Nat.eq_zero_or_pos m with rfl | positive
    · obtain rfl : e = Binary64.minExponent := proper.full.resolve_left (by decide)
      have zero : ∀ d ∈ ['0'], Text.isAsciiDigit d = true := List.forall_mem_singleton.2 rfl
      have spelled := spells_point negative zero (fun _ => rfl) zero (List.cons_ne_nil _ _)
      exact readNearest?_of_spells spelled ends
    · obtain ⟨t, d, s, written, spelled, reads⟩ :=
        exists_spells_write layout negative (e := e) positive proper.small
      rw [written, readNearest?_of_spells spelled ends,
        Binary64.ofDecimal_of_readsAs negative proper positive reads]
  | infinite negative => exact proper.elim
  | notANumber => exact proper.elim

theorem readNearest?_write_integer (i : Int) {rest : Text} (ends : Ends rest) :
    readNearest? (Text.ofInt i ++ rest) = some (.integer i, rest) := by
  have size : (if i < 0 then -(i.natAbs : Int) else i.natAbs) = i := by omega
  simp only [readNearest?, lex?_ofInt i ends, nearest?, and_self, if_true, Numeral.natural?_ofNat,
    Option.map_some, decide_eq_true_eq, size, Option.bind_eq_bind, Option.bind_some,
    Option.pure_def]

end Json.Spelling

namespace Json.Number

/-- Whether a number has one form only: integers do, and doubles that are finite and normal. -/
def Proper : Number → Prop
  | .integer _ => True
  | .binary b => b.Proper

/-- A number is read back from its text. -/
theorem readNearest?_write {n : Number} (proper : n.Proper) {rest : Text}
    (ends : Spelling.Ends rest) : Spelling.readNearest? (n.write ++ rest) = some (n, rest) := by
  cases n with
  | integer i => exact Spelling.readNearest?_write_integer i ends
  | binary b => exact Spelling.readNearest?_write_binary Layout.data proper ends

end Json.Number

end HarnessSynthesis
