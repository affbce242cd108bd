/-
# Strings in JSON texts

A quoted string is read back whatever it holds: every character is written so that it is read as
itself, and the first quote that no backslash precedes is the closing one.
-/

import HarnessSynthesis.Json.Reader

namespace HarnessSynthesis.Json.Node

theorem quote_append (s rest : Text) :
    quote s ++ rest = '"' :: (s.flatMap escape ++ '"' :: rest) := by
  rw [quote, List.append_assoc, List.cons_append, List.singleton_append]

theorem length_quote (s : Text) : (quote s).length = (s.flatMap escape).length + 2 := by
  rw [quote, List.length_append, List.length_cons, List.length_singleton]

/-- The three ways to write a character in a string: behind a backslash as the letter that stands
for it, behind a backslash by its code, or as itself. -/
theorem escape_cases (c : Char) :
    (∃ letter, simpleEscape? letter = some c ∧ escape c = ['\\', letter]) ∨
      (c.toNat < 0x20 ∧
        escape c = ['\\', 'u', '0', '0', hexDigit (c.toNat / 16), hexDigit (c.toNat % 16)]) ∨
      (c ≠ '"' ∧ c ≠ '\\' ∧ 0x20 ≤ c.toNat ∧ escape c = [c]) := by
  by_cases special : c = '"' ∨ c = '\\' ∨ c = '\x08' ∨ c = '\t' ∨ c = '\n' ∨ c = '\x0c' ∨ c = '\r'
  · left
    rcases special with rfl | rfl | rfl | rfl | rfl | rfl | rfl <;> exact ⟨_, rfl, rfl⟩
  · right
    simp only [not_or] at special
    obtain ⟨quote, backslash, backspace, tab, feed, page, carriage⟩ := special
    rw [escape, if_neg quote, if_neg backslash, if_neg backspace, if_neg tab, if_neg feed,
      if_neg page, if_neg carriage]
    by_cases control : c.toNat < 0x20
    · rw [if_pos control]
      exact Or.inl ⟨control, rfl⟩
    · rw [if_neg control]
      exact Or.inr ⟨quote, backslash, Nat.le_of_not_lt control, rfl⟩

/-! ## Reading escapes -/

theorem hexValue?_hexDigit {d : Nat} (h : d < 16) : hexValue? (hexDigit d) = some d := by
  have all : ∀ d < 16, hexValue? (hexDigit d) = some d := by decide
  exact all d h

/-- A control character is read back from its code. -/
theorem hexUnit?_control {c : Char} (control : c.toNat < 0x20) :
    hexUnit? '0' '0' (hexDigit (c.toNat / 16)) (hexDigit (c.toNat % 16)) = some c.toNat := by
  have high := hexValue?_hexDigit (d := c.toNat / 16) (by omega)
  have low := hexValue?_hexDigit (d := c.toNat % 16) (by omega)
  have zero : hexValue? '0' = some 0 := by decide
  have whole : ((0 * 16 + 0) * 16 + c.toNat / 16) * 16 + c.toNat % 16 = c.toNat := by omega
  simp only [hexUnit?, zero, high, low, Option.pure_def, Option.bind_eq_bind, Option.bind_some,
    whole]

theorem unit16_ofCode_control {c : Char} (control : c.toNat < 0x20) :
    Unit16.ofCode c.toNat = .char c := by
  rw [Unit16.ofCode, if_neg (by omega), if_neg (by omega), Char.ofNat_toNat]

/-- Every character is read back from the way in which it is written. -/
theorem lexString?_escape (c : Char) (t : Text) :
    lexString? (escape c ++ t) =
      (lexString? t).map fun (units, rest) => (.char c :: units, rest) := by
  have bind_eq_map (o : Option (List Unit16 × Text)) :
      (o.bind fun (units, rest) => some (Unit16.char c :: units, rest)) =
        o.map fun (units, rest) => (.char c :: units, rest) := by
    cases o <;> rfl
  rcases escape_cases c with ⟨letter, known, written⟩ | ⟨control, written⟩ |
    ⟨quote, backslash, printable, written⟩
  · have uncoded : letter ≠ 'u' := by
      rintro rfl
      cases known
    rw [written, List.cons_append, List.singleton_append, lexString?]
    · simp only [known, Option.pure_def, Option.bind_eq_bind, Option.bind_some]
      exact bind_eq_map _
    · intro _ _ _ _ _ same
      exact absurd same uncoded
  · rw [written]
    simp only [List.cons_append, List.nil_append, lexString?, hexUnit?_control control,
      unit16_ofCode_control control, Option.pure_def, Option.bind_eq_bind, Option.bind_some]
    exact bind_eq_map _
  · have plain : ¬ (c.toNat < 0x20 ∨ c = '\\') := not_or.2 ⟨Nat.not_lt.2 printable, backslash⟩
    rw [written, List.singleton_append, lexString?]
    · simp only [Bool.or_eq_true, decide_eq_true_eq, beq_iff_eq, plain, if_false]
      exact bind_eq_map _
    · exact quote
    · intro _ _ _ _ _ same
      exact absurd same backslash
    · intro _ _ same
      exact absurd same backslash

/-- The contents of a quoted string are its characters, and behind them stands what stood behind
the closing quote. -/
theorem lexString?_flatMap_escape (s t : Text) :
    lexString? (s.flatMap escape ++ '"' :: t) = some (s.map .char, t) := by
  induction s with
  | nil => rfl
  | cons c s ih =>
    rw [List.flatMap_cons, List.append_assoc, lexString?_escape, ih]
    rfl

theorem joinUnits?_map_char (s : Text) : joinUnits? (s.map .char) = some s := by
  induction s with
  | nil => rfl
  | cons c s ih => rw [List.map_cons, joinUnits?, ih]; rfl

theorem readString?_flatMap_escape (s t : Text) :
    readString? (s.flatMap escape ++ '"' :: t) = some (some s, t) := by
  simp only [readString?, lexString?_flatMap_escape, Option.map_some, joinUnits?_map_char]

/-- Quoted strings are told apart by what they begin with. -/
theorem eq_of_quote_append {s s' t t' : Text} (h : quote s ++ t = quote s' ++ t') :
    s = s' ∧ t = t' := by
  rw [quote_append, quote_append] at h
  have read := congrArg readString? (List.cons.inj h).2
  rw [readString?_flatMap_escape, readString?_flatMap_escape] at read
  cases read
  exact ⟨rfl, rfl⟩

end HarnessSynthesis.Json.Node
