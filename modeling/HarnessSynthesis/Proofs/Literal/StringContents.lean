/-
# The contents of string literals

A string literal denotes the string that it was made from. `decode?` reads the contents of a literal
by the rules of its language: in TypeScript and Python the escapes are those of JSON, in Java and
C++ they are single letters and octal codes, where a code takes as many digits as stand there, three
at most. Codes are written with three digits, so no digit behind one is taken for a part of it.

That a literal ends where it should is a matter of its backslashes. Those in front of a character
pair off from the left, and the character belongs to an escape exactly when their number is odd.
-/

import Mathlib.Algebra.Ring.Parity
import HarnessSynthesis.Literal
import HarnessSynthesis.Proofs.Json.StringText
import HarnessSynthesis.Proofs.Text.Utf8

namespace HarnessSynthesis.Literal

open Json
open Text (utf8 IsAscii)

/-! ## Decoding -/

/-- The character of an escape with one letter in Java and C++. -/
def simpleEscape? (l : Language) : Char → Option Char
  | '"' => some '"'
  | '\\' => some '\\'
  | 'n' => some '\n'
  | 'r' => some '\r'
  | 't' => some '\t'
  | '?' => if l = .cpp then some '?' else none
  | _ => none

/-- The value of an octal digit. -/
def octalValue? (c : Char) : Option Nat :=
  if '0' ≤ c ∧ c ≤ '7' then some (c.toNat - 48) else none

/-- A code carried on through the octal digits ahead, as many as are allowed, and the text behind
them. -/
def readOctal : (most : Nat) → (code : Nat) → Text → Nat × Text
  | 0, code, t => (code, t)
  | _ + 1, code, [] => (code, [])
  | most + 1, code, c :: t =>
    match octalValue? c with
    | some d => readOctal most (code * 8 + d) t
    | none => (code, c :: t)

/-- What an escape denotes and the text behind it, read from behind its backslash. -/
def readEscape? (l : Language) : Text → Option (Char × Text)
  | [] => none
  | c :: t =>
    match simpleEscape? l c with
    | some d => some (d, t)
    | none => (octalValue? c).map fun d =>
      let (code, rest) := readOctal 2 d t
      (Char.ofNat code, rest)

theorem length_readOctal_le (most code : Nat) (t : Text) :
    (readOctal most code t).2.length ≤ t.length := by
  induction most generalizing code t with
  | zero => exact Nat.le_refl _
  | succ most ih =>
    cases t with
    | nil => exact Nat.le_refl _
    | cons c t =>
      rw [readOctal]
      split
      · exact Nat.le_succ_of_le (ih _ t)
      · exact Nat.le_refl _

theorem length_lt_of_readEscape? {l : Language} {t rest : Text} {c : Char}
    (h : readEscape? l t = some (c, rest)) : rest.length < t.length := by
  cases t with
  | nil => cases h
  | cons d t =>
    rw [readEscape?] at h
    split at h
    · cases h
      exact Nat.lt_succ_self _
    · obtain ⟨code, -, read⟩ := Option.map_eq_some_iff.1 h
      cases read
      exact Nat.lt_succ_of_le (length_readOctal_le 2 code t)

/-- What the contents of a literal of Java or C++ denote, if they end nowhere before. -/
def decodeNative? (l : Language) (contents : Text) : Option Text :=
  match contents with
  | [] => some []
  | c :: t =>
    if c = '"' then none
    else if c = '\\' then
      match _ : readEscape? l t with
      | some (d, rest) => (decodeNative? l rest).map (d :: ·)
      | none => none
    else (decodeNative? l t).map (c :: ·)
  termination_by contents.length
  decreasing_by
    · exact Nat.lt_succ_of_lt (length_lt_of_readEscape? ‹_›)
    · exact Nat.lt_succ_self _

/-- What the contents of a literal denote. -/
def decode? (l : Language) (contents : Text) : Option Text :=
  if l.isCFamily then decodeNative? l contents
  else match Node.readString? (contents ++ ['"']) with
    | some (some s, []) => some s
    | _ => none

theorem decodeNative?_nil (l : Language) : decodeNative? l [] = some [] := by
  rw [decodeNative?]

theorem decodeNative?_cons (l : Language) {c : Char} (noQuote : c ≠ '"') (noBackslash : c ≠ '\\')
    (t : Text) : decodeNative? l (c :: t) = (decodeNative? l t).map (c :: ·) := by
  rw [decodeNative?, if_neg noQuote, if_neg noBackslash]

theorem decodeNative?_escape {l : Language} {t rest : Text} {c : Char}
    (h : readEscape? l t = some (c, rest)) :
    decodeNative? l ('\\' :: t) = (decodeNative? l rest).map (c :: ·) := by
  rw [decodeNative?, if_neg (by decide), if_pos rfl]
  split
  · rename_i read
    rw [h] at read
    cases read
    rfl
  · rename_i read
    rw [h] at read
    cases read

/-! ## Octal codes -/

/-- An octal digit. -/
def octalDigit (d : Nat) : Char :=
  Char.ofNat (48 + d)

theorem octalValue?_octalDigit {d : Nat} (h : d < 8) : octalValue? (octalDigit d) = some d := by
  have all : ∀ d < 8, octalValue? (octalDigit d) = some d := by decide
  exact all d h

theorem simpleEscape?_octalDigit (l : Language) {d : Nat} (h : d < 8) :
    simpleEscape? l (octalDigit d) = none := by
  have all : ∀ l ∈ Language.all, ∀ d < 8, simpleEscape? l (octalDigit d) = none := by decide
  exact all l l.mem_all d h

/-- Filled up with zeros, a code has three digits. -/
theorem replicate_append_octal {n : Nat} (h : n < 8 * 8 * 8) :
    List.replicate (3 - (octal n).length) '0' ++ octal n =
      [octalDigit (n / 8 / 8), octalDigit (n / 8 % 8), octalDigit (n % 8)] := by
  by_cases one : n < 8
  · have digits : octal n = [octalDigit n] := by rw [octal, if_pos one]; rfl
    rw [digits, Nat.div_eq_of_lt one, Nat.mod_eq_of_lt one]
    rfl
  · by_cases two : n / 8 < 8
    · have digits : octal n = [octalDigit (n / 8), octalDigit (n % 8)] := by
        rw [octal, if_neg one, octal, if_pos two]
        rfl
      rw [digits, Nat.div_eq_of_lt two, Nat.mod_eq_of_lt two]
      rfl
    · have three : n / 8 / 8 < 8 := by omega
      have digits :
          octal n = [octalDigit (n / 8 / 8), octalDigit (n / 8 % 8), octalDigit (n % 8)] := by
        rw [octal, if_neg one, octal, if_neg two, octal, if_pos three]
        rfl
      rw [digits]
      rfl

/-- Three digits are read as one code whatever stands behind them. -/
theorem readEscape?_octal (l : Language) {n : Nat} (h : n < 8 * 8 * 8) (t : Text) :
    readEscape? l (octalDigit (n / 8 / 8) :: octalDigit (n / 8 % 8) :: octalDigit (n % 8) :: t) =
      some (Char.ofNat n, t) := by
  have high : n / 8 / 8 < 8 := by omega
  have code : (n / 8 / 8 * 8 + n / 8 % 8) * 8 + n % 8 = n := by omega
  rw [readEscape?, simpleEscape?_octalDigit l high, octalValue?_octalDigit high]
  simp only [readOctal, octalValue?_octalDigit (Nat.mod_lt _ (by decide : 8 > 0)), code,
    Option.map_some]

/-! ## Encoding -/

/-- The three ways to write a character in a literal of Java or C++: behind a backslash as the
letter that stands for it, behind a backslash by its code in three digits, or as itself. -/
theorem escapeNative_cases (l : Language) (c : Char) :
    (∃ letter, simpleEscape? l letter = some c ∧ escapeNative l c = ['\\', letter]) ∨
      (c.toNat < 8 * 8 * 8 ∧ escapeNative l c = ['\\', octalDigit (c.toNat / 8 / 8),
        octalDigit (c.toNat / 8 % 8), octalDigit (c.toNat % 8)]) ∨
      (c ≠ '"' ∧ c ≠ '\\' ∧ 0x20 ≤ c.toNat ∧ escapeNative l c = [c]) := by
  by_cases special : c = '"' ∨ c = '\\' ∨ c = '\n' ∨ c = '\r' ∨ c = '\t'
  · left
    rcases special with rfl | rfl | rfl | rfl | rfl <;> exact ⟨_, rfl, rfl⟩
  · simp only [not_or] at special
    obtain ⟨quote, backslash, feed, carriage, tab⟩ := special
    rw [escapeNative, if_neg quote, if_neg backslash, if_neg feed, if_neg carriage, if_neg tab]
    by_cases question : c = '?' ∧ l = .cpp
    · obtain ⟨rfl, rfl⟩ := question
      exact Or.inl ⟨_, rfl, rfl⟩
    · right
      rw [if_neg question]
      by_cases control : isControl c = true
      · have small : c.toNat < 8 * 8 * 8 := by
          simp only [isControl, Bool.or_eq_true, decide_eq_true_eq, beq_iff_eq] at control
          omega
        rw [if_pos control, List.cons_append, replicate_append_octal small]
        exact Or.inl ⟨small, rfl⟩
      · have printable : 0x20 ≤ c.toNat := by
          simp only [isControl, Bool.or_eq_true, decide_eq_true_eq, beq_iff_eq] at control
          omega
        rw [if_neg control]
        exact Or.inr ⟨quote, backslash, printable, rfl⟩

/-- Every character is read back from the way in which it is written, whatever stands behind. -/
theorem decodeNative?_escapeNative (l : Language) (c : Char) (t : Text) :
    decodeNative? l (escapeNative l c ++ t) = (decodeNative? l t).map (c :: ·) := by
  rcases escapeNative_cases l c with ⟨letter, known, written⟩ | ⟨small, written⟩ |
    ⟨quote, backslash, -, written⟩
  · have read : readEscape? l (letter :: t) = some (c, t) := by rw [readEscape?, known]
    rw [written]
    exact decodeNative?_escape read
  · have read := readEscape?_octal l small t
    rw [Char.ofNat_toNat] at read
    rw [written]
    exact decodeNative?_escape read
  · rw [written]
    exact decodeNative?_cons l quote backslash t

theorem decodeNative?_flatMap_escapeNative (l : Language) (s : Text) :
    decodeNative? l (s.flatMap (escapeNative l)) = some s := by
  induction s with
  | nil => exact decodeNative?_nil l
  | cons c s ih =>
    rw [List.flatMap_cons, decodeNative?_escapeNative, ih]
    rfl

/-! ## Quotes and backslashes -/

/-- Contents of plain characters and of escapes, which begin with a backslash and one of some
letters. -/
inductive Contents (letters : Char → Prop) : Text → Prop where
  | nil : Contents letters []
  | plain {c : Char} {t : Text} (printable : 0x20 ≤ c.toNat) (noQuote : c ≠ '"')
      (noBackslash : c ≠ '\\') (rest : Contents letters t) : Contents letters (c :: t)
  | escape {x : Char} {t : Text} (printable : 0x20 ≤ x.toNat) (letter : letters x)
      (rest : Contents letters t) : Contents letters ('\\' :: x :: t)

/-- How many backslashes a text ends with. -/
def closingBackslashes (t : Text) : Nat :=
  (t.reverse.takeWhile (· == '\\')).length

theorem closingBackslashes_cons {c : Char} (plain : c ≠ '\\') (t : Text) :
    closingBackslashes (c :: t) = closingBackslashes t := by
  rw [closingBackslashes, List.reverse_cons, List.takeWhile_append]
  split
  · rename_i all
    have none : [c].takeWhile (· == '\\') = [] := by
      rw [List.takeWhile_cons_of_neg (by simpa using plain)]
    rw [none, List.append_nil, closingBackslashes, all]
  · rfl

/-- An escape in front of a text takes two backslashes with it or none. -/
theorem even_closingBackslashes_escape (x : Char) (t : Text) :
    Even (closingBackslashes ('\\' :: x :: t)) ↔ Even (closingBackslashes t) := by
  have pair : Even ([x, '\\'].takeWhile (· == '\\')).length := by
    by_cases double : x = '\\'
    · subst double
      decide
    · rw [List.takeWhile_cons_of_neg (by simpa using double)]
      decide
  unfold closingBackslashes
  rw [List.reverse_cons, List.reverse_cons, List.append_assoc, List.takeWhile_append]
  split
  · rename_i all
    rw [all, List.length_append, Nat.even_add]
    exact iff_true_right pair
  · rfl

/-- Behind an even number of backslashes no quote stands, and a backslash begins an escape. -/
theorem Contents.of_even {letters : Char → Prop} {t before after : Text} {c : Char}
    (contents : Contents letters t) (split : t = before ++ c :: after)
    (even : Even (closingBackslashes before)) :
    c ≠ '"' ∧ (c = '\\' → ∃ x rest, after = x :: rest ∧ letters x) := by
  induction contents generalizing before with
  | nil => cases before <;> cases split
  | @plain d t printable noQuote noBackslash rest ih =>
    cases before with
    | nil =>
      cases split
      exact ⟨noQuote, fun backslash => absurd backslash noBackslash⟩
    | cons e before =>
      obtain ⟨rfl, behind⟩ := List.cons.inj split
      rw [closingBackslashes_cons noBackslash] at even
      exact ih behind even
  | @escape x t printable letter rest ih =>
    match before with
    | [] =>
      cases split
      exact ⟨by decide, fun _ => ⟨x, t, rfl, letter⟩⟩
    | [e] =>
      obtain ⟨rfl, -⟩ := List.cons.inj split
      exact absurd even (by decide)
    | e :: e' :: before =>
      cases split
      rw [even_closingBackslashes_escape] at even
      exact ih rfl even

theorem Contents.append {letters : Char → Prop} {s t : Text} (hs : Contents letters s)
    (ht : Contents letters t) : Contents letters (s ++ t) := by
  induction hs with
  | nil => exact ht
  | plain printable noQuote noBackslash _ ih => exact .plain printable noQuote noBackslash ih
  | escape printable letter _ ih => exact .escape printable letter ih

theorem Contents.flatMap {letters : Char → Prop} {f : Char → Text}
    (each : ∀ c, Contents letters (f c)) (s : Text) : Contents letters (s.flatMap f) := by
  induction s with
  | nil => exact .nil
  | cons c s ih => exact (each c).append ih

theorem Contents.printable {letters : Char → Prop} {t : Text} (contents : Contents letters t) :
    ∀ c ∈ t, 0x20 ≤ c.toNat := by
  induction contents with
  | nil => exact List.forall_mem_nil _
  | plain printable _ _ _ ih => exact List.forall_mem_cons.2 ⟨printable, ih⟩
  | escape printable _ _ ih =>
    exact List.forall_mem_cons.2 ⟨by decide, List.forall_mem_cons.2 ⟨printable, ih⟩⟩

/-- Contents hold no octet of a control character. -/
theorem Contents.le_of_mem_utf8 {letters : Char → Prop} {t : Text} (contents : Contents letters t)
    {o : UInt8} (mem : o ∈ utf8 t) : 0x20 ≤ o.toNat := by
  obtain ⟨c, inside, octet⟩ := List.mem_flatMap.1 mem
  by_cases ascii : IsAscii c
  · rw [Text.utf8EncodeChar_of_isAscii ascii, List.mem_singleton] at octet
    rw [octet, Text.toNat_toUInt8 ascii]
    exact contents.printable c inside
  · exact Nat.le_trans (by decide) (Text.le_of_mem_utf8EncodeChar ascii octet)

/-! ## Literals -/

/-- The letters behind backslashes: the one that begins a Unicode escape is none in Java and C++. -/
def Letter (l : Language) (x : Char) : Prop :=
  l.isCFamily = true → x ≠ 'u'

theorem le_and_ne_of_simpleEscape? {l : Language} {x c : Char} (h : simpleEscape? l x = some c) :
    0x20 ≤ x.toNat ∧ x ≠ 'u' := by
  unfold simpleEscape? at h
  split at h <;> first | decide | cases h

theorem contents_escapeNative {l : Language} (c : Char) :
    Contents (Letter l) (escapeNative l c) := by
  have digit : ∀ d < 8, 0x20 ≤ (octalDigit d).toNat ∧ octalDigit d ≠ '"' ∧
      octalDigit d ≠ '\\' ∧ octalDigit d ≠ 'u' := by decide
  rcases escapeNative_cases l c with ⟨letter, known, written⟩ | ⟨small, written⟩ |
    ⟨quote, backslash, printable, written⟩
  · obtain ⟨printable, other⟩ := le_and_ne_of_simpleEscape? known
    rw [written]
    exact .escape printable (fun _ => other) .nil
  · obtain ⟨printable, -, -, other⟩ := digit (c.toNat / 8 / 8) (by omega)
    obtain ⟨printable', quote', backslash', -⟩ := digit (c.toNat / 8 % 8) (by omega)
    obtain ⟨printable'', quote'', backslash'', -⟩ := digit (c.toNat % 8) (by omega)
    rw [written]
    exact .escape printable (fun _ => other) <| .plain printable' quote' backslash' <|
      .plain printable'' quote'' backslash'' .nil
  · rw [written]
    exact .plain printable quote backslash .nil

theorem le_of_jsonEscape? {x c : Char} (h : Node.simpleEscape? x = some c) : 0x20 ≤ x.toNat := by
  unfold Node.simpleEscape? at h
  split at h <;> first | decide | cases h

theorem contents_escape {l : Language} (other : l.isCFamily = false) (c : Char) :
    Contents (Letter l) (Node.escape c) := by
  have letter (x : Char) : Letter l x := fun native => by
    rw [other] at native
    cases native
  have digit : ∀ d < 16, 0x20 ≤ (Node.hexDigit d).toNat ∧ Node.hexDigit d ≠ '"' ∧
      Node.hexDigit d ≠ '\\' := by decide
  rcases Node.escape_cases c with ⟨x, known, written⟩ | ⟨control, written⟩ |
    ⟨quote, backslash, printable, written⟩
  · rw [written]
    exact .escape (le_of_jsonEscape? known) (letter x) .nil
  · obtain ⟨printable, quote, backslash⟩ := digit (c.toNat / 16) (by omega)
    obtain ⟨printable', quote', backslash'⟩ := digit (c.toNat % 16) (by omega)
    have zero : Contents (Letter l) ['0'] := .plain (by decide) (by decide) (by decide) .nil
    have code : Contents (Letter l) [Node.hexDigit (c.toNat / 16), Node.hexDigit (c.toNat % 16)] :=
      .plain printable quote backslash (.plain printable' quote' backslash' .nil)
    rw [written]
    exact .escape (by decide) (letter 'u') (zero.append (zero.append code))
  · rw [written]
    exact .plain printable quote backslash .nil

/-- What the contents of a literal are to the string that it denotes. -/
structure Denotes (l : Language) (contents s : Text) : Prop where
  decoded : decode? l contents = some s
  printable (o : UInt8) (mem : o ∈ utf8 contents) : 0x20 ≤ o.toNat
  /-- Every quote is escaped. -/
  quotes (before after : Text) (split : contents = before ++ '"' :: after) :
    Odd (closingBackslashes before)
  /-- In Java no backslash begins a Unicode escape. -/
  noUnicode (java : l = .java) (before after : Text) (split : contents = before ++ '\\' :: after)
    (even : Even (closingBackslashes before)) : after.head? ≠ some 'u'

theorem Contents.denotes {l : Language} {contents s : Text}
    (sound : Contents (Letter l) contents) (decoded : decode? l contents = some s) :
    Denotes l contents s := by
  refine ⟨decoded, fun o mem => sound.le_of_mem_utf8 mem, ?_, ?_⟩
  · intro before after split
    rw [← Nat.not_even_iff_odd]
    intro even
    exact (sound.of_even split even).1 rfl
  · intro java before after split even unicode
    obtain ⟨x, rest, rfl, letter⟩ := (sound.of_even split even).2 rfl
    have native : l.isCFamily = true := by rw [java]; rfl
    exact letter native (Option.some.inj unicode)

/-- A literal is a pair of quotes around contents that denote its string. -/
theorem exists_denotes (l : Language) (s : Text) :
    ∃ contents, Literal.string l s = '"' :: contents ++ ['"'] ∧ Denotes l contents s := by
  cases native : l.isCFamily with
  | true =>
    refine ⟨s.flatMap (escapeNative l), by rw [Literal.string, if_pos native], ?_⟩
    refine (Contents.flatMap contents_escapeNative s).denotes ?_
    rw [decode?, if_pos native, decodeNative?_flatMap_escapeNative]
  | false =>
    have json : ¬ l.isCFamily = true := by rw [native]; decide
    refine ⟨s.flatMap Node.escape, by rw [Literal.string, if_neg json, Node.quote], ?_⟩
    refine (Contents.flatMap (contents_escape native) s).denotes ?_
    rw [decode?, if_neg json, Node.readString?_flatMap_escape]

-- the digit behind the code is a character of its own
example : Literal.string .java ['\x01', '7', '"'] = "\"\\0017\\\"\"" := by cbv

example : decode? .java "\\0017\\\"" = some ['\x01', '7', '"'] := by cbv

end HarnessSynthesis.Literal
