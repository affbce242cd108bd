/-
# Reading plain data back

TypeScript and Python take plain data as it is. What is written of a value without structures is a
text of JSON's grammar with the words of the language, so a reader of that grammar gives the value
back, and values with the same literal are the same. The induction is on the value; a text behind
the literal may follow, as long as it does not go on a number.
-/

import HarnessSynthesis.Literal
import HarnessSynthesis.Proofs.Json.Keywords
import HarnessSynthesis.Proofs.Text.Joined

namespace HarnessSynthesis

/-- The words for null and the truth values in plain data of a language. -/
def Language.keywords (l : Language) : Json.Keywords :=
  if l = .python then .python else .json

namespace Json.Keywords

open Node (skipSpace isSpace)

variable {k : Keywords}

/-! ## Starts of texts -/

theorem readFrom_of_scalar {fuel : Nat} {c : Char} {rest t : Text} (found : skipSpace t = c :: rest)
    (noString : c ≠ '"') (noArray : c ≠ '[') (noObject : c ≠ '{') :
    k.readFrom (fuel + 1) t = k.readScalar (c :: rest) := by
  rw [readFrom, found]
  split
  · exact absurd (List.cons.inj ‹_›).1 noString
  · exact absurd (List.cons.inj ‹_›).1 noArray
  · exact absurd (List.cons.inj ‹_›).1 noObject
  · rfl

theorem skipSpace_cons_space (t : Text) : skipSpace (' ' :: t) = skipSpace t := rfl

/-- A blank in front of a document is passed over. -/
theorem readFrom_cons_space (fuel : Nat) (t : Text) :
    k.readFrom fuel (' ' :: t) = k.readFrom fuel t := by
  cases fuel with
  | zero => rfl
  | succ fuel => rw [readFrom, readFrom, skipSpace_cons_space]

theorem readItems_cons_space (fuel : Nat) (t : Text) :
    k.readItems fuel (' ' :: t) = k.readItems fuel t := by
  cases fuel with
  | zero => rfl
  | succ fuel => rw [readItems, readItems, readFrom_cons_space]

theorem readMembers_cons_space (fuel : Nat) (t : Text) :
    k.readMembers fuel (' ' :: t) = k.readMembers fuel t := by
  cases fuel with
  | zero => rfl
  | succ fuel => rw [readMembers, readMembers, skipSpace_cons_space]

/-! ## The words of a language -/

variable {l : Language}

theorem keywords_cases (l : Language) : l.keywords = .json ∨ l.keywords = .python := by
  rw [Language.keywords]
  split
  · exact Or.inr rfl
  · exact Or.inl rfl

theorem readFrom_null (fuel : Nat) (rest : Text) :
    l.keywords.readFrom (fuel + 1) (l.keywords.null ++ rest) = (.null, rest) := by
  rcases keywords_cases l with words | words <;> rw [words] <;> rfl

theorem readFrom_bool (b : Bool) (fuel : Nat) (rest : Text) :
    l.keywords.readFrom (fuel + 1) ((if b then l.keywords.yes else l.keywords.no) ++ rest) =
      (.bool b, rest) := by
  rcases keywords_cases l with words | words <;> rw [words] <;> cases b <;> rfl

/-- What starts with a digit or a minus sign is none of the words. -/
theorem readScalar_of_digit {c : Char} (h : c = '-' ∨ Text.isAsciiDigit c = true) (t : Text) :
    l.keywords.readScalar (c :: t) = Node.readNumber (c :: t) := by
  have noWord (d : Char) (ds : Text) (letter : d ≠ '-' ∧ Text.isAsciiDigit d = false) :
      Text.afterPrefix? (d :: ds) (c :: t) = none := by
    rw [Text.afterPrefix?, if_neg (Node.ne_of_digit h letter).symm]
  rcases keywords_cases l with words | words
  · have null : Text.afterPrefix? json.null (c :: t) = none := noWord 'n' _ (by decide)
    have yes : Text.afterPrefix? json.yes (c :: t) = none := noWord 't' _ (by decide)
    have no : Text.afterPrefix? json.no (c :: t) = none := noWord 'f' _ (by decide)
    rw [words, readScalar, null, yes, no]
  · have null : Text.afterPrefix? python.null (c :: t) = none := noWord 'N' _ (by decide)
    have yes : Text.afterPrefix? python.yes (c :: t) = none := noWord 'T' _ (by decide)
    have no : Text.afterPrefix? python.no (c :: t) = none := noWord 'F' _ (by decide)
    rw [words, readScalar, null, yes, no]

theorem readFrom_number {n : Number} (word : n.isWord = true) (fuel : Nat) {rest : Text}
    (ends : Spelling.Ends rest) :
    l.keywords.readFrom (fuel + 1) (n.write ++ rest) = (.number (some n), rest) := by
  have read := Node.readNumber_write word ends
  obtain ⟨i, rfl, -⟩ := Number.exists_of_isWord word
  obtain ⟨c, t, digits, digit⟩ := Node.ofInt_eq_cons i
  rw [Number.write, digits, List.cons_append] at read ⊢
  rw [readFrom_of_scalar (Node.skipSpace_cons_of_not_isSpace (Node.not_isSpace_of_digit digit))
    (Node.ne_of_digit digit (by decide)) (Node.ne_of_digit digit (by decide))
    (Node.ne_of_digit digit (by decide)), readScalar_of_digit digit, read]

end Json.Keywords

namespace Literal

open Json

section Data

open Json.Keywords

variable {l : Language}

/-! ## Shapes of plain data -/

theorem data_null : data l .null = l.keywords.null := by
  rw [data, Language.keywords]
  split <;> rfl

theorem data_bool (b : Bool) :
    data l (.bool b) = if b then l.keywords.yes else l.keywords.no := by
  rw [data, Language.keywords]
  split <;> cases b <;> rfl

/-- The text of an integral value starts with a character that is no blank and closes nothing. -/
theorem data_eq_cons {v : Value} (integral : v.isIntegral = true) :
    ∃ c t, data l v = c :: t ∧ Node.isSpace c = false ∧ c ≠ ']' ∧ c ≠ '}' := by
  cases v with
  | null =>
    rw [data_null]
    rcases keywords_cases l with words | words <;> rw [words] <;> exact ⟨_, _, rfl, by decide⟩
  | bool b =>
    rw [data_bool]
    rcases keywords_cases l with words | words <;> rw [words] <;> cases b <;>
      exact ⟨_, _, rfl, by decide⟩
  | number n => exact Node.write_eq_cons (n := .number (some n)) integral
  | string s => exact ⟨'"', _, rfl, by decide⟩
  | array items => exact ⟨'[', _, rfl, by decide⟩
  | object members => exact ⟨'{', _, rfl, by decide⟩

/-- The elements of an array as they stand between its brackets. -/
def items (l : Language) (vs : List Value) : Text :=
  Text.join ", " (dataItems l vs)

/-- The members of an object as they stand between its braces. -/
def members (l : Language) (ms : List (Text × Value)) : Text :=
  Text.join ", " (dataMembers l ms)

/-- What stands behind an element: a comma and the others, or nothing. -/
def furtherItems (l : Language) (vs : List Value) : Text :=
  if vs.isEmpty then [] else ',' :: ' ' :: items l vs

/-- What stands behind a member: a comma and the others, or nothing. -/
def furtherMembers (l : Language) (ms : List (Text × Value)) : Text :=
  if ms.isEmpty then [] else ',' :: ' ' :: members l ms

theorem items_cons (v : Value) (vs : List Value) :
    items l (v :: vs) = data l v ++ furtherItems l vs := by
  cases vs with
  | nil => exact (List.append_nil _).symm
  | cons w vs => exact Text.join_cons_of_ne_nil (List.cons_ne_nil _ _)

theorem members_cons (name : Text) (v : Value) (ms : List (Text × Value)) :
    members l ((name, v) :: ms) =
      Node.quote name ++ ':' :: ' ' :: (data l v ++ furtherMembers l ms) := by
  have head : Node.quote name ++ ": " ++ data l v =
      Node.quote name ++ ':' :: ' ' :: data l v := List.append_assoc _ _ _
  cases ms with
  | nil =>
    rw [furtherMembers, List.isEmpty_nil, if_pos rfl, List.append_nil]
    exact head
  | cons m ms =>
    have others : dataMembers l (m :: ms) ≠ [] := List.cons_ne_nil _ _
    rw [members, dataMembers, Text.join_cons_of_ne_nil others, head, List.append_assoc]
    rfl

theorem ends_furtherItems (vs : List Value) (t : Text) :
    Spelling.Ends (furtherItems l vs ++ ']' :: t) := by
  cases vs with
  | nil => exact Spelling.ends_cons (by decide)
  | cons v vs => exact Spelling.ends_cons (by decide)

theorem ends_furtherMembers (ms : List (Text × Value)) (t : Text) :
    Spelling.Ends (furtherMembers l ms ++ '}' :: t) := by
  cases ms with
  | nil => exact Spelling.ends_cons (by decide)
  | cons m ms => exact Spelling.ends_cons (by decide)

/-! ## Reading back -/

/-- An array is read back when its elements are. -/
theorem readFrom_array {v : Value} {vs : List Value} {fuel : Nat} {rest : Text}
    (integral : v.isIntegral = true)
    (read : l.keywords.readItems fuel (items l (v :: vs) ++ ']' :: rest) =
      (Node.ofItems (v :: vs), rest)) :
    l.keywords.readFrom (fuel + 1) (data l (.array (v :: vs)) ++ rest) =
      (Node.ofValue (.array (v :: vs)), rest) := by
  have opening : data l (.array (v :: vs)) ++ rest = '[' :: (items l (v :: vs) ++ ']' :: rest) := by
    rw [data, items, List.append_assoc, List.append_assoc, List.singleton_append,
      List.singleton_append]
  obtain ⟨c, t, text, nonblank, other, -⟩ := data_eq_cons (l := l) integral
  have start :
      items l (v :: vs) ++ ']' :: rest = c :: (t ++ (furtherItems l vs ++ ']' :: rest)) := by
    rw [items_cons, text, List.append_assoc, List.cons_append]
  rw [opening, readFrom, Node.skipSpace_cons_of_not_isSpace (by decide)]
  rw [start] at read ⊢
  simp only [Node.skipSpace_cons_of_not_isSpace nonblank]
  split
  · exact absurd (List.cons.inj ‹_›).1 other
  · rw [read]
    rfl

/-- An object is read back when its members are. -/
theorem readFrom_object {name : Text} {v : Value} {ms : List (Text × Value)} {fuel : Nat}
    {rest : Text}
    (read : l.keywords.readMembers fuel (members l ((name, v) :: ms) ++ '}' :: rest) =
      (Node.ofMembers ((name, v) :: ms), rest)) :
    l.keywords.readFrom (fuel + 1) (data l (.object ((name, v) :: ms)) ++ rest) =
      (Node.ofValue (.object ((name, v) :: ms)), rest) := by
  have opening : data l (.object ((name, v) :: ms)) ++ rest =
      '{' :: (members l ((name, v) :: ms) ++ '}' :: rest) := by
    rw [data, members, List.append_assoc, List.append_assoc, List.singleton_append,
      List.singleton_append]
  rw [opening, readFrom, Node.skipSpace_cons_of_not_isSpace (by decide)]
  rw [members_cons, List.append_assoc, Node.quote_append] at read ⊢
  simp only [Node.skipSpace_cons_of_not_isSpace (show Node.isSpace '"' = false by decide)]
  split
  · exact absurd (List.cons.inj ‹_›).1 (by decide)
  · rw [read]
    rfl

theorem length_data_pos {v : Value} (integral : v.isIntegral = true) :
    0 < (data l v).length := by
  obtain ⟨c, t, text, -⟩ := data_eq_cons (l := l) integral
  rw [text]
  exact Nat.succ_pos _

mutual

/-- Plain data of a value is read as the document of the value. -/
theorem readFrom_data : ∀ (v : Value) (fuel : Nat) (rest : Text), v.isIntegral = true →
    2 * (data l v).length ≤ fuel → Spelling.Ends rest →
      l.keywords.readFrom fuel (data l v ++ rest) = (Node.ofValue v, rest)
  | v, 0, _, integral, enough, _ => by
    have nonempty := length_data_pos (l := l) integral
    omega
  | .null, fuel + 1, rest, _, _, _ => by
    rw [data_null, readFrom_null]
    rfl
  | .bool b, fuel + 1, rest, _, _, _ => by
    rw [data_bool, readFrom_bool]
    rfl
  | .number n, fuel + 1, rest, integral, _, ends => readFrom_number integral fuel ends
  | .string s, fuel + 1, rest, _, _, _ => by
    rw [data, Node.quote_append, readFrom, Node.skipSpace_cons_of_not_isSpace (by decide)]
    simp only [Node.readString?_flatMap_escape]
    rfl
  | .array [], fuel + 1, rest, _, _, _ => rfl
  | .array (v :: vs), fuel + 1, rest, integral, enough, _ => by
    rw [Value.isIntegral_array] at integral
    rw [data, List.length_append, List.length_append] at enough
    have read := readItems_data (v :: vs) fuel rest integral (List.cons_ne_nil _ _)
      (by simp only [items, List.length_cons, List.length_nil] at enough ⊢; omega)
    exact readFrom_array (integral v List.mem_cons_self) read
  | .object [], fuel + 1, rest, _, _, _ => rfl
  | .object ((name, v) :: ms), fuel + 1, rest, integral, enough, _ => by
    rw [Value.isIntegral_object] at integral
    rw [data, List.length_append, List.length_append] at enough
    have read := readMembers_data ((name, v) :: ms) fuel rest integral (List.cons_ne_nil _ _)
      (by simp only [members, List.length_cons, List.length_nil] at enough ⊢; omega)
    exact readFrom_object read

theorem readItems_data : ∀ (vs : List Value) (fuel : Nat) (rest : Text),
    (∀ v ∈ vs, v.isIntegral = true) → vs ≠ [] → 2 * (items l vs).length + 1 ≤ fuel →
      l.keywords.readItems fuel (items l vs ++ ']' :: rest) = (Node.ofItems vs, rest)
  | [], _, _, _, nonempty, _ => absurd rfl nonempty
  | v :: vs, 0, _, _, _, enough => by omega
  | v :: vs, fuel + 1, rest, integral, _, enough => by
    rw [List.forall_mem_cons] at integral
    rw [items_cons, List.length_append] at enough
    have head := readFrom_data v fuel _ integral.1 (by omega) (ends_furtherItems (l := l) vs rest)
    rw [items_cons, List.append_assoc, readItems]
    simp only [head]
    cases vs with
    | nil => rfl
    | cons w vs =>
      have between : furtherItems l (w :: vs) = ',' :: ' ' :: items l (w :: vs) := rfl
      rw [between, List.length_cons, List.length_cons] at enough
      have tail := readItems_data (w :: vs) fuel rest integral.2 (List.cons_ne_nil _ _) (by omega)
      rw [between, List.cons_append, List.cons_append,
        Node.skipSpace_cons_of_not_isSpace (by decide)]
      simp only [readItems_cons_space, tail]
      rfl

theorem readMembers_data : ∀ (ms : List (Text × Value)) (fuel : Nat) (rest : Text),
    (∀ m ∈ ms, m.2.isIntegral = true) → ms ≠ [] → 2 * (members l ms).length + 1 ≤ fuel →
      l.keywords.readMembers fuel (members l ms ++ '}' :: rest) = (Node.ofMembers ms, rest)
  | [], _, _, _, nonempty, _ => absurd rfl nonempty
  | m :: ms, 0, _, _, _, enough => by omega
  | (name, v) :: ms, fuel + 1, rest, integral, _, enough => by
    rw [List.forall_mem_cons] at integral
    rw [members_cons, List.length_append, List.length_cons, List.length_cons,
      List.length_append] at enough
    have head := readFrom_data v fuel _ integral.1 (by omega) (ends_furtherMembers (l := l) ms rest)
    rw [members_cons, List.append_assoc, Node.quote_append, readMembers,
      Node.skipSpace_cons_of_not_isSpace (by decide)]
    simp only [Node.readString?_flatMap_escape, List.cons_append, List.append_assoc,
      Node.skipSpace_cons_of_not_isSpace (show Node.isSpace ':' = false by decide),
      readFrom_cons_space, head]
    cases ms with
    | nil => rfl
    | cons m ms =>
      have between : furtherMembers l (m :: ms) = ',' :: ' ' :: members l (m :: ms) := rfl
      rw [between, List.length_cons, List.length_cons] at enough
      have tail := readMembers_data (m :: ms) fuel rest integral.2 (List.cons_ne_nil _ _) (by omega)
      rw [between, List.cons_append, List.cons_append,
        Node.skipSpace_cons_of_not_isSpace (by decide)]
      simp only [readMembers_cons_space, tail]
      rfl

end

theorem read_data {v : Value} (integral : v.isIntegral = true) :
    l.keywords.read (data l v) = (Node.ofValue v, []) := by
  have whole := readFrom_data (l := l) v (2 * (data l v).length + 2) [] integral (by omega)
    Spelling.ends_nil
  rw [List.append_nil] at whole
  exact whole

end Data

/-! ## Literals without structures -/

/-- A type whose base is no structure parses nothing out of its values. -/
theorem dynamic_of_plain {t : SchemaType} (plain : t.composite? = none) (l : Language) (v : Value) :
    dynamic l t v = data l v := by
  cases t with
  | composite kind => cases plain
  | array element =>
    have plain : element.composite? = none := plain
    cases v with
    | array items => rw [dynamic, plain, Option.isSome_none, if_neg Bool.false_ne_true]
    | _ => rfl
  | _ => cases v <;> rfl

/-- The literal of a value without structures, outside of Java and C++, is a document with the
words of the language. -/
theorem read_write {l : Language} (untyped : l.isCFamily = false) {t : SchemaType}
    (plain : t.composite? = none) {v : Value} (integral : v.isIntegral = true) :
    l.keywords.read (write l t none v) = (Node.ofValue v, []) := by
  rw [write, if_neg (by rw [untyped]; exact Bool.false_ne_true), dynamic_of_plain plain,
    read_data integral]

/-- Values without structures are told apart by their literals, whatever their types are. -/
theorem eq_of_write_eq {l : Language} (untyped : l.isCFamily = false) {t t' : SchemaType}
    (plain : t.composite? = none) (plain' : t'.composite? = none) {v w : Value}
    (hv : v.isIntegral = true) (hw : w.isIntegral = true)
    (same : write l t none v = write l t' none w) : v = w := by
  have read := congrArg l.keywords.read same
  rw [read_write untyped plain hv, read_write untyped plain' hw] at read
  exact Value.ofValue_injective (Prod.mk.inj read).1

/-- The literal of a value without structures is read back as the value: in TypeScript it is the
JSON text of the value, in Python it is one with the words of Python. Different values have
different literals. -/
theorem parse?_write_plain {t : SchemaType} (plain : t.composite? = none) {v : Value}
    (integral : v.isIntegral = true) (ordered : v.isOrdered = true)
    (shallow : v.depth ≤ maxLevels) :
    Value.parse? (write .typescript t none v) = some v ∧
      Keywords.python.parse? (write .python t none v) = some v ∧
      ∀ l : Language, l.isCFamily = false → ∀ t' : SchemaType, t'.composite? = none →
        ∀ w : Value, w.isIntegral = true → write l t none v = write l t' none w → v = w := by
  refine ⟨?_, ?_, ?_⟩
  · rw [← Keywords.parse?_json]
    apply Keywords.parse?_of_read ?_ ordered shallow
    exact read_write (l := .typescript) rfl plain integral
  · apply Keywords.parse?_of_read ?_ ordered shallow
    exact read_write (l := .python) rfl plain integral
  · intro l untyped t' plain' w hw same
    exact eq_of_write_eq untyped plain plain' integral hw same

/-- Under an array of an unknown type: the words in quotes and in names are not the words outside
of them. -/
theorem parse?_write_plain_words :
    Keywords.python.parse? (write .python (.array (.opaqueType "T")) none
      (.object [("None", .null), ("True", .array [.bool true, .string "True", .int (-3)])])) =
        some (.object
          [("None", .null), ("True", .array [.bool true, .string "True", .int (-3)])]) :=
  (parse?_write_plain (t := .array (.opaqueType "T")) rfl (by decide) (by decide) (by decide)).2.1

end Literal

end HarnessSynthesis
