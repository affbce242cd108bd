/-
# JSON with other words

The grammar of JSON with its three words left open. Languages whose plain data looks like JSON
differ from it in how they call null and the truth values, so one reader serves all of them. The
words are tried only where no string, array or object starts; what stands in quotes is never taken
for a word. With the words of JSON itself the reader is the reader of JSON.
-/

import HarnessSynthesis.Proofs.Json.RoundTrip

namespace HarnessSynthesis.Json

/-- The words for null and for the two truth values. -/
structure Keywords where
  null : Text
  yes : Text
  no : Text

namespace Keywords

/-- The words of JSON. -/
def json : Keywords := ⟨"null", "true", "false"⟩

/-- The words of Python. -/
def python : Keywords := ⟨"None", "True", "False"⟩

/-! ## The reader -/

/-- What starts like no string and no structure: one of the words, or else a number. -/
def readScalar (k : Keywords) (t : Text) : Node × Text :=
  match Text.afterPrefix? k.null t with
  | some rest => (.null, rest)
  | none =>
    match Text.afterPrefix? k.yes t with
    | some rest => (.bool true, rest)
    | none =>
      match Text.afterPrefix? k.no t with
      | some rest => (.bool false, rest)
      | none => Node.readNumber t

section Reader

open Node (skipSpace readString?)

mutual

/-- The document at the head of a text and the text behind it. -/
def readFrom (k : Keywords) : (fuel : Nat) → Text → Node × Text
  | 0, _ => (.broken, [])
  | fuel + 1, t =>
    match skipSpace t with
    | '"' :: rest =>
      match readString? rest with
      | some (s, rest) => (.string s, rest)
      | none => (.broken, [])
    | '[' :: rest =>
      match skipSpace rest with
      | ']' :: rest => (.array [], rest)
      | rest =>
        let (items, rest) := readItems k fuel rest
        (.array items, rest)
    | '{' :: rest =>
      match skipSpace rest with
      | '}' :: rest => (.object [], rest)
      | rest =>
        let (members, rest) := readMembers k fuel rest
        (.object members, rest)
    | rest => k.readScalar rest
  termination_by structural fuel => fuel

/-- The elements of an array that has some, up to its bracket. -/
def readItems (k : Keywords) : (fuel : Nat) → Text → List Node × Text
  | 0, _ => ([.broken], [])
  | fuel + 1, t =>
    let (item, rest) := readFrom k fuel t
    match skipSpace rest with
    | ',' :: rest =>
      let (items, rest) := readItems k fuel rest
      (item :: items, rest)
    | ']' :: rest => ([item], rest)
    | _ => ([item, .broken], [])
  termination_by structural fuel => fuel

/-- The members of an object that has some, up to its brace. -/
def readMembers (k : Keywords) : (fuel : Nat) → Text → List (Option Text × Node) × Text
  | 0, _ => ([(none, .broken)], [])
  | fuel + 1, t =>
    match skipSpace t with
    | '"' :: rest =>
      match readString? rest with
      | none => ([(none, .broken)], [])
      | some (name, rest) =>
        match skipSpace rest with
        | ':' :: rest =>
          let (node, rest) := readFrom k fuel rest
          match skipSpace rest with
          | ',' :: rest =>
            let (members, rest) := readMembers k fuel rest
            ((name, node) :: members, rest)
          | '}' :: rest => ([(name, node)], rest)
          | _ => ([(name, node), (none, .broken)], [])
        | _ => ([(name, .broken)], [])
    | _ => ([(none, .broken)], [])
  termination_by structural fuel => fuel

end

/-- The document at the head of a text and the text behind it. -/
def read (k : Keywords) (t : Text) : Node × Text :=
  k.readFrom (2 * t.length + 2) t

/-- The value of a text that holds one document, nested as deeply as JSON may be, and blanks. -/
def parse? (k : Keywords) (t : Text) : Option Value :=
  let (node, rest) := k.read t
  if skipSpace rest = [] then node.toValue? maxLevels else none

/-- A text that is read whole as the document of a value has the value. -/
theorem parse?_of_read {k : Keywords} {t : Text} {v : Value}
    (read : k.read t = (Node.ofValue v, [])) (ordered : v.isOrdered = true)
    (shallow : v.depth ≤ maxLevels) : k.parse? t = some v := by
  rw [parse?, read]
  exact (if_pos rfl).trans (Value.toValue?_ofValue ordered shallow)

end Reader

/-! ## The words of JSON -/

section Json

open Node (skipSpace readString?)

/-- A word of JSON is recognised by its first letter, and what starts with that letter and is not
the word is nothing else. -/
theorem readScalar_json_cons (c : Char) (rest : Text) :
    json.readScalar (c :: rest) =
      if c = 'n' then Node.readWord ['u', 'l', 'l'] .null rest
      else if c = 't' then Node.readWord ['r', 'u', 'e'] (.bool true) rest
      else if c = 'f' then Node.readWord ['a', 'l', 's', 'e'] (.bool false) rest
      else Node.readNumber (c :: rest) := by
  have behind (d : Char) (ds : Text) :
      Text.afterPrefix? (d :: ds) (c :: rest) =
        if c = d then Text.afterPrefix? ds rest else none := by
    rw [Text.afterPrefix?]
    simp only [eq_comm]
  have null : Text.afterPrefix? json.null (c :: rest) = _ := behind 'n' ['u', 'l', 'l']
  have yes : Text.afterPrefix? json.yes (c :: rest) = _ := behind 't' ['r', 'u', 'e']
  have no : Text.afterPrefix? json.no (c :: rest) = _ := behind 'f' ['a', 'l', 's', 'e']
  rw [readScalar, null, yes, no]
  by_cases n : c = 'n'
  · subst n
    simp only [if_true, Node.readWord]
    cases Text.afterPrefix? ['u', 'l', 'l'] rest <;> rfl
  · by_cases t : c = 't'
    · subst t
      simp only [if_true, Node.readWord]
      cases Text.afterPrefix? ['r', 'u', 'e'] rest <;> rfl
    · by_cases f : c = 'f'
      · subst f
        simp only [if_true, Node.readWord]
        cases Text.afterPrefix? ['a', 'l', 's', 'e'] rest <;> rfl
      · simp only [if_neg n, if_neg t, if_neg f]

/-- What starts like no string and no structure is read as JSON reads it. -/
theorem readScalar_json {fuel : Nat} {c : Char} {rest t : Text} (found : skipSpace t = c :: rest)
    (noString : c ≠ '"') (noArray : c ≠ '[') (noObject : c ≠ '{') :
    json.readScalar (c :: rest) = Node.readFrom (fuel + 1) t := by
  rw [readScalar_json_cons]
  by_cases n : c = 'n'
  · rw [if_pos n, Node.readFrom, found, n]
    rfl
  by_cases t : c = 't'
  · rw [if_neg n, if_pos t, Node.readFrom, found, t]
    rfl
  by_cases f : c = 'f'
  · rw [if_neg n, if_neg t, if_pos f, Node.readFrom, found, f]
    rfl
  · rw [if_neg n, if_neg t, if_neg f]
    symm
    apply Node.readFrom_of_other found
    simp only [List.forall_mem_cons]
    exact ⟨n, t, f, noString, noArray, noObject, List.forall_mem_nil _⟩

mutual

/-- The reader with the words of JSON is the reader of JSON. -/
theorem readFrom_json : ∀ (fuel : Nat) (t : Text), json.readFrom fuel t = Node.readFrom fuel t
  | 0, _ => rfl
  | fuel + 1, t => by
    cases found : skipSpace t with
    | nil =>
      rw [readFrom, Node.readFrom, found]
      rfl
    | cons c rest =>
      rw [readFrom, found]
      split
      · rename_i same
        obtain ⟨rfl, rfl⟩ := List.cons.inj same
        rw [Node.readFrom, found]
        rfl
      · rename_i same
        obtain ⟨rfl, rfl⟩ := List.cons.inj same
        have items : json.readItems fuel = Node.readItems fuel := funext (readItems_json fuel)
        rewrite [Node.readFrom, found, items]
        rfl
      · rename_i same
        obtain ⟨rfl, rfl⟩ := List.cons.inj same
        have members : json.readMembers fuel = Node.readMembers fuel :=
          funext (readMembers_json fuel)
        rewrite [Node.readFrom, found, members]
        rfl
      · rename_i noString noArray noObject
        apply readScalar_json found
        · rintro rfl
          exact noString rest rfl
        · rintro rfl
          exact noArray rest rfl
        · rintro rfl
          exact noObject rest rfl

theorem readItems_json : ∀ (fuel : Nat) (t : Text), json.readItems fuel t = Node.readItems fuel t
  | 0, _ => rfl
  | fuel + 1, t => by
    have items : json.readItems fuel = Node.readItems fuel := funext (readItems_json fuel)
    rewrite [readItems, Node.readItems, readFrom_json fuel t, items]
    rfl

theorem readMembers_json : ∀ (fuel : Nat) (t : Text),
    json.readMembers fuel t = Node.readMembers fuel t
  | 0, _ => rfl
  | fuel + 1, t => by
    have value : json.readFrom fuel = Node.readFrom fuel := funext (readFrom_json fuel)
    have members : json.readMembers fuel = Node.readMembers fuel := funext (readMembers_json fuel)
    rewrite [readMembers, Node.readMembers, value, members]
    rfl

end

/-- With the words of JSON the value of a text is its value as JSON. -/
theorem parse?_json (t : Text) : json.parse? t = Value.parse? t := by
  rw [parse?, read, readFrom_json, Value.parse?, Decoder.decodeText, Node.read]
  simp only [Decoder.value]
  cases Node.toValue? maxLevels (Node.readFrom (2 * t.length + 2) t).1 with
  | none => simp [Except.toOption]
  | some v => split <;> simp_all [Except.toOption]

end Json

end Keywords

end HarnessSynthesis.Json
