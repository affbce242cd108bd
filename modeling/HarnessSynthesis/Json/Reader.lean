/-
# Reading JSON

`Node.read` makes a document of any text. What cannot be read becomes a fault in its place, so the
reader itself never fails: a text is JSON exactly when its document has no fault and nothing but
blanks follows. Nesting is not bounded here; decoders bound it.
-/

import HarnessSynthesis.Json.Node

namespace HarnessSynthesis.Json

namespace Node

/-- The blanks of JSON. -/
def isSpace (c : Char) : Bool :=
  c == ' ' || c == '\n' || c == '\t' || c == '\r'

/-- A text without its leading blanks. -/
def skipSpace (t : Text) : Text :=
  t.dropWhile isSpace

/-! ## Strings -/

/-- The value of a hexadecimal digit of either case. -/
def hexValue? (c : Char) : Option Nat :=
  if '0' ≤ c ∧ c ≤ '9' then some (c.toNat - 48)
  else if 'a' ≤ c ∧ c ≤ 'f' then some (c.toNat - 87)
  else if 'A' ≤ c ∧ c ≤ 'F' then some (c.toNat - 55)
  else none

/-- Four hexadecimal digits as a code unit. -/
def hexUnit? (a b c d : Char) : Option Nat := do
  return (((← hexValue? a) * 16 + (← hexValue? b)) * 16 + (← hexValue? c)) * 16 + (← hexValue? d)

/-- The character of an escape with one letter. -/
def simpleEscape? : Char → Option Char
  | '"' => some '"'
  | '\\' => some '\\'
  | '/' => some '/'
  | 'b' => some '\x08'
  | 'f' => some '\x0c'
  | 'n' => some '\n'
  | 'r' => some '\r'
  | 't' => some '\t'
  | _ => none

/-- What a quoted string is made of: a character, or one half of a surrogate pair. -/
inductive Unit16 where
  | char (c : Char)
  | high (unit : Nat)
  | low (unit : Nat)
  deriving Repr

/-- A code unit as a character, unless it is half a pair. -/
def Unit16.ofCode (unit : Nat) : Unit16 :=
  if 0xD800 ≤ unit ∧ unit < 0xDC00 then .high unit
  else if 0xDC00 ≤ unit ∧ unit < 0xE000 then .low unit
  else .char (Char.ofNat unit)

/-- The units of a quoted string behind its opening quote, and the text behind its closing one.
A string ends nowhere if a control character or an escape without meaning comes first. -/
def lexString? : Text → Option (List Unit16 × Text)
  | [] => none
  | '"' :: rest => some ([], rest)
  | '\\' :: 'u' :: a :: b :: c :: d :: rest => do
    let unit ← hexUnit? a b c d
    let (units, rest) ← lexString? rest
    return (Unit16.ofCode unit :: units, rest)
  | '\\' :: c :: rest => do
    let c ← simpleEscape? c
    let (units, rest) ← lexString? rest
    return (.char c :: units, rest)
  | c :: rest =>
    if c.toNat < 0x20 || c == '\\' then none
    else do
      let (units, rest) ← lexString? rest
      return (.char c :: units, rest)
  termination_by structural t => t

/-- Units put together; a half without its partner has no meaning. -/
def joinUnits? : List Unit16 → Option Text
  | [] => some []
  | .char c :: rest => (joinUnits? rest).map (c :: ·)
  | .high h :: .low l :: rest =>
    (joinUnits? rest).map
      (Char.ofNat (0x10000 + (h - 0xD800) * 0x400 + (l - 0xDC00)) :: ·)
  | _ => none
  termination_by structural units => units

/-- The string behind an opening quote: its contents, unless they hold half a pair, and the rest. -/
def readString? (t : Text) : Option (Option Text × Text) :=
  (lexString? t).map fun (units, rest) => (joinUnits? units, rest)

/-! ## Documents -/

/-- A fixed word at the head of a text. -/
def readWord (word : Text) (node : Node) (t : Text) : Node × Text :=
  match Text.afterPrefix? word t with
  | some rest => (node, rest)
  | none => (.broken, [])

/-- A number at the head of a text. -/
def readNumber (t : Text) : Node × Text :=
  match Spelling.lex? t with
  | some (spelling, rest) => (.number spelling.value?, rest)
  | none => (.broken, [])

mutual

/-- The document at the head of a text and the text behind it. -/
def readFrom : (fuel : Nat) → Text → Node × Text
  | 0, _ => (.broken, [])
  | fuel + 1, t =>
    match skipSpace t with
    | 'n' :: rest => readWord ['u', 'l', 'l'] .null rest
    | 't' :: rest => readWord ['r', 'u', 'e'] (.bool true) rest
    | 'f' :: rest => readWord ['a', 'l', 's', 'e'] (.bool false) rest
    | '"' :: rest =>
      match readString? rest with
      | some (s, rest) => (.string s, rest)
      | none => (.broken, [])
    | '[' :: rest =>
      match skipSpace rest with
      | ']' :: rest => (.array [], rest)
      | rest =>
        let (items, rest) := readItems fuel rest
        (.array items, rest)
    | '{' :: rest =>
      match skipSpace rest with
      | '}' :: rest => (.object [], rest)
      | rest =>
        let (members, rest) := readMembers fuel rest
        (.object members, rest)
    | rest => readNumber rest
  termination_by structural fuel => fuel

/-- The elements of an array that has some, up to its bracket. -/
def readItems : (fuel : Nat) → Text → List Node × Text
  | 0, _ => ([.broken], [])
  | fuel + 1, t =>
    let (item, rest) := readFrom fuel t
    match skipSpace rest with
    | ',' :: rest =>
      let (items, rest) := readItems fuel rest
      (item :: items, rest)
    | ']' :: rest => ([item], rest)
    | _ => ([item, .broken], [])
  termination_by structural fuel => fuel

/-- The members of an object that has some, up to its brace. -/
def readMembers : (fuel : Nat) → Text → List (Option Text × Node) × Text
  | 0, _ => ([(none, .broken)], [])
  | fuel + 1, t =>
    match skipSpace t with
    | '"' :: rest =>
      match readString? rest with
      | none => ([(none, .broken)], [])
      | some (name, rest) =>
        match skipSpace rest with
        | ':' :: rest =>
          let (node, rest) := readFrom fuel rest
          match skipSpace rest with
          | ',' :: rest =>
            let (members, rest) := readMembers fuel rest
            ((name, node) :: members, rest)
          | '}' :: rest => ([(name, node)], rest)
          | _ => ([(name, node), (none, .broken)], [])
        | _ => ([(name, .broken)], [])
    | _ => ([(none, .broken)], [])
  termination_by structural fuel => fuel

end

/-- The document at the head of a text and the text behind it. A bracket takes two steps and a
character, so twice the length is fuel enough. -/
def read (t : Text) : Node × Text :=
  readFrom (2 * t.length + 2) t

end Node

end HarnessSynthesis.Json
