/-
# JSON documents

A `Node` is a JSON text as it is written: members keep their order and their repetitions. It is
what records are encoded to and what a reader makes of any text at all, so it has places for what
cannot be read: a string with half a surrogate pair and a number beyond all doubles are `none`, and
`broken` stands where the text stops being JSON. A decoder that walks a node in order thus meets
the faults of a text in the order in which they stand there.
-/

import HarnessSynthesis.Json.Value

namespace HarnessSynthesis.Json

/-- A JSON text as it is written. -/
inductive Node where
  | null
  | bool (b : Bool)
  | number (n : Option Number)
  | string (s : Option Text)
  | array (items : List Node)
  | object (members : List (Option Text × Node))
  | broken
  deriving Repr

namespace Node

/-- A written string. -/
def text (s : Text) : Node := .string (some s)

/-- A written integer. -/
def int (i : Int) : Node := .number (some (.integer i))

/-- An object with the given members, in this order. -/
def record (members : List (Text × Node)) : Node :=
  .object (members.map fun (name, node) => (some name, node))

/-- An object whose last members are left out where there is nothing to write. -/
def recordWith (members : List (Text × Node)) (optional : List (Text × Option Node)) : Node :=
  record (members ++ optional.filterMap fun (name, node) => node.map (name, ·))

/-- A node when there is one, and null otherwise. -/
def ofOption {α : Type} (encode : α → Node) : Option α → Node
  | none => .null
  | some a => encode a

mutual

/-- A value written out. -/
def ofValue : Value → Node
  | .null => .null
  | .bool b => .bool b
  | .number n => .number (some n)
  | .string s => .string (some s)
  | .array items => .array (ofItems items)
  | .object members => .object (ofMembers members)
  termination_by structural v => v

def ofItems : List Value → List Node
  | [] => []
  | v :: rest => ofValue v :: ofItems rest
  termination_by structural vs => vs

def ofMembers : List (Text × Value) → List (Option Text × Node)
  | [] => []
  | (name, v) :: rest => (some name, ofValue v) :: ofMembers rest
  termination_by structural ms => ms

end

/-! ## Strings -/

/-- The lower-case hexadecimal digit of a number below sixteen. -/
def hexDigit (n : Nat) : Char :=
  if n < 10 then Char.ofNat (48 + n) else Char.ofNat (87 + n)

/-- A character inside a quoted string: quotes, backslashes and control characters are escaped. -/
def escape (c : Char) : Text :=
  if c = '"' then ['\\', '"']
  else if c = '\\' then ['\\', '\\']
  else if c = '\x08' then ['\\', 'b']
  else if c = '\t' then ['\\', 't']
  else if c = '\n' then ['\\', 'n']
  else if c = '\x0c' then ['\\', 'f']
  else if c = '\r' then ['\\', 'r']
  else if c.toNat < 0x20 then
    ['\\', 'u', '0', '0', hexDigit (c.toNat / 16), hexDigit (c.toNat % 16)]
  else [c]

/-- A string in quotes. -/
def quote (s : Text) : Text :=
  '"' :: s.flatMap escape ++ ['"']

/-! ## Compact text -/

mutual

/-- The compact text of a document. -/
def write : Node → Text
  | .null => ['n', 'u', 'l', 'l']
  | .bool true => ['t', 'r', 'u', 'e']
  | .bool false => ['f', 'a', 'l', 's', 'e']
  | .number (some n) => n.write
  | .number none => ['n', 'u', 'l', 'l']
  | .string (some s) => quote s
  | .string none => ['n', 'u', 'l', 'l']
  | .array items => '[' :: writeItems items ++ [']']
  | .object members => '{' :: writeMembers members ++ ['}']
  | .broken => ['n', 'u', 'l', 'l']
  termination_by structural n => n

/-- The elements of an array with commas between them. -/
def writeItems : List Node → Text
  | [] => []
  | item :: rest => write item ++ (if rest.isEmpty then [] else ',' :: writeItems rest)
  termination_by structural items => items

/-- The members of an object with commas between them. -/
def writeMembers : List (Option Text × Node) → Text
  | [] => []
  | (name, node) :: rest =>
    quote (name.getD []) ++ ':' :: write node ++
      (if rest.isEmpty then [] else ',' :: writeMembers rest)
  termination_by structural members => members

end

/-! ## Indented text -/

/-- A line feed and the indentation of a level, two spaces each. -/
def newline (level : Nat) : Text :=
  '\n' :: List.replicate (2 * level) ' '

mutual

/-- The text of a document with one element or member a line. -/
def writeIndented (level : Nat) : Node → Text
  | .array items =>
    if items.isEmpty then ['[', ']']
    else '[' :: writeItemLines (level + 1) items ++ newline level ++ [']']
  | .object members =>
    if members.isEmpty then ['{', '}']
    else '{' :: writeMemberLines (level + 1) members ++ newline level ++ ['}']
  | .null => write .null
  | .bool b => write (.bool b)
  | .number n => write (.number n)
  | .string s => write (.string s)
  | .broken => write .broken
  termination_by structural n => n

def writeItemLines (level : Nat) : List Node → Text
  | [] => []
  | item :: rest =>
    newline level ++ writeIndented level item ++
      (if rest.isEmpty then [] else ',' :: writeItemLines level rest)
  termination_by structural items => items

def writeMemberLines (level : Nat) : List (Option Text × Node) → Text
  | [] => []
  | (name, node) :: rest =>
    newline level ++ quote (name.getD []) ++ [':', ' '] ++ writeIndented level node ++
      (if rest.isEmpty then [] else ',' :: writeMemberLines level rest)
  termination_by structural members => members

end

end Node

/-- The compact text of a value. -/
def Value.write (v : Value) : Text :=
  (Node.ofValue v).write

end HarnessSynthesis.Json
