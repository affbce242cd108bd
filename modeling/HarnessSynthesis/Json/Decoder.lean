/-
# Decoding documents

A decoder turns a document into a value of a domain type or names the first fault it meets. There
are two: the text stops being JSON (`malformed`), or it is JSON of another shape (`mismatch`). A
decoder walks the document in the order in which it is written, so of two faults the earlier one is
reported. The number carried along is how many more levels of nesting may be entered.

Records are described by a `Shape`: their fields in order, each with its decoder and with what it
is when absent. One description serves both forms of a record, the object with named members and
the array with its fields in order.
-/

import HarnessSynthesis.Json.Reader

namespace HarnessSynthesis.Json

/-- Why a document cannot be decoded. -/
inductive Fault where
  | malformed
  | mismatch
  deriving DecidableEq, Repr

/-- How many arrays and objects may enclose one another. -/
def maxLevels : Nat := 127

namespace Node

mutual

/-- Whether a document can be passed over: it is JSON, whatever its strings and numbers hold. -/
def isPassable : Node → Bool
  | .broken => false
  | .array items => itemsPassable items
  | .object members => membersPassable members
  | .null => true
  | .bool _ => true
  | .number _ => true
  | .string _ => true
  termination_by structural n => n

def itemsPassable : List Node → Bool
  | [] => true
  | item :: rest => isPassable item && itemsPassable rest
  termination_by structural items => items

def membersPassable : List (Option Text × Node) → Bool
  | [] => true
  | (_, node) :: rest => isPassable node && membersPassable rest
  termination_by structural members => members

end

mutual

/-- The value of a document without faults whose nesting stays within the levels. -/
def toValue? (levels : Nat) : Node → Option Value
  | .null => some .null
  | .bool b => some (.bool b)
  | .number n => n.map .number
  | .string s => s.map .string
  | .array items => if levels = 0 then none else (toItems? (levels - 1) items).map .array
  | .object members =>
    if levels = 0 then none else (toMembers? (levels - 1) members).map Value.ofMembers
  | .broken => none
  termination_by structural n => n

def toItems? (levels : Nat) : List Node → Option (List Value)
  | [] => some []
  | item :: rest => do return (← toValue? levels item) :: (← toItems? levels rest)
  termination_by structural items => items

def toMembers? (levels : Nat) : List (Option Text × Node) → Option (List (Text × Value))
  | [] => some []
  | (name, node) :: rest => do
    return (← name, ← toValue? levels node) :: (← toMembers? levels rest)
  termination_by structural members => members

end

/-- The fault of a document that is not of the expected kind. -/
def otherKind : Node → Fault
  | .broken => .malformed
  | .string none => .malformed
  | .number none => .malformed
  | _ => .mismatch

end Node

/-- A decoder of documents, given the levels of nesting that are left. -/
abbrev Decoder (α : Type) := (levels : Nat) → Node → Except Fault α

namespace Decoder

/-! ## Scalars -/

def text : Decoder Text
  | _, .string (some s) => .ok s
  | _, node => .error node.otherKind

def bool : Decoder Bool
  | _, .bool b => .ok b
  | _, node => .error node.otherKind

/-- An unsigned word of a number of bits, given as an integer. -/
def word (bits : Nat) : Decoder Nat
  | _, .number (some n) =>
    match n.toUInt64? with
    | some w => if w ≤ Word.greatest bits then .ok w else .error .mismatch
    | none => .error .mismatch
  | _, node => .error node.otherKind

/-- A double, which may be given as an integer. -/
def double : Decoder Binary64
  | _, .number (some n) => .ok n.toBinary64
  | _, node => .error node.otherKind

/-- Any value. -/
def value : Decoder Value
  | levels, node =>
    match node.toValue? levels with
    | some v => .ok v
    | none => .error .malformed

/-- A value that may be null. -/
def nullable {α : Type} (decode : Decoder α) : Decoder (Option α)
  | _, .null => .ok none
  | levels, node => (decode levels node).map some

/-- A decoder followed by a step that may refuse what was decoded. -/
def refine {α β : Type} (decode : Decoder α) (f : α → Option β) : Decoder β
  | levels, node =>
    match decode levels node with
    | .ok a => match f a with
      | some b => .ok b
      | none => .error .mismatch
    | .error fault => .error fault

/-- The level below, when one is left. -/
def enter (levels : Nat) : Except Fault Nat :=
  match levels with
  | 0 => .error .malformed
  | below + 1 => .ok below

/-- A list of elements of one kind. -/
def list {α : Type} (decode : Decoder α) : Decoder (List α)
  | levels, .array items => do
    let below ← enter levels
    items.mapM (decode below)
  | _, node => .error node.otherKind

/-! ## Enumerations -/

/-- One of several names, given as a string or as the only member of an object, whose value is
then null. Anything else does not begin like an enumeration at all. -/
def oneOf {α : Type} (ofName? : Text → Option α) : Decoder α
  | _, .string (some s) => match ofName? s with
    | some a => .ok a
    | none => .error .mismatch
  | levels, .object members => do
    let _ ← enter levels
    match members with
    | (some name, node) :: rest => match ofName? name with
      | none => .error .mismatch
      | some a => match node, rest with
        | .null, [] => .ok a
        | .null, _ :: _ => .error .malformed
        | node, _ => .error node.otherKind
    | _ => .error .malformed
  | _, _ => .error .malformed

end Decoder

/-! ## Records -/

/-- What a field is when the document leaves it out: it may not be, it is a given value, or it is
a given value in an object while an array may not end before it. -/
inductive Absence (α : Type) where
  | required
  | default (a : α)
  | defaultInObject (a : α)

namespace Absence

def inObject? {α : Type} : Absence α → Option α
  | .required => none
  | .default a => some a
  | .defaultInObject a => some a

def inArray? {α : Type} : Absence α → Option α
  | .default a => some a
  | _ => none

end Absence

/-- The fields of a record in order. The first index holds what has been read of each field so
far, the second the record itself. -/
inductive Shape : Type → Type → Type 1 where
  | done : Shape Unit Unit
  | field {α σ ρ : Type} (name : Text) (decode : Decoder α) (absence : Absence α)
      (rest : Shape σ ρ) : Shape (Option α × σ) (α × ρ)

namespace Shape

/-- Nothing has been read. -/
def empty {σ ρ : Type} : Shape σ ρ → σ
  | .done => ()
  | .field _ _ _ rest => (none, rest.empty)

/-- One member read into its field. A member of no field is passed over, and a field may not be
given twice. -/
def put {σ ρ : Type} (levels : Nat) (name : Text) (node : Node) :
    Shape σ ρ → σ → Except Fault σ
  | .done, () => if node.isPassable then .ok () else .error .malformed
  | .field own decode _ rest, (slot, slots) =>
    if own = name then
      match slot with
      | some _ => .error .mismatch
      | none => (decode levels node).map fun a => (some a, slots)
    else (put levels name node rest slots).map fun slots => (slot, slots)

/-- The record, once all members are read. -/
def finish {σ ρ : Type} : Shape σ ρ → σ → Except Fault ρ
  | .done, () => .ok ()
  | .field _ _ absence rest, (slot, slots) =>
    match slot <|> absence.inObject? with
    | some a => (finish rest slots).map fun r => (a, r)
    | none => .error .mismatch

/-- The record with its fields as the elements of an array. -/
def ofItems {σ ρ : Type} (levels : Nat) : Shape σ ρ → List Node → Except Fault ρ
  | .done, [] => .ok ()
  | .done, _ :: _ => .error .malformed
  | .field _ decode _ rest, item :: items => do
    let a ← decode levels item
    return (a, ← ofItems levels rest items)
  | .field _ _ absence rest, [] =>
    match absence.inArray? with
    | some a => (ofItems levels rest []).map fun r => (a, r)
    | none => .error .mismatch

/-- The members of an object read one after the other. -/
def ofMembers {σ ρ : Type} (levels : Nat) (s : Shape σ ρ) :
    List (Option Text × Node) → σ → Except Fault σ
  | [], slots => .ok slots
  | (none, _) :: _, _ => .error .malformed
  | (some name, node) :: rest, slots => do ofMembers levels s rest (← put levels name node s slots)

/-- The decoder of a record. -/
def decoder {σ ρ : Type} (s : Shape σ ρ) : Decoder ρ
  | levels, .object members => do
    let below ← Decoder.enter levels
    s.finish (← s.ofMembers below members s.empty)
  | levels, .array items => do
    let below ← Decoder.enter levels
    s.ofItems below items
  | _, node => .error node.otherKind

end Shape

namespace Decoder

/-- The fields of a record put together. -/
def map {α β : Type} (f : α → β) (decode : Decoder α) : Decoder β
  | levels, node => (decode levels node).map f

/-! ## Whole texts -/

/-- What the document at the head of a text decodes to; the text behind it is not looked at. -/
def decodeHead {α : Type} (decode : Decoder α) (t : Text) : Except Fault α :=
  decode maxLevels (Node.read t).1

/-- What a text decodes to that holds one document and blanks. -/
def decodeText {α : Type} (decode : Decoder α) (t : Text) : Except Fault α :=
  let (node, rest) := Node.read t
  match decode maxLevels node with
  | .error fault => .error fault
  | .ok a => if Node.skipSpace rest = [] then .ok a else .error .malformed

/-- What a value decodes to. -/
def decodeValue {α : Type} (decode : Decoder α) (v : Value) : Except Fault α :=
  decode maxLevels (Node.ofValue v)

end Decoder

/-- The value of a JSON text. -/
def Value.parse? (t : Text) : Option Value :=
  (Decoder.value.decodeText t).toOption

end HarnessSynthesis.Json
