/-
# JSON values

A value is what a JSON text denotes once spelling is forgotten: members of an object stand in
ascending order of their names, and a name stands once. `Value.ofMembers` builds objects that way,
a later member replacing an earlier one of the same name.
-/

import HarnessSynthesis.Json.Number

namespace HarnessSynthesis.Json

/-- A JSON value. -/
inductive Value where
  | null
  | bool (b : Bool)
  | number (n : Number)
  | string (s : Text)
  | array (items : List Value)
  | object (members : List (Text × Value))
  deriving Repr, BEq

namespace Value

/-- Members with one more; a member of the same name gives way. -/
def insertMember (name : Text) (value : Value) :
    List (Text × Value) → List (Text × Value)
  | [] => [(name, value)]
  | (other, v) :: rest =>
    if name < other then (name, value) :: (other, v) :: rest
    else if other < name then (other, v) :: insertMember name value rest
    else (name, value) :: rest

/-- The object with the given members, of which the last of each name counts. -/
def ofMembers (members : List (Text × Value)) : Value :=
  .object (members.foldl (fun sorted (name, value) => insertMember name value sorted) [])

/-- The member of a name. -/
def member? (name : Text) : Value → Option Value
  | .object members => (members.find? (fun m => m.1 == name)).map (·.2)
  | _ => none

/-- The elements of an array. -/
def items? : Value → Option (List Value)
  | .array items => some items
  | _ => none

def isNull : Value → Bool
  | .null => true
  | _ => false

/-- An integer as a value. -/
def int (i : Int) : Value :=
  .number (.integer i)

end Value

end HarnessSynthesis.Json
