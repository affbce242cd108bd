/-
# Canonical form of values

Results are compared by text. Two values are equal results exactly when their canonical texts are
equal: whole doubles of moderate size are written as integers, members stand in the order of their
names, and nothing is spaced. When the order of elements does not count, every array at every depth
is sorted first, by `Value.compare`, so that rearranging elements leaves the text alone.
-/

import HarnessSynthesis.Json.Decoder

namespace HarnessSynthesis

namespace Text

/-- The order of texts by code points, which is that of their UTF-8 octets. -/
def compare (a b : Text) : Ordering :=
  if a < b then .lt else if a = b then .eq else .gt

end Text

namespace Json

namespace Number

/-- A number in canonical form: a whole double below ten to the fifteenth is the integer. A double
that is no finite number has no canonical form. -/
def canonical? : Number → Option Number
  | .integer i => some (.integer i)
  | .binary b =>
    if b.isWhole ∧ b.truncate.natAbs < Nat.pow 10 15 then some (.integer b.toInt64)
    else if b.isFinite then some (.binary b)
    else none

end Number

namespace Value

mutual

/-- A value with all its numbers in canonical form. -/
def canonical : Value → Value
  | .null => .null
  | .bool b => .bool b
  | .number n => match n.canonical? with
    | some n => .number n
    | none => .null
  | .string s => .string s
  | .array items => .array (canonicalItems items)
  | .object members => .object (canonicalMembers members)
  termination_by structural v => v

def canonicalItems : List Value → List Value
  | [] => []
  | item :: rest => canonical item :: canonicalItems rest
  termination_by structural items => items

def canonicalMembers : List (Text × Value) → List (Text × Value)
  | [] => []
  | (name, v) :: rest => (name, canonical v) :: canonicalMembers rest
  termination_by structural members => members

end

/-- The text by which results are compared. -/
def canonicalText (v : Value) : Text :=
  v.canonical.write

/-- The order in which unordered elements are sorted: two numbers numerically, as doubles, and
anything else by canonical text. -/
def compare (a b : Value) : Ordering :=
  match a, b with
  | .number x, .number y => x.toBinary64.compare y.toBinary64
  | a, b => Text.compare a.canonicalText b.canonicalText

/-- Elements in ascending order; elements that compare equal keep theirs. -/
def sortItems (items : List Value) : List Value :=
  items.mergeSort fun a b => a.compare b != .gt

mutual

/-- A value whose arrays are all sorted, the inner ones first. -/
def unordered : Value → Value
  | .null => .null
  | .bool b => .bool b
  | .number n => .number n
  | .string s => .string s
  | .array items => .array (sortItems (unorderedItems items))
  | .object members => .object (unorderedMembers members)
  termination_by structural v => v

def unorderedItems : List Value → List Value
  | [] => []
  | item :: rest => unordered item :: unorderedItems rest
  termination_by structural items => items

def unorderedMembers : List (Text × Value) → List (Text × Value)
  | [] => []
  | (name, v) :: rest => (name, unordered v) :: unorderedMembers rest
  termination_by structural members => members

end

/-- The values that an expectation admits: with several allowed, the elements of an array, and
otherwise the value itself. -/
def alternatives (several : Bool) : Value → List Value
  | .array items => if several then items else [.array items]
  | v => [v]

/-- The canonical texts of which a result's has to be one. Neighbouring copies are dropped. -/
def acceptedTexts (expected : Value) (unordered several : Bool) : List Text :=
  ((alternatives several expected).map fun v =>
    if unordered then v.canonical.unordered.canonicalText
    else v.canonical.canonicalText).eraseReps

/-! ## Laws of the traversals -/

theorem canonicalItems_eq_map (items : List Value) :
    canonicalItems items = items.map canonical := by
  induction items with
  | nil => rfl
  | cons item rest ih => simp [canonicalItems, ih]

theorem unorderedItems_eq_map (items : List Value) :
    unorderedItems items = items.map unordered := by
  induction items with
  | nil => rfl
  | cons item rest ih => simp [unorderedItems, ih]

theorem unorderedMembers_eq_map (members : List (Text × Value)) :
    unorderedMembers members = members.map fun m => (m.1, m.2.unordered) := by
  induction members with
  | nil => rfl
  | cons m rest ih => simp [unorderedMembers, ih]

end Value

end Json

end HarnessSynthesis
