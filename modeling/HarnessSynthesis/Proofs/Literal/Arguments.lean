/-
# Arguments of the dynamic languages

What an expression of TypeScript or Python is worth. An argument is plain data, an array of
arguments, or a structure, which is kept as the call of its parser: what a parser builds is its own
matter. `meaning` takes the text of an expression to the argument it stands for.

Two points of the languages enter. `x || []` and `x or []` are the empty array for whatever counts
as false, and a loop in Python also runs over a string or the names of an object. A member
`__proto__` in an object literal of TypeScript sets the prototype and is no data, so an expression
with one stands for no argument.
-/

import Mathlib.Logic.Function.Basic
import HarnessSynthesis.Proofs.Literal.Expressions

namespace HarnessSynthesis

open Json

/-- What a function under test is called with. -/
inductive Argument where
  | null
  | bool (b : Bool)
  | number (n : Number)
  | string (s : Text)
  | object (members : List (Text × Value))
  | array (items : List Argument)
  /-- What the parser of a structure builds from plain data. -/
  | parsed (kind : Composite) (v : Value)

namespace Argument

mutual

/-- Plain data as an argument. -/
def ofValue : Value → Argument
  | .null => .null
  | .bool b => .bool b
  | .number n => .number n
  | .string s => .string s
  | .array items => .array (ofValues items)
  | .object members => .object members
  termination_by structural v => v

def ofValues : List Value → List Argument
  | [] => []
  | v :: rest => ofValue v :: ofValues rest
  termination_by structural vs => vs

end

mutual

/-- The plain data that an argument is, when no structure stands in it. -/
def value? : Argument → Option Value
  | .null => some .null
  | .bool b => some (.bool b)
  | .number n => some (.number n)
  | .string s => some (.string s)
  | .object members => some (.object members)
  | .array items => (values? items).map .array
  | .parsed _ _ => none
  termination_by structural a => a

def values? : List Argument → Option (List Value)
  | [] => some []
  | a :: rest => do
    let v ← a.value?
    let vs ← values? rest
    return v :: vs
  termination_by structural items => items

end

mutual

@[simp] theorem value?_ofValue : ∀ v : Value, (ofValue v).value? = some v
  | .null | .bool _ | .number _ | .string _ | .object _ => rfl
  | .array items => by rw [ofValue, value?, values?_ofValues items, Option.map_some]

theorem values?_ofValues : ∀ vs : List Value, values? (ofValues vs) = some vs
  | [] => rfl
  | v :: rest => by
    simp only [ofValues, values?, value?_ofValue v, values?_ofValues rest, Option.bind_eq_bind,
      Option.bind_some, Option.pure_def]

end

theorem ofValue_ne_array {v : Value} (other : v.items? = none) (items : List Argument) :
    ofValue v ≠ .array items := by
  cases v with
  | array vs => cases other
  | null | bool b | number n | string s | object members => exact fun h => nomatch h

end Argument

open Argument

/-! ## Evaluation -/

/-- The elements of what stands in a loop's brackets with the alternative of an empty array, unless
the loop breaks off with an error. -/
def elements? (l : Language) : Value → Option (List Value)
  | .array items => some items
  | .null => some []
  | .bool b => if b then none else some []
  | .number n => if n.toBinary64.isZero then some [] else none
  | .string s =>
    if l = .python then some (s.map fun c => .string [c])
    else if s = [] then some [] else none
  | .object members =>
    if l = .python then some (members.map fun member => .string member.1) else none

/-- Whether a member of this name in an object literal is data. -/
def isDataName (l : Language) (name : Text) : Bool :=
  !(l == .typescript && name == "__proto__")

namespace Expression

mutual

/-- The argument that an expression is worth among inputs and loop variables, unless it breaks off
with an error. -/
def eval (l : Language) (inputs : List Value) (scope : Nat → Option Value) :
    Expression → Option Argument
  | .null => some .null
  | .bool b => some (.bool b)
  | .number n => some (.number n)
  | .string s => some (.string s)
  | .array items => (evalItems l inputs scope items).map .array
  | .object members => (evalMembers l inputs scope members).map .object
  | .input index => (inputs[index]?).map ofValue
  | .bound depth => (scope depth).map ofValue
  | .parsed kind e => do
    let a ← eval l inputs scope e
    let v ← a.value?
    return .parsed kind v
  | .each depth body source => do
    let a ← eval l inputs scope source
    let v ← a.value?
    let elements ← elements? l v
    let items ← elements.mapM fun element =>
      eval l inputs (Function.update scope depth (some element)) body
    return .array items
  termination_by structural e => e

def evalItems (l : Language) (inputs : List Value) (scope : Nat → Option Value) :
    List Expression → Option (List Argument)
  | [] => some []
  | e :: rest => do
    let a ← eval l inputs scope e
    let items ← evalItems l inputs scope rest
    return a :: items
  termination_by structural items => items

def evalMembers (l : Language) (inputs : List Value) (scope : Nat → Option Value) :
    List (Text × Expression) → Option (List (Text × Value))
  | [] => some []
  | (name, e) :: rest =>
    if isDataName l name then do
      let a ← eval l inputs scope e
      let v ← a.value?
      let members ← evalMembers l inputs scope rest
      return (name, v) :: members
    else none
  termination_by structural members => members

end

end Expression

/-- The argument that the text of an expression stands for where a program has read these inputs. -/
def meaning (l : Language) (inputs : List Value) (text : Text) : Option Argument :=
  (Expression.read? l text).bind (Expression.eval l inputs fun _ => none)

theorem meaning_write {l : Language} {e : Expression} (proper : e.Proper) (inputs : List Value) :
    meaning l inputs (e.write l) = e.eval l inputs fun _ => none := by
  rw [meaning, Expression.read?_write proper, Option.bind_some]

end HarnessSynthesis
