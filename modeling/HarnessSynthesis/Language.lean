/-
# Languages

A harness can be written in four languages. This module names them, reads their names and fixes
the family to which each belongs: in Java and C++ a declaration is a type followed by a name.
-/

import HarnessSynthesis.Json.Decoder

namespace HarnessSynthesis

open Json

/-- The languages of user programs and harnesses. -/
inductive Language where
  | typescript
  | python
  | java
  | cpp
  deriving DecidableEq, Repr

namespace Language

/-- All languages in their fixed order. -/
def all : List Language := [.typescript, .python, .java, .cpp]

theorem mem_all (l : Language) : l ∈ all := by cases l <;> decide

/-- The canonical name of a language. -/
def name : Language → Text
  | .typescript => "typescript"
  | .python => "python"
  | .java => "java"
  | .cpp => "cpp"

/-- Languages whose declarations put the type in front of the name. -/
def isCFamily : Language → Bool
  | .java => true
  | .cpp => true
  | _ => false

/-- A language by a name that people write: in any case, with blanks around it, or by one of the
usual short forms. -/
def ofName? (written : Text) : Option Language :=
  let written := written.trim.lower
  if written = "typescript" ∨ written = "ts" then some .typescript
  else if written = "python" ∨ written = "py" ∨ written = "python3" then some .python
  else if written = "java" then some .java
  else if written = "cpp" ∨ written = "c++" then some .cpp
  else none

/-- A language by a name as records spell it, exactly. -/
def ofRecordName? (written : Text) : Option Language :=
  if written = "typescript" ∨ written = "ts" then some .typescript
  else if written = "python" ∨ written = "py" then some .python
  else if written = "java" then some .java
  else if written = "cpp" ∨ written = "c++" then some .cpp
  else none

/-- Records name the language they are about. -/
theorem ofRecordName?_name (l : Language) : ofRecordName? l.name = some l := by
  cases l <;> rfl

/-- A language in a record. -/
def decoder : Decoder Language := Decoder.oneOf ofRecordName?

def encode (l : Language) : Node := .text l.name

end Language

end HarnessSynthesis
