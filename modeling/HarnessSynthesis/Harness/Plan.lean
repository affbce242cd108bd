/-
# Plans

A plan is a harness before it has a language's syntax: the function to call, the types of its
parameters, the structures the program must know, and for each test case its inputs with the texts
a result may have. A case with the wrong number of inputs is never run; its verdict is written
beforehand.
-/

import HarnessSynthesis.Entry.Resolution
import HarnessSynthesis.Json.Canonical
import HarnessSynthesis.NativeType
import HarnessSynthesis.Source.TypeDeclaration

namespace HarnessSynthesis

open Source Json

/-- A parameter of the function that is called. -/
structure PlannedParameter where
  name : Text
  type : SchemaType
  /-- The type that the user's signature declares. -/
  declared : Option Text
  deriving DecidableEq, Repr

/-- What a program has to contain for a structure. -/
structure StructureUse where
  kind : Composite
  definition : Bool
  helpers : Bool
  deriving DecidableEq, Repr

/-- What happens with a test case. -/
inductive CaseBody where
  | runnable (inputs : List Value) (accepted : List Text)
  /-- The verdict is already known. -/
  | settled (verdict : Text)
  deriving Repr

/-- A test case of a plan. -/
structure PlannedCase where
  index : Nat
  /-- The expected value in canonical text. -/
  expected : Text
  body : CaseBody
  deriving Repr

/-- A harness before it is written in its language. -/
structure Plan where
  language : Language
  source : Text
  entry : EntryPoint
  parameters : List PlannedParameter
  structures : List StructureUse
  options : Options
  /-- The argument that counts as the result, when one does. -/
  resultIndex : Option Nat
  cases : List PlannedCase

namespace Plan

/-! ## Making a plan -/

/-- The argument that counts as the result: the one the options name, or else the first that the
schema marks as changed in place. An index beyond the schema counts as none. -/
def resultIndexOf (options : Options) (schema : List SchemaEntry) : Option Nat :=
  let index :=
    if options.returnsInput then some options.inputIndex
    else schema.findIdx? fun e => e.inPlace == some true
  index.filter (· < schema.length)

/-- The parameters of a schema with the types declared at the same places. -/
def parametersOf (schema : List SchemaEntry) (declared : List Parameter) :
    List PlannedParameter :=
  schema.zipIdx.map fun (e, i) =>
    ⟨e.name, SchemaType.parse e.typeName, declared[i]?.bind Parameter.declaredType⟩

/-- The structures that the schema or the signature needs. -/
def requiredStructures (parameters : List PlannedParameter) (entry : EntryPoint) :
    List Composite :=
  let texts := parameters.filterMap PlannedParameter.declared ++ entry.returnType.toList
  parameters.filterMap (fun p => p.type.composite?) ++
    texts.flatMap fun t => Composite.all.filter fun k => hasWord k.typeName t

/-- What the program contains for each structure. One that is required is always built and read,
one that is merely mentioned only if the user does not declare it; and what the user declares is
not defined again. -/
def structuresOf (l : Language) (source : Text) (required : List Composite) :
    List StructureUse :=
  let mentioned := mentionedStructures l source
  Composite.all.filterMap fun kind =>
    let isRequired := required.contains kind
    if !isRequired && !mentioned.contains kind then none
    else
      let declared := declaresType l kind.typeName source
      if declared && !isRequired then none
      else some ⟨kind, !declared, isRequired || !declared⟩

/-- The verdict of a case that is not run, with its members in their usual order. -/
def errorVerdict (expected message : Text) : Text :=
  "\x7b\"status\":\"error\",\"expected\":" ++ expected ++
    ",\"actual\":null,\"time\":0,\"error\":" ++ Node.quote message ++ ['}']

/-- What is said of a case with the wrong number of inputs. -/
def arityMessage (index inputs arity : Nat) : Text :=
  "test case " ++ Text.ofNat (index + 1) ++ " has " ++ Text.ofNat inputs ++
    " inputs but the entry point takes " ++ Text.ofNat arity

/-- A test case in a plan for a function of some arity. -/
def caseOf (arity : Nat) (options : Options) (index : Nat) (case : TestCase) : PlannedCase :=
  let expected := case.expected.canonicalText
  ⟨index, expected,
    if case.input.length = arity then
      .runnable case.input
        (case.expected.acceptedTexts options.unordered options.severalExpected)
    else .settled (errorVerdict expected (arityMessage index case.input.length arity))⟩

/-- The plan of a harness. -/
def build (l : Language) (source : Text) (testCases : List TestCase)
    (schema : List SchemaEntry) (entryName : Option Text) (options : Option Options) : Plan :=
  let options := options.getD Options.plain
  let entry := resolve l source schema entryName
  let parameters := parametersOf schema (entry.parameters l)
  { language := l
    source := source
    entry := entry
    parameters := parameters
    structures := structuresOf l source (requiredStructures parameters entry)
    options := options
    resultIndex := resultIndexOf options schema
    cases := testCases.zipIdx.map fun (case, i) => caseOf parameters.length options i case }

/-! ## What the programs ask of it -/

/-- The structures that the program can build and read. -/
def helperKinds (p : Plan) : List Composite :=
  (p.structures.filter StructureUse.helpers).map StructureUse.kind

/-- The structures that the program defines. -/
def definitionKinds (p : Plan) : List Composite :=
  (p.structures.filter StructureUse.definition).map StructureUse.kind

/-- Whether the function is known to return nothing. -/
def returnsNothing (p : Plan) : Bool :=
  p.entry.returnType.any fun t => t.trim == ("void" : Text)

/-- Words of a return type that do not change which structure it names. -/
def neutralWords : List Text :=
  ["Optional", "typing", "null", "None", "undefined", "const", "struct"]

/-- The structure that a return type names, when it names one and nothing else. -/
def singleStructure? (returnType : Text) : Option Composite :=
  if Text.contains "[]" returnType then none
  else
    match (Text.splitWhere (fun c => !Text.isNameChar c) returnType).filter fun w =>
        w ≠ [] && w ∉ neutralWords with
    | [word] => Composite.ofName? word
    | _ => none

/-- The structure that a parameter is, not counting arrays. -/
def ownStructure? (p : PlannedParameter) : Option Composite :=
  match p.type with
  | .composite kind => some kind
  | _ => none

/-- The structure that the result is: that of the argument which counts as the result, else the one
the return type names, else the one that all structures among the arguments are. An empty result of
that kind is written by its serializer. -/
def resultKind (p : Plan) : Option Composite :=
  match p.resultIndex with
  | some k => p.parameters[k]?.bind ownStructure?
  | none =>
    match p.entry.returnType with
    | some returnType => singleStructure? returnType
    | none =>
      match p.parameters.filterMap ownStructure? with
      | [] => none
      | first :: rest => if rest.all (· == first) then some first else none

/-- The inputs of a case that is run. -/
def CaseBody.inputs? : CaseBody → Option (List Value)
  | .runnable inputs _ => some inputs
  | .settled _ => none

/-- The declared type of a parameter, or one derived from the schema and the first input there is
for it. -/
def nativeType (p : Plan) (i : Nat) : NativeType :=
  match p.parameters[i]? with
  | none => .other []
  | some parameter =>
    match parameter.declared with
    | some declared => NativeType.parse p.language declared
    | none =>
      let sample := p.cases.findSome? fun c => (CaseBody.inputs? c.body).bind fun vs => vs[i]?
      NativeType.derive p.language parameter.type sample

/-- The name of an argument's variable. -/
def argument (i : Nat) : Text :=
  "arg" ++ Text.ofNat i

/-- The call of the function on its arguments, on a receiver if it is wrapped. -/
def call (p : Plan) (receiver : Text) : Text :=
  let arguments := (List.range p.parameters.length).map argument
  (if p.entry.wrapped then receiver ++ ['.'] else []) ++ p.entry.name ++ ['('] ++
    Text.join ", " arguments ++ [')']

end Plan

end HarnessSynthesis
