/-
# Problems

A stored problem states its inputs, its test cases, how results are compared, and the
implementations that claim to solve it.
-/

import HarnessSynthesis.Json.Decoder

namespace HarnessSynthesis

open Json

/-- An input of the function to be called, in order of declaration. -/
structure SchemaEntry where
  name : Text
  typeName : Text
  /-- Whether the function changes this input instead of returning a result. -/
  inPlace : Option Bool
  deriving DecidableEq, Repr

namespace SchemaEntry

def decoder : Decoder SchemaEntry :=
  (Shape.field "name" Decoder.text .required <|
    .field "type" Decoder.text .required <|
    .field "inplace" (Decoder.nullable Decoder.bool) (.default none) .done).decoder.map
  fun (name, typeName, inPlace, ()) => ⟨name, typeName, inPlace⟩

def encode (e : SchemaEntry) : Node :=
  .recordWith [("name", .text e.name), ("type", .text e.typeName)]
    [("inplace", e.inPlace.map .bool)]

end SchemaEntry

/-- Arguments and the result they should give. -/
structure TestCase where
  input : List Value
  expected : Value
  deriving Repr

namespace TestCase

def decoder : Decoder TestCase :=
  (Shape.field "input" (Decoder.list Decoder.value) .required <|
    .field "expectedOutput" Decoder.value .required .done).decoder.map
  fun (input, expected, ()) => ⟨input, expected⟩

def encode (c : TestCase) : Node :=
  .record [("input", .array (c.input.map .ofValue)), ("expectedOutput", .ofValue c.expected)]

end TestCase

/-- How results are compared and which value counts as the result. -/
structure Options where
  /-- The order of elements does not count. -/
  unordered : Bool
  /-- The elements of the expectation are alternatives. -/
  severalExpected : Bool
  /-- An input counts as the result after the call. -/
  returnsInput : Bool
  inputIndex : Nat
  deriving DecidableEq, Repr

namespace Options

/-- Results are compared as they are. -/
def plain : Options := ⟨false, false, false, 0⟩

def decoder : Decoder Options :=
  (Shape.field "unordered" Decoder.bool (.default false) <|
    .field "multiExpected" Decoder.bool (.default false) <|
    .field "returnModifiedInput" Decoder.bool (.default false) <|
    .field "modifiedInputIndex" (Decoder.word 64) (.default 0) .done).decoder.map
  fun (unordered, several, returnsInput, index, ()) => ⟨unordered, several, returnsInput, index⟩

def encode (o : Options) : Node :=
  .record [("unordered", .bool o.unordered), ("multiExpected", .bool o.severalExpected),
    ("returnModifiedInput", .bool o.returnsInput), ("modifiedInputIndex", .int o.inputIndex)]

end Options

/-- One text of an implementation, with what it is for. -/
structure CodeEntry where
  kind : Text
  code : Text
  deriving DecidableEq, Repr

namespace CodeEntry

def decoder : Decoder CodeEntry :=
  (Shape.field "codeType" Decoder.text .required <|
    .field "code" Decoder.text .required .done).decoder.map
  fun (kind, code, ()) => ⟨kind, code⟩

def encode (e : CodeEntry) : Node :=
  .record [("codeType", .text e.kind), ("code", .text e.code)]

end CodeEntry

/-- An implementation in a language, given by a name that may be unknown. -/
structure Implementation where
  language : Text
  code : List CodeEntry
  deriving DecidableEq, Repr

namespace Implementation

def decoder : Decoder Implementation :=
  (Shape.field "lang" Decoder.text .required <|
    .field "code" (Decoder.list CodeEntry.decoder) (.default []) .done).decoder.map
  fun (language, code, ()) => ⟨language, code⟩

def encode (i : Implementation) : Node :=
  .record [("lang", .text i.language), ("code", .array (i.code.map CodeEntry.encode))]

end Implementation

/-- A problem as it is stored. -/
structure Problem where
  id : Option Text
  title : Option Text
  entryName : Option Text
  testCases : List TestCase
  schema : List SchemaEntry
  options : Options
  implementations : List Implementation
  deriving Repr

namespace Problem

def decoder : Decoder Problem :=
  (Shape.field "id" (Decoder.nullable Decoder.text) (.default none) <|
    .field "title" (Decoder.nullable Decoder.text) (.default none) <|
    .field "entryName" (Decoder.nullable Decoder.text) (.default none) <|
    .field "test_cases" (Decoder.list TestCase.decoder) .required <|
    .field "input_schema" (Decoder.list SchemaEntry.decoder) .required <|
    .field "options" Options.decoder (.default Options.plain) <|
    .field "implementations" (Decoder.list Implementation.decoder) (.default []) .done).decoder.map
  fun (id, title, entryName, testCases, schema, options, implementations, ()) =>
    ⟨id, title, entryName, testCases, schema, options, implementations⟩

def encode (p : Problem) : Node :=
  .record [("id", Node.ofOption .text p.id), ("title", Node.ofOption .text p.title),
    ("entryName", Node.ofOption .text p.entryName),
    ("test_cases", .array (p.testCases.map TestCase.encode)),
    ("input_schema", .array (p.schema.map SchemaEntry.encode)), ("options", p.options.encode),
    ("implementations", .array (p.implementations.map Implementation.encode))]

/-- What a problem is called: its title, or else its identifier. -/
def label (p : Problem) : Text :=
  (p.title <|> p.id).getD "untitled"

end Problem

end HarnessSynthesis
