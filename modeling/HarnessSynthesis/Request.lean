/-
# Requests

What is asked for: a harness that runs test cases, a program that answers one call read from its
input, or only which function they would call. The last two need no test cases.
-/

import HarnessSynthesis.Language
import HarnessSynthesis.Problem

namespace HarnessSynthesis

open Json

/-- One solution and the test cases to run it against. -/
structure RunRequest where
  language : Language
  source : Text
  testCases : List TestCase
  schema : List SchemaEntry
  entryName : Option Text
  options : Option Options
  deriving Repr

namespace RunRequest

/-- A solution of a stored problem, with everything the problem states. -/
def forProblem (p : Problem) (l : Language) (source : Text) : RunRequest where
  language := l
  source := source
  testCases := p.testCases
  schema := p.schema
  entryName := p.entryName
  options := some p.options

def decoder : Decoder RunRequest :=
  (Shape.field "language" Language.decoder .required <|
    .field "source" Decoder.text .required <|
    .field "testCases" (Decoder.list TestCase.decoder) .required <|
    .field "inputSchema" (Decoder.list SchemaEntry.decoder) .required <|
    .field "entryName" (Decoder.nullable Decoder.text) (.default none) <|
    .field "options" (Decoder.nullable Options.decoder) (.default none) .done).decoder.map
  fun (language, source, testCases, schema, entryName, options, ()) =>
    ⟨language, source, testCases, schema, entryName, options⟩

def encode (r : RunRequest) : Node :=
  .record [("language", r.language.encode), ("source", .text r.source),
    ("testCases", .array (r.testCases.map TestCase.encode)),
    ("inputSchema", .array (r.schema.map SchemaEntry.encode)),
    ("entryName", Node.ofOption .text r.entryName),
    ("options", Node.ofOption Options.encode r.options)]

end RunRequest

/-- One solution that is to be called on an input that comes later. -/
structure CallRequest where
  language : Language
  source : Text
  schema : List SchemaEntry
  entryName : Option Text
  options : Option Options
  deriving Repr

namespace CallRequest

def decoder : Decoder CallRequest :=
  (Shape.field "language" Language.decoder .required <|
    .field "source" Decoder.text .required <|
    .field "inputSchema" (Decoder.list SchemaEntry.decoder) .required <|
    .field "entryName" (Decoder.nullable Decoder.text) (.default none) <|
    .field "options" (Decoder.nullable Options.decoder) (.default none) .done).decoder.map
  fun (language, source, schema, entryName, options, ()) =>
    ⟨language, source, schema, entryName, options⟩

end CallRequest

/-- A question about the entry point of a source. -/
structure ResolveRequest where
  language : Language
  source : Text
  schema : List SchemaEntry
  entryName : Option Text
  deriving DecidableEq, Repr

namespace ResolveRequest

def decoder : Decoder ResolveRequest :=
  (Shape.field "language" Language.decoder .required <|
    .field "source" Decoder.text .required <|
    .field "inputSchema" (Decoder.list SchemaEntry.decoder) (.default []) <|
    .field "entryName" (Decoder.nullable Decoder.text) (.default none) .done).decoder.map
  fun (language, source, schema, entryName, ()) => ⟨language, source, schema, entryName⟩

end ResolveRequest

end HarnessSynthesis
