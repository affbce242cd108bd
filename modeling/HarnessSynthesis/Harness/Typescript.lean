/-
# Harnesses in TypeScript

A program stands in this order: definitions of structures, the user's source, parsers and
serializers, the function that turns results into plain data, and the runtime. Behind it the test
harness runs each case in a closure, and the call program reads its arguments from its input.
-/

import HarnessSynthesis.Fragments.Catalog
import HarnessSynthesis.Harness.Plan
import HarnessSynthesis.Literal
import HarnessSynthesis.Recovery

namespace HarnessSynthesis.Harness.Typescript

open Fragments

/-- The function that turns a result into plain data, structures by their serializers. -/
def toPlain (kinds : List Composite) : Text :=
  lines ["function harnessToPlain(value: any): any \x7b"] ++
    (kinds.flatMap fun k => lines
      ["    if (value instanceof " ++ k.typeName ++ ") return " ++ k.serializerName .typescript ++
        "(value);"]) ++
    block ["    return harnessPlainBuiltin(value);", "\x7d"]

/-- Everything in front of the cases or the call. -/
def opening (p : Plan) : Text :=
  (p.definitionKinds.flatMap fun k => paragraph (k.fragments .typescript).definition) ++
    paragraph p.source ++
    (p.helperKinds.flatMap fun k =>
      paragraph (k.fragments .typescript).parser ++
        paragraph (k.fragments .typescript).serializer) ++
    paragraph (toPlain p.helperKinds) ++ paragraph (Language.runtime .typescript)

/-- The result in a variable; an empty structure goes through its serializer. -/
def plainResult (p : Plan) (name : Text) : Text :=
  match p.resultKind with
  | some k =>
    ['('] ++ name ++ " === null || " ++ name ++ " === undefined) ? " ++
      k.serializerName .typescript ++ "(null) : " ++ name
  | none => name

/-- An expression that converts an input to the shape of a parameter. -/
def convert : SchemaType → (expression : Text) → (depth : Nat) → Text
  | .composite k, e, _ => k.parserName .typescript ++ ['('] ++ e ++ [')']
  | .array element, e, depth =>
    if element.composite?.isSome then
      let name := "jv" ++ Text.ofNat depth
      ['('] ++ e ++ " || []).map((" ++ name ++ ": any) => " ++
        convert element name (depth + 1) ++ [')']
    else e
  | _, e, _ => e

/-- A case of the test harness. -/
def testCase (p : Plan) (c : PlannedCase) : Text :=
  match c.body with
  | .settled verdict =>
    lines ["harnessVerdicts.push(JSON.parse(" ++ Literal.string .typescript verdict ++ "));", []]
  | .runnable inputs accepted =>
    let returned := match p.resultIndex with
      | some k => Plan.argument k
      | none => "result"
    lines ["// case " ++ Text.ofNat (c.index + 1),
        "harnessVerdicts.push(harnessRunCase((timer: HarnessTimer) => \x7b"] ++
      ((inputs.zip p.parameters).zipIdx.flatMap fun ((v, parameter), i) => lines
        ["    const " ++ Plan.argument i ++ ": any = " ++
          Literal.write .typescript parameter.type none v ++ [';']]) ++
      lines ["    timer.start();",
        "    const result: any = " ++ p.call "new Solution()" ++ [';'],
        "    timer.stop();",
        "    return " ++ plainResult p returned ++ [';'],
        "\x7d, " ++ Literal.string .typescript c.expected ++ ", [" ++
          Text.join ", " (accepted.map (Literal.string .typescript)) ++ "], " ++
          Literal.boolean p.options.unordered ++ "));",
        []]

/-- The program that runs all cases and prints their verdicts in the frame. -/
def testHarness (p : Plan) : Text :=
  opening p ++ lines ["const harnessVerdicts: any[] = [];", []] ++ p.cases.flatMap (testCase p) ++
    lines ["console.log(" ++ Literal.string .typescript Recovery.startMark ++ ");",
      "console.log(JSON.stringify(harnessVerdicts));",
      "console.log(" ++ Literal.string .typescript Recovery.endMark ++ ");"]

/-- The program that reads one list of arguments and prints the result. What the user prints goes
to the error stream. -/
def callProgram (p : Plan) : Text :=
  opening p ++
    lines ["const harnessFs: any = eval(\"require\")(\"fs\");",
      "const harnessLine: string = " ++
        "String(harnessFs.readFileSync(0, \"utf8\")).split(\"\\n\")[0] || \"\";",
      "const harnessArgs: any[] = harnessLine.trim() === \"\" ? [] : JSON.parse(harnessLine);"] ++
    (p.parameters.zipIdx.flatMap fun (parameter, i) => lines
      ["const " ++ Plan.argument i ++ ": any = " ++
        convert parameter.type ("harnessArgs[" ++ Text.ofNat i ++ [']']) 0 ++ [';']]) ++
    lines ["const harnessSavedLog = console.log;",
      "console.log = (...parts: any[]) => \x7b console.error(...parts); \x7d;",
      "let harnessResult: any;",
      "try \x7b",
      "    harnessResult = " ++ p.call "new Solution()" ++ [';'],
      "\x7d finally \x7b",
      "    console.log = harnessSavedLog;",
      "\x7d"] ++
    (match p.resultIndex with
      | some k => lines ["harnessResult = " ++ Plan.argument k ++ [';']]
      | none => []) ++
    lines ["let harnessActual: any = harnessToPlain(" ++ plainResult p "harnessResult" ++ ");"] ++
    (if p.options.unordered then lines ["harnessActual = harnessNormalize(harnessActual);"]
      else []) ++
    lines ["console.log(harnessStringify(harnessActual));"]

end HarnessSynthesis.Harness.Typescript
