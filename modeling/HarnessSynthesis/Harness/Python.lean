/-
# Harnesses in Python

A program stands in this order: imports, definitions of structures, the user's source, parsers and
serializers, the function that turns results into plain data, and the runtime. Behind it the test
harness defines a function for each case and then runs them all, and the call program reads its
arguments from its input.
-/

import HarnessSynthesis.Fragments.Catalog
import HarnessSynthesis.Harness.Plan
import HarnessSynthesis.Literal
import HarnessSynthesis.Recovery

namespace HarnessSynthesis.Harness.Python

open Fragments

/-- What user programs may use without importing it. -/
def imports : Text := block [
  "import bisect",
  "import collections",
  "import contextlib",
  "import functools",
  "import heapq",
  "import io",
  "import itertools",
  "import json",
  "import math",
  "import re",
  "import string",
  "import sys",
  "import time",
  "from collections import Counter, OrderedDict, defaultdict, deque",
  "from functools import lru_cache, reduce",
  "from typing import *",
  "",
  "sys.setrecursionlimit(10 ** 6)"]

/-- The function that turns a result into plain data, structures by their serializers. -/
def toPlain (kinds : List Composite) : Text :=
  lines ["def _harness_to_plain(value):"] ++
    (kinds.flatMap fun k => lines
      ["    if isinstance(value, " ++ k.typeName ++ "):",
        "        return " ++ k.serializerName .python ++ "(value)"]) ++
    "    return _harness_plain_builtin(value)"

/-- Everything in front of the cases or the call. -/
def opening (p : Plan) : Text :=
  paragraph imports ++
    (p.definitionKinds.flatMap fun k => paragraph (k.fragments .python).definition) ++
    paragraph p.source ++
    (p.helperKinds.flatMap fun k =>
      paragraph (k.fragments .python).parser ++ paragraph (k.fragments .python).serializer) ++
    paragraph (toPlain p.helperKinds) ++ paragraph (Language.runtime .python)

/-- The result in a variable; an empty structure goes through its serializer. -/
def plainResult (p : Plan) (name : Text) : Text :=
  match p.resultKind with
  | some k =>
    k.serializerName .python ++ "(None) if " ++ name ++ " is None else " ++ name
  | none => name

/-- An expression that converts an input to the shape of a parameter. -/
def convert : SchemaType → (expression : Text) → (depth : Nat) → Text
  | .composite k, e, _ => k.parserName .python ++ ['('] ++ e ++ [')']
  | .array element, e, depth =>
    if element.composite?.isSome then
      let name := "jv" ++ Text.ofNat depth
      ['['] ++ convert element name (depth + 1) ++ " for " ++ name ++ " in (" ++ e ++
        " or [])]"
    else e
  | _, e, _ => e

/-- A truth value. -/
def truth (b : Bool) : Text :=
  if b then "True" else "False"

/-- The name of a case's function. -/
def caseName (c : PlannedCase) : Text :=
  "_harness_case_" ++ Text.ofNat c.index

/-- The function of a case that is run. -/
def caseFunction (p : Plan) (c : PlannedCase) : Text :=
  match c.body with
  | .settled _ => []
  | .runnable inputs _ =>
    let returned := match p.resultIndex with
      | some k => Plan.argument k
      | none => "result"
    lines ["def " ++ caseName c ++ "(timer):"] ++
      ((inputs.zip p.parameters).zipIdx.flatMap fun ((v, parameter), i) => lines
        ["    " ++ Plan.argument i ++ " = " ++ Literal.write .python parameter.type none v]) ++
      lines ["    with timer:",
        "        result = " ++ p.call "Solution()",
        "    return " ++ plainResult p returned,
        [],
        []]

/-- The statement that adds a case's verdict to the list. -/
def caseRun (p : Plan) (c : PlannedCase) : Text :=
  match c.body with
  | .settled verdict =>
    lines ["_harness_verdicts.append(json.loads(" ++ Literal.string .python verdict ++ "))"]
  | .runnable _ accepted =>
    lines ["_harness_verdicts.append(_harness_run_case(" ++ caseName c ++ ", " ++
      Literal.string .python c.expected ++ ", [" ++
      Text.join ", " (accepted.map (Literal.string .python)) ++ "], " ++
      truth p.options.unordered ++ "))"]

/-- The program that runs all cases and prints their verdicts in the frame. -/
def testHarness (p : Plan) : Text :=
  opening p ++ p.cases.flatMap (caseFunction p) ++ lines ["_harness_verdicts = []"] ++
    p.cases.flatMap (caseRun p) ++
    lines ["print(" ++ Literal.string .python Recovery.startMark ++ ")",
      "print(json.dumps(_harness_verdicts, separators=(\",\", \":\"), ensure_ascii=False))",
      "print(" ++ Literal.string .python Recovery.endMark ++ ")"]

/-- The program that reads one list of arguments and prints the result. What the user prints goes
to the error stream. -/
def callProgram (p : Plan) : Text :=
  opening p ++
    lines ["_harness_line = sys.stdin.readline()",
      "_harness_args = json.loads(_harness_line) if _harness_line.strip() else []",
      "with contextlib.redirect_stdout(sys.stderr):"] ++
    (p.parameters.zipIdx.flatMap fun (parameter, i) => lines
      ["    " ++ Plan.argument i ++ " = " ++
        convert parameter.type ("_harness_args[" ++ Text.ofNat i ++ [']']) 0]) ++
    lines ["    _harness_result = " ++ p.call "Solution()"] ++
    (match p.resultIndex with
      | some k => lines ["_harness_result = " ++ Plan.argument k]
      | none => []) ++
    lines ["_harness_actual = _harness_to_plain(" ++ plainResult p "_harness_result" ++ ")"] ++
    (if p.options.unordered then lines ["_harness_actual = _harness_normalize(_harness_actual)"]
      else []) ++
    lines ["print(_harness_dumps(_harness_actual))"]

end HarnessSynthesis.Harness.Python
