/-
# Harnesses in C++

A program stands in this order: headers, definitions of structures, the user's source, the first
half of the runtime, parsers and serializers, the overloads that convert structures, the container
templates of the second half, and the conversions back. A template sees only what is declared in
front of it, so the overloads have to stand between the halves.
-/

import HarnessSynthesis.Fragments.Catalog
import HarnessSynthesis.Harness.Plan
import HarnessSynthesis.Literal
import HarnessSynthesis.Recovery

namespace HarnessSynthesis.Harness.Cpp

open Fragments

/-- The headers that every program includes. -/
def headers : List Text :=
  ["algorithm", "bitset", "cctype", "cerrno", "chrono", "climits", "cmath", "cstdio", "cstdlib",
    "deque", "functional", "iomanip", "iostream", "map", "numeric", "queue", "set", "sstream",
    "stack", "string", "tuple", "unordered_map", "unordered_set", "utility", "vector"]

/-- The overload that converts a structure to JSON. Only intervals are passed by reference. -/
def overload (k : Composite) : Text :=
  let parameter : Text := if k = .interval then "const Interval&" else k.cppType
  lines ["JsonValue toJsonValue(" ++ parameter ++ " value) \x7b return " ++
    k.serializerName .cpp ++ "(value); \x7d"]

/-- The conversion of JSON to a structure. -/
def conversion (k : Composite) : Text :=
  lines ["template <> struct JsonConvert<" ++ k.cppType ++ "> \x7b",
    "    static " ++ k.cppType ++ " from(const JsonValue& v) \x7b return " ++ k.parserName .cpp ++
      "(v); \x7d",
    "\x7d;",
    []]

/-- Everything in front of the functions of the cases or the main function. -/
def opening (p : Plan) : Text :=
  paragraph (lines (headers.map fun h => "#include <" ++ h ++ ['>']) ++
      block ["", "using namespace std;"]) ++
    (p.definitionKinds.flatMap fun k => paragraph (k.fragments .cpp).definition) ++
    paragraph p.source ++ paragraph (Language.runtime .cpp) ++
    (p.helperKinds.flatMap fun k =>
      paragraph (k.fragments .cpp).parser ++ paragraph (k.fragments .cpp).serializer) ++
    paragraph (p.helperKinds.flatMap overload) ++ paragraph Fragments.Cpp.templates ++
    paragraph (p.helperKinds.flatMap conversion)

/-- The statements that make the call and leave its converted value in `actual`. A timed call ends
the capture of its output, another one gives the output stream back. -/
def callStatements (p : Plan) (indent : Text) (timed : Bool) : Text :=
  let call := p.call "harnessInstance"
  let (made, converted) : Text × Text := match p.resultIndex with
    | some k => (lines [indent ++ call ++ [';']], "toJsonValue(" ++ Plan.argument k ++ [')'])
    | none =>
      if p.returnsNothing then (lines [indent ++ call ++ [';']], "JsonValue()")
      else (lines [indent ++ "auto result = " ++ call ++ [';']], "toJsonValue(result)")
  (if p.entry.wrapped then lines [indent ++ "Solution harnessInstance;"] else []) ++
    (if timed then lines [indent ++ "started = chrono::steady_clock::now();"] else []) ++
    made ++
    (if timed then
      lines [indent ++ "time = chrono::duration<double, milli>" ++
        "(chrono::steady_clock::now() - started).count();",
        indent ++ "capture.restore();"]
    else lines [indent ++ "cout.rdbuf(harnessSaved);"]) ++
    lines [indent ++ "JsonValue actual = " ++ converted ++ [';']] ++
    (if p.options.unordered then lines [indent ++ "actual = harnessNormalize(actual);"] else [])

/-- The function of a case that is run. -/
def caseFunction (p : Plan) (c : PlannedCase) : Text :=
  match c.body with
  | .settled _ => []
  | .runnable inputs accepted =>
    lines ["string runCase" ++ Text.ofNat c.index ++ "() \x7b",
        "    const string expectedJson = " ++ Literal.string .cpp c.expected ++ [';'],
        "    const vector<string> accepted = \x7b" ++
          Text.join ", " (accepted.map (Literal.string .cpp)) ++ "\x7d;",
        "    HarnessCapture capture;",
        "    auto started = chrono::steady_clock::now();",
        "    double time = 0;",
        "    try \x7b"] ++
      ((inputs.zip p.parameters).zipIdx.flatMap fun ((v, parameter), i) =>
        let declared := (p.nativeType i).render .cpp false
        lines ["        " ++ declared ++ [' '] ++ Plan.argument i ++ " = " ++
          Literal.write .cpp parameter.type (some declared) v ++ [';']]) ++
      callStatements p "        " true ++
      lines ["        string actualJson = harnessStringify(actual);",
        "        bool matched = " ++
          "find(accepted.begin(), accepted.end(), actualJson) != accepted.end();",
        "        return harnessVerdict(matched ? \"pass\" : \"fail\", " ++
          "expectedJson, actualJson, time, capture.buffer.str(), false, \"\");",
        "    \x7d catch (const exception& e) \x7b",
        "        capture.restore();",
        "        if (time == 0) time = " ++
          "chrono::duration<double, milli>(chrono::steady_clock::now() - started).count();",
        "        return harnessVerdict(\"error\", expectedJson, \"null\", time, " ++
          "capture.buffer.str(), true, e.what());",
        "    \x7d catch (...) \x7b",
        "        capture.restore();",
        "        return harnessVerdict(\"error\", expectedJson, \"null\", time, " ++
          "capture.buffer.str(), true, \"unknown exception\");",
        "    \x7d",
        "\x7d",
        []]

/-- The statement that adds a case's verdict to the list. -/
def caseRun (c : PlannedCase) : Text :=
  match c.body with
  | .settled verdict => lines ["    verdicts.push_back(" ++ Literal.string .cpp verdict ++ ");"]
  | .runnable _ _ => lines ["    verdicts.push_back(runCase" ++ Text.ofNat c.index ++ "());"]

/-- The program that runs all cases and prints their verdicts in the frame. -/
def testHarness (p : Plan) : Text :=
  opening p ++ p.cases.flatMap (caseFunction p) ++
    lines ["int main() \x7b", "    vector<string> verdicts;"] ++ p.cases.flatMap caseRun ++
    lines ["    cout << " ++ Literal.string .cpp Recovery.startMark ++ " << \"\\n\";",
      "    cout << \"[\";",
      "    for (size_t i = 0; i < verdicts.size(); i++) cout << (i ? \",\" : \"\") << verdicts[i];",
      "    cout << \"]\\n\";",
      "    cout << " ++ Literal.string .cpp Recovery.endMark ++ " << endl;",
      "    return 0;",
      "\x7d"]

/-- The program that reads one list of arguments and prints the result. What the user prints goes
to the error stream. -/
def callProgram (p : Plan) : Text :=
  opening p ++
    lines ["int main() \x7b",
      "    string line;",
      "    getline(cin, line);",
      "    JsonValue input = harnessParseJson(line.empty() ? string(\"[]\") : line);",
      "    while (input.items.size() < " ++ Text.ofNat p.parameters.length ++
        ") input.items.push_back(JsonValue());",
      "    streambuf* harnessSaved = cout.rdbuf(cerr.rdbuf());"] ++
    ((List.range p.parameters.length).flatMap fun i =>
      let declared := (p.nativeType i).render .cpp false
      lines ["    " ++ declared ++ [' '] ++ Plan.argument i ++ " = JsonConvert<" ++ declared ++
        ">::from(input.items[" ++ Text.ofNat i ++ "]);"]) ++
    callStatements p "    " false ++
    lines ["    cout << harnessStringify(actual) << endl;", "    return 0;", "\x7d"]

end HarnessSynthesis.Harness.Cpp
