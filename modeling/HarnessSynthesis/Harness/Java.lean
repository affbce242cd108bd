/-
# Harnesses in Java

A program stands in this order: imports, definitions of structures, the user's source if it has a
solution class, and the class of the harness. That holds the user's source otherwise, the runtime,
parsers and serializers, the method that turns results into plain data, a method for each case, and
the main method.
-/

import HarnessSynthesis.Fragments.Catalog
import HarnessSynthesis.Harness.JavaSource
import HarnessSynthesis.Harness.Plan
import HarnessSynthesis.Literal
import HarnessSynthesis.Recovery

namespace HarnessSynthesis.Harness.Java

open Fragments

/-- What every program imports. -/
def imports : List Text :=
  ["import java.util.*;", "import java.util.stream.*;", "import java.io.*;"]

/-- The members that read captured output and the message of an exception. -/
def captureMembers : Text := block [
  "    static String harnessLogs(ByteArrayOutputStream captured) \x7b",
  "        try \x7b",
  "            return captured.toString(\"UTF-8\");",
  "        \x7d catch (UnsupportedEncodingException e) \x7b",
  "            return captured.toString();",
  "        \x7d",
  "    \x7d",
  "",
  "    static String harnessErrorMessage(Throwable e) \x7b",
  "        String message = e.getMessage();",
  "        return message != null ? message : e.getClass().getSimpleName();",
  "    \x7d"]

/-- Imports with those of the user that are not among them, each once. -/
def mergeImports (own : List Text) : List Text → List Text
  | [] => own
  | statement :: rest =>
    mergeImports (if statement ∈ own then own else own ++ [statement]) rest

/-- The method that turns a result into plain data, structures by their serializers. -/
def toPlain (kinds : List Composite) : Text :=
  lines ["    static Object harnessToPlain(Object value) \x7b"] ++
    (kinds.flatMap fun k => lines
      ["        if (value instanceof " ++ k.typeName ++ ") return " ++ k.serializerName .java ++
        "((" ++ k.typeName ++ ") value);"]) ++
    block ["        return harnessPlainBuiltin(value);", "    \x7d"]

/-- Everything in front of the methods of the cases or the main method. -/
def opening (p : Plan) : Text :=
  let user := JavaSource.prepare p.entry.wrapped p.source
  paragraph (Text.join ['\n'] (mergeImports imports user.imports)) ++
    (p.definitionKinds.flatMap fun k => paragraph (k.fragments .java).definition) ++
    (if p.entry.wrapped then paragraph user.body else []) ++
    lines ["public class Main \x7b"] ++
    (if p.entry.wrapped then [] else paragraph user.body) ++
    paragraph (Language.runtime .java) ++ paragraph captureMembers ++
    (p.helperKinds.flatMap fun k =>
      paragraph (k.fragments .java).parser ++ paragraph (k.fragments .java).serializer) ++
    paragraph (toPlain p.helperKinds)

/-- The statements that make the call and leave its value in `result`, timed or not. -/
def callStatements (p : Plan) (timed : Bool) : Text :=
  let indent : Text := "            "
  let call := p.call "new Solution()"
  (if timed then lines [indent ++ "started = System.nanoTime();"] else []) ++
    (match p.resultIndex with
      | some k => lines [indent ++ call ++ [';'], indent ++ "result = " ++ Plan.argument k ++ [';']]
      | none =>
        if p.returnsNothing then lines [indent ++ call ++ [';'], indent ++ "result = null;"]
        else lines [indent ++ "result = " ++ call ++ [';']]) ++
    (if timed then lines [indent ++ "time = (System.nanoTime() - started) / 1e6;"] else [])

/-- The plain form of the result; an empty structure goes through its serializer. -/
def plainResult (p : Plan) : Text :=
  match p.resultKind with
  | some k =>
    "result == null ? " ++ k.serializerName .java ++ "(null) : harnessToPlain(result)"
  | none => "harnessToPlain(result)"

/-- A number of a boxed type, unboxed by a method. -/
def unboxed (expression method : Text) : Text :=
  "((Number) " ++ expression ++ ")." ++ method ++ "()"

/-- An array of a primitive type from a list of numbers. -/
def primitiveArray (expression bound mapping method : Text) : Text :=
  "((List<?>) " ++ expression ++ ").stream()." ++ mapping ++ ['('] ++ bound ++ " -> " ++
    unboxed bound method ++ ").toArray()"

/-- The class that collects the elements of a container. -/
def collectorClass (container : Text) : Text :=
  if container = "LinkedList" then "LinkedList"
  else if container = "Deque" ∨ container = "ArrayDeque" then "ArrayDeque"
  else "ArrayList"

/-- An expression that converts parsed input to a declared type. -/
def convert : NativeType → (expression : Text) → (depth : Nat) → Text
  | .int, e, _ => unboxed e "intValue"
  | .long, e, _ => unboxed e "longValue"
  | .short, e, _ => unboxed e "shortValue"
  | .byte, e, _ => unboxed e "byteValue"
  | .double, e, _ => unboxed e "doubleValue"
  | .float, e, _ => unboxed e "floatValue"
  | .bool, e, _ => "((Boolean) " ++ e ++ [')']
  | .char, e, _ => "String.valueOf(" ++ e ++ ").charAt(0)"
  | .str, e, _ => "((String) " ++ e ++ [')']
  | .composite k, e, _ => k.parserName .java ++ ['('] ++ e ++ [')']
  | .array element, e, depth =>
    let bound := "jv" ++ Text.ofNat depth
    match element with
    | .int => primitiveArray e bound "mapToInt" "intValue"
    | .long => primitiveArray e bound "mapToLong" "longValue"
    | .double => primitiveArray e bound "mapToDouble" "doubleValue"
    | .char => "harnessCharArray(" ++ e ++ [')']
    | .bool => "harnessBooleanArray(" ++ e ++ [')']
    | other =>
      "((List<?>) " ++ e ++ ").stream().map(" ++ bound ++ " -> " ++
        convert element bound (depth + 1) ++ ").toArray(" ++ other.render .java false ++ "[]::new)"
  | .list container element, e, depth =>
    let bound := "jv" ++ Text.ofNat depth
    "((List<?>) " ++ e ++ ").stream().<" ++ element.render .java true ++ ">map(" ++ bound ++
      " -> " ++ convert element bound (depth + 1) ++ ").collect(Collectors.toCollection(" ++
      collectorClass container ++ "::new))"
  | .other text, e, _ =>
    if text = "Object" then e else "((" ++ text ++ ") (Object) " ++ e ++ [')']

/-- The method of a case that is run. -/
def caseMethod (p : Plan) (c : PlannedCase) : Text :=
  match c.body with
  | .settled _ => []
  | .runnable inputs accepted =>
    lines ["    static String runCase" ++ Text.ofNat c.index ++ "() \x7b",
        "        String expectedJson = " ++ Literal.string .java c.expected ++ [';'],
        "        List<String> accepted = Arrays.asList(" ++
          Text.join ", " (accepted.map (Literal.string .java)) ++ ");",
        "        PrintStream originalOut = System.out;",
        "        ByteArrayOutputStream captured = new ByteArrayOutputStream();",
        "        long started = System.nanoTime();",
        "        double time = 0;",
        "        try \x7b"] ++
      ((inputs.zip p.parameters).zipIdx.flatMap fun ((v, parameter), i) =>
        let declared := (p.nativeType i).render .java false
        lines ["            " ++ declared ++ [' '] ++ Plan.argument i ++ " = " ++
          Literal.write .java parameter.type (some declared) v ++ [';']]) ++
      lines ["            Object result;",
        "            System.setOut(new PrintStream(captured, true, \"UTF-8\"));"] ++
      callStatements p true ++
      lines ["            System.setOut(originalOut);",
        "            Object actual = " ++ plainResult p ++ [';']] ++
      (if p.options.unordered then lines ["            actual = harnessNormalize(actual);"]
        else []) ++
      lines ["            String actualJson = harnessStringify(actual);",
        "            String status = accepted.contains(actualJson) ? \"pass\" : \"fail\";",
        "            return harnessVerdict(status, expectedJson, " ++
          "actualJson, time, harnessLogs(captured), null);",
        "        \x7d catch (Throwable e) \x7b",
        "            System.setOut(originalOut);",
        "            if (time == 0) time = (System.nanoTime() - started) / 1e6;",
        "            return harnessVerdict(\"error\", expectedJson, \"null\", time, " ++
          "harnessLogs(captured), harnessErrorMessage(e));",
        "        \x7d finally \x7b",
        "            System.setOut(originalOut);",
        "        \x7d",
        "    \x7d",
        []]

/-- The statement that adds a case's verdict to the list. -/
def caseRun (c : PlannedCase) : Text :=
  match c.body with
  | .settled verdict => lines ["        verdicts.add(" ++ Literal.string .java verdict ++ ");"]
  | .runnable _ _ => lines ["        verdicts.add(runCase" ++ Text.ofNat c.index ++ "());"]

/-- The program that runs all cases and prints their verdicts in the frame. -/
def testHarness (p : Plan) : Text :=
  opening p ++ p.cases.flatMap (caseMethod p) ++
    lines ["    public static void main(String[] args) \x7b",
      "        List<String> verdicts = new ArrayList<>();"] ++
    p.cases.flatMap caseRun ++
    lines ["        System.out.println(" ++ Literal.string .java Recovery.startMark ++ ");",
      "        System.out.println(\"[\" + String.join(\",\", verdicts) + \"]\");",
      "        System.out.println(" ++ Literal.string .java Recovery.endMark ++ ");",
      "    \x7d",
      "\x7d"]

/-- The program that reads one list of arguments and prints the result. What the user prints goes
to the error stream. -/
def callProgram (p : Plan) : Text :=
  opening p ++
    lines ["    public static void main(String[] args) throws Exception \x7b",
      "        BufferedReader reader = " ++
        "new BufferedReader(new InputStreamReader(System.in, \"UTF-8\"));",
      "        String line = reader.readLine();",
      "        List<?> input = (List<?>) " ++
        "harnessParseJson(line == null || line.trim().isEmpty() ? \"[]\" : line);",
      "        PrintStream originalOut = System.out;",
      "        System.setOut(System.err);",
      "        Object result;",
      "        try \x7b"] ++
    ((List.range p.parameters.length).flatMap fun i =>
      let type := p.nativeType i
      lines ["            " ++ type.render .java false ++ [' '] ++ Plan.argument i ++ " = " ++
        convert type ("input.get(" ++ Text.ofNat i ++ [')']) 0 ++ [';']]) ++
    callStatements p false ++
    lines ["        \x7d finally \x7b",
      "            System.setOut(originalOut);",
      "        \x7d",
      "        Object actual = " ++ plainResult p ++ [';']] ++
    (if p.options.unordered then lines ["        actual = harnessNormalize(actual);"] else []) ++
    lines ["        System.out.println(harnessStringify(actual));",
      "    \x7d",
      "\x7d"]

end HarnessSynthesis.Harness.Java
