/-
# Performing commands

What each command does, over a `Host` that reads, lists and writes files, reads the input, and runs
programs. A command ends with what it prints and, when it could not do what it was told, with the
reason. Its parts are checked in the order in which they are used: the language, the source, the
problem.
-/

import HarnessSynthesis.Command.Help
import HarnessSynthesis.Command.Workspace
import HarnessSynthesis.Harness.Program
import HarnessSynthesis.Simulation

namespace HarnessSynthesis

open Json

/-- What commands need from outside. -/
structure Host (m : Type → Type) where
  /-- The text of a file, when it can be read. -/
  read : Text → m (Option Text)
  /-- The names in a directory, when there is one. -/
  entries : Text → m (Option (List Text))
  /-- Whether a text could be written to a file. -/
  write : Text → Text → m Bool
  /-- The text of the program's own input, when it can be read. -/
  input : m (Option Text)
  /-- Running solutions. -/
  judge : Simulation.Surroundings m

/-- Why a command could not do what it was told. -/
inductive CommandError where
  | unsupportedLanguage (name : Text)
  | unreadableSource (path : Text)
  | unreadableProblem (path : Text)
  | malformedProblem (path : Text)
  | unwritable (path : Text)
  | unreadableInput
  | unreadable (path : Text)
  | malformed (path : Text)
  | unlistable (path : Text)
  | noProblem (path : Text)
  | noProblems
  | noVerdicts (e : Recovery.RecoveryError)
  | runFailed (f : Failure)
  | casesFailed (passed total : Nat)
  | runsFailed (count : Nat)
  deriving DecidableEq, Repr

def CommandError.message : CommandError → Text
  | .unsupportedLanguage name =>
    ("Unsupported language '" ++ name ++ "' (expected typescript, python, java or cpp)" : Text)
  | .unreadableSource path => ("Failed to read source " ++ path : Text)
  | .unreadableProblem path => ("Failed to read problem " ++ path : Text)
  | .malformedProblem path => ("Failed to parse problem " ++ path : Text)
  | .unwritable path => ("Failed to write " ++ path : Text)
  | .unreadableInput => "Failed to read stdin"
  | .unreadable path => ("Failed to read " ++ path : Text)
  | .malformed path => ("Failed to parse " ++ path : Text)
  | .unlistable path => ("Failed to list " ++ path : Text)
  | .noProblem path => (path ++ " is not a problem record" : Text)
  | .noProblems => "No problems found"
  | .noVerdicts e => e.message
  | .runFailed f => f.contexts.getLast?.getD f.cause
  | .casesFailed passed total =>
    (Text.ofNat passed ++ " of " ++ Text.ofNat total ++ " test cases passed" : Text)
  | .runsFailed count => (Text.ofNat count ++ " runs did not pass" : Text)

/-- What a command printed, what it remarked, and why it failed if it did. -/
structure Performance where
  output : Text
  remark : Text
  failure : Option CommandError
  deriving Repr

namespace Performance

/-- A command that only printed. -/
def printed (output : Text) : Performance := ⟨output, [], none⟩

/-- The exit status: zero for success. -/
def exitStatus (p : Performance) : Nat :=
  if p.failure.isSome then 1 else 0

/-- Everything that is printed aside: the remark, and the line that tells the reason. -/
def aside (p : Performance) : Text :=
  p.remark ++ (match p.failure with
    | some e => ("Error: " ++ e.message ++ "\n" : Text)
    | none => [])

end Performance

namespace Command

/-- The exit status of a line that is no command. -/
def usageStatus : Nat := 2

variable {m : Type → Type} [Monad m]

/-! ## What is read -/

def languageOf (name : Text) : ExceptT CommandError m Language :=
  match Language.ofName? name with
  | some l => pure l
  | none => throw (.unsupportedLanguage name)

def readSource (host : Host m) (path : Text) : ExceptT CommandError m Text := do
  match ← host.read path with
  | some t => return t
  | none => throw (.unreadableSource path)

/-- The one problem in a file. -/
def readProblem (host : Host m) (path : Text) : ExceptT CommandError m Problem := do
  match ← host.read path with
  | none => throw (.unreadableProblem path)
  | some t =>
    match Problem.decoder.decodeText t with
    | .ok p => return p
    | .error _ => throw (.malformedProblem path)

/-- The problems in a value: a list of them, or one. -/
def problemsOf (v : Value) : Except Fault (List Problem) :=
  match v with
  | .array items => (Decoder.list Problem.decoder).decodeValue (.array items)
  | v => (Problem.decoder.decodeValue v).map fun p => [p]

/-- The problems in a file. -/
def readProblemFile (host : Host m) (path : Text) : ExceptT CommandError m (List Problem) := do
  match ← host.read path with
  | none => throw (.unreadable path)
  | some t =>
    match Value.parse? t with
    | none => throw (.malformed path)
    | some v =>
      match problemsOf v with
      | .ok found => return found
      | .error _ => throw (.noProblem path)

/-- Whether a file is one that holds problems, going by the end of its name. A name that is
nothing but an ending has none. -/
def holdsProblems (name : Text) : Bool :=
  match Text.beforeSuffix? ".json" name with
  | some before => !before.isEmpty
  | none => false

/-- The path of a name in a directory. -/
def within (directory name : Text) : Text :=
  if directory.isEmpty || Text.endsWith "/" directory then directory ++ name
  else directory ++ "/" ++ name

/-- Names in their order, each once. -/
def arranged (names : List Text) : List Text :=
  (names.mergeSort fun a b => !decide (b < a)).eraseDups

/-- How deep directories may lie in one another; a path that names more is too long to exist. -/
def maxDirectories : Nat := 4096

/-- The problems at a path: in a file, or in all files of a directory in the order of their
names. -/
def readProblems (host : Host m) :
    (levels : Nat) → (path : Text) → ExceptT CommandError m (List Problem)
  | 0, path => throw (.unlistable path)
  | levels + 1, path => do
    match ← host.entries path with
    | none => readProblemFile host path
    | some names =>
      let found ← (arranged (names.filter holdsProblems)).mapM fun name =>
        readProblems host levels (within path name)
      return found.flatten

/-! ## What is done -/

/-- An indented document on lines of its own. -/
def document (n : Node) : Text :=
  n.writeIndented 0 ++ ['\n']

/-- The entry point of a source and its candidates, members in the order of their names. -/
def showResolution (host : Host m) (name source : Text) (problem : Option Text) :
    ExceptT CommandError m Performance := do
  let l ← languageOf name
  let code ← readSource host source
  let stated ← problem.mapM (readProblem host)
  let request : ResolveRequest :=
    ⟨l, code, (stated.map Problem.schema).getD [], stated.bind Problem.entryName⟩
  return .printed (document (.ofValue ((request.answer.toValue? maxLevels).getD .null)))

/-- A program, printed or written to a file. -/
def showProgram (host : Host m) (name source problem : Text) (callOnly : Bool)
    (out : Option Text) : ExceptT CommandError m Performance := do
  let l ← languageOf name
  let code ← readSource host source
  let p ← readProblem host problem
  let program :=
    if callOnly then
      CallRequest.program ⟨l, code, p.schema, p.entryName, some p.options⟩
    else (RunRequest.forProblem p l code).program
  match out with
  | none => return .printed program
  | some path =>
    if ← host.write path program then
      return ⟨[], ("Wrote " ++ l.name ++ " harness to " ++ path ++ "\n" : Text), none⟩
    else throw (.unwritable path)

/-- The verdicts in a captured output. -/
def showVerdicts (host : Host m) (input : Text) : ExceptT CommandError m Performance := do
  let raw ← if input = ownInput then
      match ← host.input with
      | some t => pure t
      | none => throw .unreadableInput
    else
      match ← host.read input with
      | some t => pure t
      | none => throw (.unreadable input)
  match Recovery.extractVerdicts raw with
  | .ok verdicts => return .printed (document (.array (verdicts.map Verdict.encode)))
  | .error e => throw (.noVerdicts e)

/-- The report on a run. -/
def showRun (host : Host m) (name source problem : Text) :
    ExceptT CommandError m Performance := do
  let l ← languageOf name
  let code ← readSource host source
  let p ← readProblem host problem
  match ← host.judge.run (.forProblem p l code) with
  | .error f => throw (.runFailed f)
  | .ok report =>
    return ⟨document report.encode, [],
      if report.status = .passed then none else some (.casesFailed report.passed report.total)⟩

/-- The log and the counts of a simulation. -/
def showSimulation (host : Host m) (path : Text) (stopsOnFailure : Bool) :
    ExceptT CommandError m Performance := do
  let found ← readProblems host maxDirectories path
  if found.isEmpty then throw .noProblems
  let s ← (Simulation.run host.judge found (.start stopsOnFailure) : m Simulation)
  let bad := s.stats.failed + s.stats.errored
  let lines := (s.log ++ [[]]).flatMap fun line => line ++ ['\n']
  return ⟨lines ++ document s.stats.encode, [],
    if bad = 0 then none else some (.runsFailed bad)⟩

/-- A command performed to its end or to the first thing that stops it. -/
def perform (c : Command) (host : Host m) : m Performance := do
  let done ← ExceptT.run <| match c with
    | .resolve language source problem => showResolution host language source problem
    | .synth language source problem callOnly out =>
      showProgram host language source problem callOnly out
    | .extract input => showVerdicts host input
    | .run language source problem => showRun host language source problem
    | .simulate problems stopsOnFailure => showSimulation host problems stopsOnFailure
    | .help topic => pure (.printed topic.page)
  return match done with
    | .ok p => p
    | .error e => ⟨[], [], some e⟩

end Command

end HarnessSynthesis
