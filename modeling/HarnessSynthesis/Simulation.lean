/-
# Simulations

A simulation runs every stored implementation of a list of problems, one after the other, and keeps
count. Implementations without a known language or without code are skipped when the runs are
planned. Before each run the simulation looks whether somebody has asked it to stop, and it may be
told to stop by itself at the first run that does not pass.

Running and being asked to stop happen outside, in any monad: `Surroundings` holds the two actions.
Everything else is a value. `note`, `skip`, `record`, `cancel` and `stopEarly` are the only ways in
which a simulation changes, and each adds to the log.
-/

import HarnessSynthesis.Report
import HarnessSynthesis.Request

namespace HarnessSynthesis

open Json

/-! ## Runs that fail -/

/-- Why a run gave no report: what went wrong, and what was being done at the time, from the inside
to the outside. -/
structure Failure where
  cause : Text
  contexts : List Text
  deriving DecidableEq, Repr

/-- The outermost activity first and the cause last. -/
def Failure.message (f : Failure) : Text :=
  Text.join ": " (f.cause :: f.contexts).reverse

/-! ## Planning -/

/-- Why an implementation is not run. -/
inductive Skip where
  | unsupportedLanguage (name : Text)
  | noCode (l : Language)
  deriving DecidableEq, Repr

def Skip.message : Skip → Text
  | .unsupportedLanguage name => ("skipped: unsupported language '" ++ name ++ "'" : Text)
  | .noCode l => ("skipped: no " ++ l.name ++ " code" : Text)

/-- One implementation to be run, with what its problem is called. -/
structure Job where
  label : Text
  request : RunRequest
  deriving Repr

namespace Implementation

/-- Whether a text of an implementation is the solution. -/
def isSolution (e : CodeEntry) : Bool :=
  e.kind.map Char.toLower == ("solution" : Text)

/-- The text that is run: the first solution, or else the first text of any kind. -/
def entry? (i : Implementation) : Option CodeEntry :=
  i.code.find? isSolution <|> i.code.head?

/-- The run of an implementation of a problem, or why there is none. -/
def job (p : Problem) (i : Implementation) : Except Skip Job :=
  match Language.ofName? i.language with
  | none => .error (.unsupportedLanguage i.language)
  | some l =>
    match i.entry? with
    | none => .error (.noCode l)
    | some e => .ok ⟨p.label, RunRequest.forProblem p l e.code⟩

end Implementation

namespace Simulation

/-- The runs of a list of problems, in the order of the problems and of their implementations. -/
def jobs (problems : List Problem) : List Job :=
  problems.flatMap fun p => p.implementations.filterMap fun i => (i.job p).toOption

/-- What is skipped, each with what its problem is called, in the same order. -/
def skips (problems : List Problem) : List (Text × Skip) :=
  problems.flatMap fun p => p.implementations.filterMap fun i =>
    match i.job p with
    | .ok _ => none
    | .error s => some (p.label, s)

end Simulation

/-! ## The state of a simulation -/

/-- The counts of a simulation and how it ended. -/
structure Stats where
  runs : Nat
  passed : Nat
  failed : Nat
  errored : Nat
  skipped : Nat
  cancelled : Bool
  stoppedEarly : Bool
  deriving DecidableEq, Repr

namespace Stats

def zero : Stats := ⟨0, 0, 0, 0, 0, false, false⟩

/-- One more run that ended in a certain way. -/
def count (status : RunStatus) (s : Stats) : Stats :=
  match status with
  | .passed => { s with runs := s.runs + 1, passed := s.passed + 1 }
  | .failed => { s with runs := s.runs + 1, failed := s.failed + 1 }
  | .errored => { s with runs := s.runs + 1, errored := s.errored + 1 }

def encode (s : Stats) : Node :=
  .record [("runs", .int s.runs), ("passed", .int s.passed), ("failed", .int s.failed),
    ("errored", .int s.errored), ("skipped", .int s.skipped), ("cancelled", .bool s.cancelled),
    ("stopped_early", .bool s.stoppedEarly)]

end Stats

/-- What came of one job. -/
structure Outcome where
  problem : Text
  language : Language
  result : Except Failure RunReport

namespace Outcome

def report? (o : Outcome) : Option RunReport :=
  o.result.toOption

def error? (o : Outcome) : Option Text :=
  match o.result with
  | .ok _ => none
  | .error f => some f.message

/-- How the job counts; a run that failed to give a report is errored. -/
def status (o : Outcome) : RunStatus :=
  match o.result with
  | .ok r => r.status
  | .error _ => .errored

def passed (o : Outcome) : Bool :=
  o.status = .passed

/-- The line about the job in the log. -/
def line (o : Outcome) : Text :=
  let what : Text := match o.result with
    | .ok r => r.status.title ++ " (" ++ Text.ofNat r.passed ++ "/" ++ Text.ofNat r.total ++ ")"
    | .error f => "error: " ++ f.message
  "[" ++ o.problem ++ "] " ++ o.language.name ++ ": " ++ what

def encode (o : Outcome) : Node :=
  .recordWith [("problem", .text o.problem), ("language", o.language.encode)]
    [("report", o.report?.map RunReport.encode), ("error", o.error?.map .text)]

end Outcome

/-- The state of a simulation. -/
structure Simulation where
  /-- Whether the first run that does not pass is the last. -/
  stopsOnFailure : Bool
  stats : Stats
  log : List Text
  outcomes : List Outcome

namespace Simulation

/-- A simulation before anything is run. -/
def start (stopsOnFailure : Bool) : Simulation :=
  ⟨stopsOnFailure, .zero, [], []⟩

/-- One more line in the log. -/
def note (line : Text) (s : Simulation) : Simulation :=
  { s with log := s.log ++ [line] }

@[simp] theorem stats_note (line : Text) (s : Simulation) : (s.note line).stats = s.stats := rfl

@[simp] theorem log_note (line : Text) (s : Simulation) : (s.note line).log = s.log ++ [line] := rfl

@[simp] theorem outcomes_note (line : Text) (s : Simulation) :
    (s.note line).outcomes = s.outcomes := rfl

/-- One more implementation that is not run. -/
def skip (label : Text) (why : Skip) (s : Simulation) : Simulation :=
  note ("[" ++ label ++ "] " ++ why.message)
    { s with stats := { s.stats with skipped := s.stats.skipped + 1 } }

theorem stats_skip (label : Text) (why : Skip) (s : Simulation) :
    (s.skip label why).stats = { s.stats with skipped := s.stats.skipped + 1 } := rfl

theorem outcomes_skip (label : Text) (why : Skip) (s : Simulation) :
    (s.skip label why).outcomes = s.outcomes := rfl

/-- The simulation after planning: what is skipped is counted, and the log says how many runs are
to come. -/
def plan (problems : List Problem) (s : Simulation) : Simulation :=
  ((skips problems).foldl (fun s (label, why) => s.skip label why) s).note
    ("simulating " ++ Text.ofNat (jobs problems).length ++ " runs")

/-- Planning counts what is skipped and changes no other count. -/
theorem stats_plan (problems : List Problem) (s : Simulation) :
    (s.plan problems).stats =
      { s.stats with skipped := s.stats.skipped + (skips problems).length } := by
  rw [plan, stats_note]
  generalize skips problems = skipped
  induction skipped generalizing s with
  | nil => rfl
  | cons one rest ih =>
    rw [List.foldl_cons, ih, List.length_cons, stats_skip, Nat.add_assoc, Nat.add_comm 1]

/-- Planning runs nothing. -/
theorem outcomes_plan (problems : List Problem) (s : Simulation) :
    (s.plan problems).outcomes = s.outcomes := by
  rw [plan, outcomes_note]
  generalize skips problems = skipped
  induction skipped generalizing s with
  | nil => rfl
  | cons one rest ih => rw [List.foldl_cons, ih, outcomes_skip]

/-- One more job done. -/
def record (o : Outcome) (s : Simulation) : Simulation :=
  note o.line { s with stats := s.stats.count o.status, outcomes := s.outcomes ++ [o] }

/-- Ended because somebody asked for it. -/
def cancel (s : Simulation) : Simulation :=
  note "cancelled; remaining runs dropped"
    { s with stats := { s.stats with cancelled := true } }

/-- Ended because a run did not pass. -/
def stopEarly (s : Simulation) : Simulation :=
  note "stopping on first failure" { s with stats := { s.stats with stoppedEarly := true } }

/-! ## Running -/

/-- What a simulation needs from outside. -/
structure Surroundings (m : Type → Type) where
  /-- Whether somebody has asked for the simulation to stop. -/
  cancelled : m Bool
  /-- One run. -/
  run : RunRequest → m (Except Failure RunReport)

/-- The jobs one after the other. -/
def runJobs {m : Type → Type} [Monad m] (outside : Surroundings m) :
    List Job → Simulation → m Simulation
  | [], s => pure s
  | job :: rest, s => do
    if ← outside.cancelled then
      return s.cancel
    let o : Outcome := ⟨job.label, job.request.language, ← outside.run job.request⟩
    if !o.passed && s.stopsOnFailure then
      return (s.record o).stopEarly
    runJobs outside rest (s.record o)

/-- Every implementation of every problem. -/
def run {m : Type → Type} [Monad m] (outside : Surroundings m) (problems : List Problem)
    (s : Simulation) : m Simulation :=
  runJobs outside (jobs problems) (s.plan problems)

end Simulation

end HarnessSynthesis
