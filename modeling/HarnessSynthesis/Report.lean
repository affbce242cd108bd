/-
# Run reports

What came of running one solution: the verdicts found in its output, and how they add up. A run has
passed only when every case has a verdict and all of them are good; it is errored when its output
holds no verdicts at all.
-/

import HarnessSynthesis.Language
import HarnessSynthesis.Recovery
import HarnessSynthesis.RunId
import HarnessSynthesis.Judge.Message

namespace HarnessSynthesis

open Json

/-- How a run ended. -/
inductive RunStatus where
  | passed
  | failed
  | errored
  deriving DecidableEq, Repr

namespace RunStatus

def name : RunStatus → Text
  | .passed => "passed"
  | .failed => "failed"
  | .errored => "errored"

/-- The name at the head of a remark. -/
def title : RunStatus → Text
  | .passed => "Passed"
  | .failed => "Failed"
  | .errored => "Errored"

def ofName? (written : Text) : Option RunStatus :=
  [RunStatus.passed, .failed, .errored].find? fun s => s.name = written

end RunStatus

/-- What came of one run. -/
structure RunReport where
  runId : RunId
  language : Language
  status : RunStatus
  /-- How many verdicts are good. -/
  passed : Nat
  /-- How many there should be. -/
  total : Nat
  verdicts : List Verdict
  errors : Option Text
  compilerOutput : Option Text
  deriving Repr

namespace RunReport

def decoder : Decoder RunReport :=
  (Shape.field "runId" RunId.decoder .required <|
    .field "language" Language.decoder .required <|
    .field "status" (Decoder.oneOf RunStatus.ofName?) .required <|
    .field "passed" (Decoder.word 64) .required <|
    .field "total" (Decoder.word 64) .required <|
    .field "verdicts" (Decoder.list Verdict.decoder) .required <|
    .field "stderr" (Decoder.nullable Decoder.text) (.default none) <|
    .field "compileOutput" (Decoder.nullable Decoder.text) (.default none) .done).decoder.map
  fun (runId, language, status, passed, total, verdicts, errors, compilerOutput, ()) =>
    ⟨runId, language, status, passed, total, verdicts, errors, compilerOutput⟩

def encode (r : RunReport) : Node :=
  .recordWith
    [("runId", r.runId.encode), ("language", r.language.encode), ("status", .text r.status.name),
      ("passed", .int r.passed), ("total", .int r.total),
      ("verdicts", .array (r.verdicts.map Verdict.encode))]
    [("stderr", r.errors.map .text), ("compileOutput", r.compilerOutput.map .text)]

/-- A text that is more than blanks. -/
def nonBlank (t : Option Text) : Option Text :=
  t.filter fun t => !t.trim.isEmpty

/-- How verdicts add up when there should be `total` of them. -/
def statusOf (total : Nat) (verdicts : List Verdict) : RunStatus :=
  if verdicts.all (fun v => v.status = .pass) ∧ verdicts.length = total then .passed else .failed

/-- The report on a run of `total` cases that the judge has answered. -/
def ofResponse (runId : RunId) (language : Language) (total : Nat) (r : JudgeResponse) :
    RunReport :=
  let found := Recovery.extractVerdicts (r.output.getD [])
  let verdicts := found.toOption.getD []
  { runId, language, total, verdicts
    status := if found.isOk then statusOf total verdicts else .errored
    passed := verdicts.countP fun v => v.status = .pass
    errors := nonBlank r.errors
    compilerOutput := nonBlank r.compilerOutput }

end RunReport

end HarnessSynthesis
