/-
# Verdicts

A harness prints one verdict for each test case: whether the case passed, what was expected, what
came out, how long it took, and what was logged or went wrong.
-/

import HarnessSynthesis.Json.Decoder

namespace HarnessSynthesis

open Json

/-- How a test case ended. -/
inductive Status where
  | pass
  | fail
  | error
  deriving DecidableEq, Repr

namespace Status

def name : Status → Text
  | .pass => "pass"
  | .fail => "fail"
  | .error => "error"

def ofName? (written : Text) : Option Status :=
  [Status.pass, .fail, .error].find? fun s => s.name = written

end Status

/-- The outcome of one test case as a harness prints it. -/
structure Verdict where
  status : Status
  expected : Value
  actual : Value
  time : Binary64
  logs : Option Text
  error : Option Text
  deriving Repr

namespace Verdict

/-- Only the status must be given. -/
def decoder : Decoder Verdict :=
  (Shape.field "status" (Decoder.oneOf Status.ofName?) .required <|
    .field "expected" Decoder.value (.default .null) <|
    .field "actual" Decoder.value (.default .null) <|
    .field "time" Decoder.double (.default (Binary64.zero false)) <|
    .field "logs" (Decoder.nullable Decoder.text) (.default none) <|
    .field "error" (Decoder.nullable Decoder.text) (.default none) .done).decoder.map
  fun (status, expected, actual, time, logs, error, ()) =>
    ⟨status, expected, actual, time, logs, error⟩

/-- The verdict with its status first; logs and error stand only where there are some. -/
def encode (v : Verdict) : Node :=
  .recordWith
    [("status", .text v.status.name), ("expected", .ofValue v.expected),
      ("actual", .ofValue v.actual), ("time", .number (some (.binary v.time)))]
    [("logs", v.logs.map .text), ("error", v.error.map .text)]

end Verdict

end HarnessSynthesis
