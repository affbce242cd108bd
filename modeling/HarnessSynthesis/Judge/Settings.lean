/-
# Reaching the judge

Where the judge is and how long to wait for it. Both come from variables that may be unset, and a
waiting time that is no number counts as unset too.
-/

import HarnessSynthesis.Number.Numeral

namespace HarnessSynthesis

/-- Where the judge is and how long to wait for it. -/
structure JudgeSettings where
  address : Text
  waitMilliseconds : Nat
  deriving DecidableEq, Repr

namespace JudgeSettings

def defaultAddress : Text := "http://127.0.0.1:2358"

def defaultWait : Nat := 10000

/-- A waiting time as it is given: decimal digits, perhaps behind a plus sign, for a word of 64
bits. -/
def wait? (given : Text) : Option Nat := do
  let n ← Numeral.natural? ((Text.afterPrefix? "+" given).getD given)
  guard (n ≤ Word.greatest 64)
  return n

/-- The settings from the variables for the address and for the waiting time. -/
def ofVariables (address wait : Option Text) : JudgeSettings where
  address := address.getD defaultAddress
  waitMilliseconds := (wait.bind wait?).getD defaultWait

/-- Where programs are sent. -/
def executePath : Text := "/execute"

/-- The address to which programs are sent: slashes at the end of the judge's own do not count. -/
def executeAddress (judge : Text) : Text :=
  Text.dropEndWhile (· = '/') judge ++ executePath

/-- Where programs are sent under these settings. -/
def endpoint (s : JudgeSettings) : Text :=
  executeAddress s.address

end JudgeSettings

/-- Why the judge gave no answer. -/
inductive JudgeError where
  | timeout (milliseconds : Nat)
  | status (code : Nat) (body : Text)
  deriving DecidableEq, Repr

def JudgeError.message : JudgeError → Text
  | .timeout milliseconds =>
    ("judge request timed out after " ++ Text.ofNat milliseconds ++ "ms" : Text)
  | .status code body => ("judge returned " ++ Text.ofNat code ++ ": " ++ body : Text)

end HarnessSynthesis
