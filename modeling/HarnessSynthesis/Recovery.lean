/-
# Recovering verdicts from program output

A harness frames its verdicts with two marker lines, but its output is whatever the judge captured:
users print to it, and a crash or a time limit may cut it anywhere. `extract` reads the framed list
when it is intact. Otherwise it scans for objects that start like a verdict and takes each one whose
braces balance outside strings, passing over what does not parse.
-/

import HarnessSynthesis.Verdict

namespace HarnessSynthesis.Recovery

open Json
open Text (extend extend_eq_some_iff)

/-- The line before the list of verdicts. -/
def startMark : Text := "___TEST_RESULTS_START___"

/-- The line behind it. -/
def endMark : Text := "___TEST_RESULTS_END___"

/-- How every verdict object starts. -/
def signature : Text := "\x7b\"status\":"

/-! ## The framed list -/

/-- The text between the first start mark and the first end mark behind it. -/
def framed? (raw : Text) : Option Text := do
  let (_, behind) ← Text.cut? startMark raw
  let (payload, _) ← Text.cut? endMark behind
  return payload

/-- The elements of the framed list, when it is one. -/
def framedItems? (raw : Text) : Option (List Value) := do
  let payload ← framed? raw
  let .array items ← Value.parse? payload.trim | none
  return items

/-! ## The scan -/

/-- Where a scan for a closing brace stands: how many braces are open, and whether it is inside a
string, there perhaps behind a backslash. -/
inductive BraceState where
  | code
  | quoted
  | escaped
  deriving DecidableEq, Repr

/-- The text up to the brace that closes the first open one, and the text behind it. Braces inside
strings do not count. -/
def splitObject? (depth : Nat) : BraceState → Text → Option (Text × Text)
  | _, [] => none
  | .escaped, c :: rest => extend c (splitObject? depth .quoted rest)
  | .quoted, c :: rest =>
    if c = '\\' then extend c (splitObject? depth .escaped rest)
    else if c = '"' then extend c (splitObject? depth .code rest)
    else extend c (splitObject? depth .quoted rest)
  | .code, c :: rest =>
    if c = '"' then extend c (splitObject? depth .quoted rest)
    else if c = '{' then extend c (splitObject? (depth + 1) .code rest)
    else if c = '}' then
      if depth ≤ 1 then some ([c], rest)
      else extend c (splitObject? (depth - 1) .code rest)
    else extend c (splitObject? depth .code rest)
  termination_by structural _ t => t

/-- Splitting takes nothing away. -/
theorem append_of_splitObject? {depth : Nat} {state : BraceState} {t object rest : Text}
    (h : splitObject? depth state t = some (object, rest)) : t = object ++ rest := by
  have step {c : Char} {o : Option (Text × Text)} {t : Text}
      (ih : ∀ {object rest}, o = some (object, rest) → t = object ++ rest)
      {object rest : Text} (h : extend c o = some (object, rest)) : c :: t = object ++ rest := by
    obtain ⟨more, rfl, found⟩ := extend_eq_some_iff.1 h
    rw [List.cons_append, ← ih found]
  induction t generalizing depth state object rest with
  | nil => cases state <;> simp [splitObject?] at h
  | cons c t ih =>
    cases state with
    | escaped => exact step ih h
    | quoted =>
      simp only [splitObject?] at h
      split at h
      · exact step ih h
      · split at h <;> exact step ih h
    | code =>
      simp only [splitObject?] at h
      split at h
      · exact step ih h
      · split at h
        · exact step ih h
        · split at h
          · split at h
            · obtain ⟨rfl, rfl⟩ := Prod.mk.inj (Option.some.inj h)
              rfl
            · exact step ih h
          · exact step ih h

/-- The first part of a split is never empty. -/
theorem length_lt_of_splitObject? {depth : Nat} {state : BraceState} {t object rest : Text}
    (h : splitObject? depth state t = some (object, rest)) : rest.length < t.length := by
  have whole := append_of_splitObject? h
  have : object ≠ [] := by
    rintro rfl
    cases t with
    | nil => cases state <;> simp [splitObject?] at h
    | cons c t =>
      have step {o : Option (Text × Text)} : extend c o ≠ some ([], rest) := by
        intro h
        obtain ⟨more, empty, -⟩ := extend_eq_some_iff.1 h
        cases empty
      cases state with
      | escaped => exact step h
      | quoted =>
        simp only [splitObject?] at h
        split at h
        · exact step h
        · split at h <;> exact step h
      | code =>
        simp only [splitObject?] at h
        split at h
        · exact step h
        · split at h
          · exact step h
          · split at h
            · split at h
              · simp at h
              · exact step h
            · exact step h
  subst whole
  have := List.length_pos_iff.2 this
  simp only [List.length_append]
  omega

/-- An object text as an item, when it parses as an object. -/
def item? (object : Text) : Option Value :=
  match Value.parse? object with
  | some (.object members) => some (.object members)
  | _ => none

/-- Every object that starts like a verdict and ends, in the order of the text. Behind an object
the scan goes on at its end, and behind a start without an end one character later. -/
def scan : Text → List Value
  | [] => []
  | c :: rest =>
    if Text.startsWith signature (c :: rest) then
      match _split : splitObject? 0 .code (c :: rest) with
      | some (object, behind) => (item? object).toList ++ scan behind
      | none => scan rest
    else scan rest
  termination_by t => t.length
  decreasing_by
    · exact length_lt_of_splitObject? _split
    · simp
    · simp

/-! ## Extraction -/

/-- What an output may be found to hold. -/
inductive RecoveryError where
  | noResults
  deriving DecidableEq, Repr

def RecoveryError.message : RecoveryError → Text
  | .noResults => "no valid results found in program output"

/-- The verdict objects of an output: the framed list when it is intact, even if it is empty, and
otherwise what the scan finds. -/
def extract (raw : Text) : Except RecoveryError (List Value) :=
  match framedItems? raw with
  | some items => .ok items
  | none =>
    match scan raw with
    | [] => .error .noResults
    | items => .ok items

/-- The verdicts of an output; objects that are no verdicts are left out. -/
def extractVerdicts (raw : Text) : Except RecoveryError (List Verdict) :=
  (extract raw).map fun items =>
    items.filterMap fun item => (Verdict.decoder.decodeValue item).toOption

end HarnessSynthesis.Recovery
