/-
# Cases settled beforehand

A case with the wrong number of inputs is not run. Its verdict is put together as text, from the
canonical text of what was expected and a quoted message. That text is exactly what a harness prints
for such a verdict, so from the list in which it stands it comes back as the verdict it was meant
for, whatever the expected value holds and whichever cases stand beside it.
-/

import Mathlib.Data.List.Forall2
import HarnessSynthesis.Harness.Plan
import HarnessSynthesis.Proofs.Recovery.Decoded

namespace HarnessSynthesis

open Json Recovery

/-- The texts of verdicts as a list between the marks, which stand on lines of their own. -/
def Recovery.framing (texts : List Text) : Text :=
  startMark ++ ['\n', '['] ++ Text.join [','] texts ++ [']', '\n'] ++ endMark

namespace PrintedVerdict

variable (v : PrintedVerdict)

theorem signature_isPrefix_text : signature <+: v.text := by
  have front := (signature_isPrefix_iff v.membersIntegral_node []).2 v.startsLikeVerdict_node
  rw [List.append_nil] at front
  exact front

theorem parse?_text : Value.parse? v.text = some (.object v.sortedMembers) := by
  rw [text, Value.parse?_write (n := v.node) v.membersIntegral_node, v.toValue?_node,
    value_eq_object]

end PrintedVerdict

namespace Plan

/-! ## The text of an error -/

/-- The pieces that the text of an error is put together from are those of a printed object. -/
theorem errorVerdict_eq (expected message : Text) :
    errorVerdict expected message =
      '{' :: (Node.quote "status" ++ ':' :: (Node.quote "error" ++ ',' :: (Node.quote "expected" ++
        ':' :: (expected ++ ',' :: (Node.quote "actual" ++ ':' :: (Node.null.write ++
          ',' :: (Node.quote "time" ++ ':' :: (['0'] ++ ',' :: (Node.quote "error" ++
            ':' :: Node.quote message))))))))) ++ ['}'] := by
  have opening : ("\x7b\"status\":\"error\",\"expected\":" : Text) =
      '{' :: (Node.quote "status" ++ ':' :: (Node.quote "error" ++
        ',' :: (Node.quote "expected" ++ [':']))) := by
    decide
  have further : (",\"actual\":null,\"time\":0,\"error\":" : Text) =
      ',' :: (Node.quote "actual" ++ ':' :: (Node.null.write ++
        ',' :: (Node.quote "time" ++ ':' :: (['0'] ++ ',' :: (Node.quote "error" ++ [':']))))) := by
    decide
  refine (congrArg₂ (fun front middle : Text =>
    front ++ expected ++ middle ++ Node.quote message ++ ['}']) opening further).trans ?_
  simp only [List.append_assoc, List.cons_append, List.nil_append]

theorem isPrintable_null : Value.null.IsPrintable := ⟨rfl, rfl, by decide⟩

theorem isWord_zero : (Number.integer 0).isWord = true := by decide

/-- The verdict of an error before there was a result. -/
def printedError {expected : Value} (printable : expected.IsPrintable) (message : Text) :
    PrintedVerdict where
  status := .error
  expected := expected
  actual := .null
  time := 0
  logs := none
  error := some message
  expected_isPrintable := printable
  actual_isPrintable := isPrintable_null
  time_isWord := isWord_zero

theorem members_printedError {expected : Value} (printable : expected.IsPrintable)
    (message : Text) :
    (printedError printable message).members =
      [(("status" : Text), .string "error"), (("expected" : Text), expected),
        (("actual" : Text), .null), (("time" : Text), .int 0),
        (("error" : Text), .string message)] :=
  rfl

/-- The text put together for an error is the print of its verdict. -/
theorem text_printedError {expected : Value} (printable : expected.IsPrintable) (message : Text) :
    (printedError printable message).text = errorVerdict expected.canonicalText message := by
  have zero : (Node.ofValue (.int 0)).write = ['0'] := by
    show Text.ofNat 0 = ['0']
    rw [Text.ofNat]
    rfl
  rw [Value.canonicalText_of_isIntegral printable.integral, errorVerdict_eq, ← zero,
    PrintedVerdict.text, PrintedVerdict.node, members_printedError]
  show '{' :: Node.writeMembers _ ++ ['}'] = _
  simp only [Node.ofMembers, Node.writeMembers_cons, Node.writeFurtherMembers_cons,
    Node.writeFurtherMembers_nil, List.append_nil]
  rfl

/-! ## Planned cases -/

/-- The verdict of a case with the wrong number of inputs, given with its place among the cases. -/
def arityVerdict (arity : Nat) (case : TestCase × Nat) : Verdict where
  status := .error
  expected := case.1.expected.canonical
  actual := .null
  time := Binary64.zero false
  logs := none
  error := some (arityMessage case.2 case.1.input.length arity)

/-- How a case appears in the plan for a function of some arity. It is run, with its own inputs,
just when it has as many as the function takes, and otherwise a verdict stands in its place. -/
structure IsPlanned (arity : Nat) (case : TestCase × Nat) (planned : PlannedCase) : Prop where
  index : planned.index = case.2
  expected : planned.expected = case.1.expected.canonicalText
  runnable : (∃ inputs accepted, planned.body = .runnable inputs accepted) ↔
    case.1.input.length = arity
  unchanged : ∀ {inputs accepted}, planned.body = .runnable inputs accepted →
    inputs = case.1.input
  settled : ∀ {text}, planned.body = .settled text →
    signature <+: text ∧ ∃ members, Value.parse? text = some (.object members)

variable {arity : Nat} {case : TestCase × Nat}

/-- The verdict of a case as a harness would print it. -/
def printedArity (arity : Nat) (printable : case.1.expected.IsPrintable) : PrintedVerdict :=
  printedError printable (arityMessage case.2 case.1.input.length arity)

theorem verdict_printedArity (printable : case.1.expected.IsPrintable) :
    (printedArity arity printable).verdict = arityVerdict arity case := by
  have zero : Binary64.ofInt 0 = Binary64.zero false := by decide
  rw [arityVerdict, Value.canonical_of_isIntegral printable.integral, ← zero]
  rfl

/-- A case is settled by the print of its verdict. -/
theorem caseOf_settled {options : Options} {text : Text} (printable : case.1.expected.IsPrintable)
    (settled : (caseOf arity options case.2 case.1).body = .settled text) :
    text = (printedArity arity printable).text := by
  rw [caseOf] at settled
  split at settled
  · exact CaseBody.noConfusion settled
  · rw [printedArity, text_printedError]
    exact (CaseBody.settled.inj settled).symm

theorem caseOf_isPlanned {options : Options} (printable : case.1.expected.IsPrintable) :
    IsPlanned arity case (caseOf arity options case.2 case.1) where
  index := rfl
  expected := rfl
  runnable := by
    rw [caseOf]
    split
    case isTrue same => exact iff_of_true ⟨_, _, rfl⟩ same
    case isFalse other =>
      exact iff_of_false (fun ⟨_, _, run⟩ => CaseBody.noConfusion run) other
  unchanged := by
    intro inputs accepted run
    rw [caseOf] at run
    split at run
    · exact (CaseBody.runnable.inj run).1.symm
    · exact CaseBody.noConfusion run
  settled := by
    intro text settled
    rw [caseOf_settled printable settled]
    exact ⟨PrintedVerdict.signature_isPrefix_text _, _, PrintedVerdict.parse?_text _⟩

/-! ## Lists of settled cases -/

/-- Settled cases, in any order and number, are read from the list of their texts as their
verdicts. -/
theorem extractVerdicts_framing {chosen : List ((TestCase × Nat) × PlannedCase)}
    {texts : List Text}
    (planned : ∀ c ∈ chosen, c.1.1.expected.IsPrintable ∧
      ∃ options, c.2 = caseOf arity options c.1.2 c.1.1)
    (settled : List.Forall₂ (fun c text => c.2.body = .settled text) chosen texts) :
    extractVerdicts (framing texts) = .ok (chosen.map fun c => arityVerdict arity c.1) := by
  have printed : ∃ vs : List PrintedVerdict, vs.map PrintedVerdict.text = texts ∧
      vs.map PrintedVerdict.verdict = chosen.map fun c => arityVerdict arity c.1 := by
    induction settled with
    | nil => exact ⟨[], rfl, rfl⟩
    | @cons c text chosen texts body _ ih =>
      rw [List.forall_mem_cons] at planned
      obtain ⟨⟨printable, options, same⟩, others⟩ := planned
      obtain ⟨vs, rfl, verdicts⟩ := ih others
      rw [same] at body
      exact ⟨printedArity arity printable :: vs,
        by rw [List.map_cons, caseOf_settled printable body],
        by rw [List.map_cons, List.map_cons, verdict_printedArity, verdicts]⟩
  obtain ⟨vs, rfl, same⟩ := printed
  rw [← same]
  exact PrintedVerdict.extractVerdicts_framed vs

theorem mem_and_eq_of_mem_zip_map {α β : Type} {f : α → β} {xs : List α} {pair : α × β}
    (found : pair ∈ xs.zip (xs.map f)) : pair.1 ∈ xs ∧ pair.2 = f pair.1 := by
  have paired := List.zip_map' (l := xs) (f := id) (g := f)
  rw [List.map_id] at paired
  rw [paired] at found
  obtain ⟨x, member, rfl⟩ := List.mem_map.1 found
  exact ⟨member, rfl⟩

section Build

variable (l : Language) (source : Text) {testCases : List TestCase} (schema : List SchemaEntry)
  (entryName : Option Text) (options : Option Options)

/-- The cases of a plan are the test cases in their order, for the arity of the schema. -/
theorem cases_build :
    (build l source testCases schema entryName options).cases =
      testCases.zipIdx.map fun case =>
        caseOf schema.length (options.getD Options.plain) case.2 case.1 := by
  simp only [build, parametersOf, List.length_map, List.length_zipIdx]

/-- A plan has one case for each test case. One with as many inputs as the schema has entries is run
with them; any other has a verdict that tells of the numbers, and that verdict is what is read from
its text wherever a harness puts it into its list. -/
theorem build_settles (printable : ∀ case ∈ testCases, case.expected.IsPrintable) :
    let plan := build l source testCases schema entryName options
    List.Forall₂ (IsPlanned schema.length) testCases.zipIdx plan.cases ∧
      ∀ chosen ⊆ testCases.zipIdx.zip plan.cases, ∀ texts,
        List.Forall₂ (fun c text => c.2.body = .settled text) chosen texts →
          extractVerdicts (framing texts) =
            .ok (chosen.map fun c => arityVerdict schema.length c.1) := by
  intro plan
  have cases : plan.cases = _ := cases_build l source schema entryName options
  have expected : ∀ case ∈ testCases.zipIdx, case.1.expected.IsPrintable := fun case found =>
    printable case.1 (List.fst_mem_of_mem_zipIdx found)
  rw [cases]
  constructor
  case left =>
    rw [List.forall₂_map_right_iff, List.forall₂_same]
    exact fun case found => caseOf_isPlanned (expected case found)
  case right =>
    intro chosen within texts settled
    refine extractVerdicts_framing (fun c found => ?_) settled
    obtain ⟨place, same⟩ := mem_and_eq_of_mem_zip_map (within found)
    exact ⟨expected c.1 place, _, same⟩

/-- The second case lacks an input, and what it expects holds an end mark and a brace. -/
theorem build_settles_missing_input :
    let expected : Value := .array [.string (endMark ++ ['}']), .int 7]
    let testCases : List TestCase := [⟨[.int 3], .int 4⟩, ⟨[], expected⟩]
    let plan := build .python [] testCases [⟨"n", "int", none⟩] none none
    (∀ case ∈ testCases, case.expected.IsPrintable) ∧
      List.Forall₂ (IsPlanned 1) testCases.zipIdx plan.cases ∧
        extractVerdicts (framing [errorVerdict expected.canonicalText (arityMessage 1 0 1)]) =
          .ok [⟨.error, expected, .null, Binary64.zero false, none,
            some (arityMessage 1 0 1)⟩] := by
  intro expected testCases plan
  have printable : ∀ case ∈ testCases, case.expected.IsPrintable := by
    intro case found
    rcases List.mem_pair.1 found with rfl | rfl <;> exact ⟨by decide, by decide, by decide⟩
  have settles := build_settles .python [] [⟨"n", "int", none⟩] none none printable
  have cases : plan.cases = _ := cases_build .python [] [⟨"n", "int", none⟩] none none
  refine ⟨printable, settles.1, ?_⟩
  refine settles.2 [((⟨[], expected⟩, 1), caseOf 1 Options.plain 1 ⟨[], expected⟩)] ?_ _
    (.cons rfl .nil)
  rw [cases]
  exact List.cons_subset.2 ⟨List.mem_cons_of_mem _ List.mem_cons_self, List.nil_subset _⟩

end Build

end Plan

end HarnessSynthesis
