/-
# Calls on the solution class

A source with a solution class may declare functions beside it. The call is made on an instance of
the class all the same, and which candidate it names is decided by rank alone. So the call is right
exactly when no function outside all braces ranks before every method of its arity. A function that
stands in front of the class with as many parameters as the method, and with nothing else to tell
the two apart, is enough to make it wrong.
-/

import HarnessSynthesis.Proofs.Entry.Choice

namespace HarnessSynthesis

open Source

/-- With a solution class and a candidate of the right arity inside braces, the call is made on an
instance of the class. It names a candidate inside braces exactly when every other one of that arity
is outranked by one that is. -/
theorem call_braced_iff {l : Language} {source : Text} {schema : List SchemaEntry}
    (hint : Option Text) (contained : hasContainer l source = true)
    (method : ∃ m ∈ findCandidates l source, m.argumentCount = schema.length ∧ 1 ≤ m.depth) :
    ∃ c ∈ findCandidates l source, c.argumentCount = schema.length ∧
      choose l schema.length (hintOf hint) (findCandidates l source) = some c ∧
      (∀ (testCases : List TestCase) (options : Option Options) (receiver : Text),
        (Plan.build l source testCases schema hint options).call receiver =
          receiver ++ ['.'] ++ c.name ++ ['('] ++
            Text.join ", " ((List.range schema.length).map Plan.argument) ++ [')']) ∧
      (1 ≤ c.depth ↔
        ∀ f ∈ findCandidates l source, f.argumentCount = schema.length → f.depth = 0 →
          ∃ m ∈ findCandidates l source, m.argumentCount = schema.length ∧ 1 ≤ m.depth ∧
            (Rank.of l (hintOf hint) m).before (Rank.of l (hintOf hint) f) = true) := by
  obtain ⟨m, hm, suits, braced⟩ := method
  obtain ⟨c, hc, suits', chosen, first⟩ := exists_chosen (hintOf hint) ⟨m, hm, suits⟩
  have entry : resolve l source schema hint = EntryPoint.ofCandidate true c := by
    rw [resolve_eq_ofCandidate chosen, contained]
  refine ⟨c, hc, suits', chosen, ?_, ?_, ?_⟩
  · intro testCases options receiver
    have arity : (Plan.build l source testCases schema hint options).parameters.length =
        schema.length := by
      rw [Plan.build, Plan.parametersOf, List.length_map, List.length_zipIdx]
    rw [Plan.call, arity, Plan.build, entry]
    rfl
  · intro inside f hf suitsF free
    have other : f ≠ c := by
      rintro rfl
      exact absurd inside (by rw [free]; decide)
    exact ⟨c, hc, suits', inside, first f hf suitsF other⟩
  · intro outranked
    by_contra outside
    obtain ⟨m, hm, suitsM, inside, better⟩ :=
      outranked c hc suits' (Nat.lt_one_iff.1 (Nat.lt_of_not_le outside))
    have other : m ≠ c := by
      rintro rfl
      exact outside inside
    exact Rank.not_before_of_before better (first m hm suitsM other)

/-- A function of one parameter in front of a class with a method of one parameter. -/
def helperBesideClass : Text :=
  Text.join ['\n']
    ["function digits(n: number): number[] \x7b",
      "    return String(n).split(\"\").map(Number);",
      "\x7d",
      "class Solution \x7b",
      "    addDigits(n: number): number \x7b",
      "        return digits(n)[0];",
      "    \x7d",
      "\x7d"]

/-- The function in front of the class. -/
def helperCandidate : Candidate :=
  { Candidate.of "function " "digits" "n: number" (some "number[]") 0 with order := 0 }

/-- The method of the class, whose name stands behind 106 octets. -/
def methodCandidate : Candidate :=
  { Candidate.of (Text.repeated 106 " ") "addDigits" "n: number" (some "number") 1 with order := 1 }

theorem findCandidates_helperBesideClass :
    findCandidates .typescript helperBesideClass = [helperCandidate, methodCandidate] := by
  have scanned : TypescriptSource.candidates (stripComments .typescript helperBesideClass) =
      [helperCandidate, { methodCandidate with order := 0 }] := by decide +kernel
  rw [findCandidates, scanned, Candidate.arrange, List.mergeSort_of_pairwise (by decide +kernel)]
  rfl

/-- With the name of the method as hint the method is called. -/
theorem call_braced_iff_hinted :
    ∃ c ∈ findCandidates .typescript helperBesideClass,
      choose .typescript 1 (hintOf (some "addDigits"))
          (findCandidates .typescript helperBesideClass) = some c ∧ 1 ≤ c.depth := by
  have contained : hasContainer .typescript helperBesideClass = true := by decide +kernel
  have inside : methodCandidate ∈ findCandidates .typescript helperBesideClass := by
    rw [findCandidates_helperBesideClass]
    exact List.mem_cons_of_mem _ List.mem_cons_self
  have method : ∃ m ∈ findCandidates .typescript helperBesideClass,
      m.argumentCount = [SchemaEntry.mk "n" "number" none].length ∧ 1 ≤ m.depth :=
    ⟨methodCandidate, inside, by decide, by decide⟩
  obtain ⟨c, hc, -, chosen, -, braced⟩ := call_braced_iff (some "addDigits") contained method
  refine ⟨c, hc, chosen, braced.2 ?_⟩
  intro f hf suits free
  refine ⟨methodCandidate, inside, by decide, by decide, ?_⟩
  rw [findCandidates_helperBesideClass, List.mem_cons, List.mem_singleton] at hf
  rcases hf with rfl | rfl
  · decide +kernel
  · exact absurd free (by decide)

/-- The function in front of the class is the one that is called, on an instance of the class,
though the class has a method of the same arity. -/
theorem helper_called_on_class :
    hasContainer .typescript helperBesideClass = true ∧
      (∃ m ∈ findCandidates .typescript helperBesideClass, m.argumentCount = 1 ∧ 1 ≤ m.depth) ∧
      (∃ c ∈ findCandidates .typescript helperBesideClass,
        choose .typescript 1 (hintOf none) (findCandidates .typescript helperBesideClass) = some c ∧
          c.depth = 0) ∧
      (Plan.build .typescript helperBesideClass [] [⟨"n", "number", none⟩] none none).call
          "new Solution()" = "new Solution().digits(arg0)".toList := by
  have contained : hasContainer .typescript helperBesideClass = true := by decide +kernel
  have chosen : choose .typescript 1 (hintOf none)
      (findCandidates .typescript helperBesideClass) = some helperCandidate := by
    rw [findCandidates_helperBesideClass]
    rfl
  have helper : helperCandidate ∈ findCandidates .typescript helperBesideClass := by
    rw [findCandidates_helperBesideClass]
    exact List.mem_cons_self
  have method : methodCandidate ∈ findCandidates .typescript helperBesideClass := by
    rw [findCandidates_helperBesideClass]
    exact List.mem_cons_of_mem _ List.mem_cons_self
  refine ⟨contained, ⟨methodCandidate, method, by decide⟩, ⟨helperCandidate, helper, chosen, rfl⟩,
    ?_⟩
  rw [Plan.call, Plan.build, resolve_eq_ofCandidate chosen, contained]
  decide +kernel

end HarnessSynthesis
