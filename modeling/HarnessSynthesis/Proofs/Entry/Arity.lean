/-
# Arity

The parameters of a candidate are counted when it is found and read when a harness is planned, from
a text that has been trimmed in between and, in Python, taken apart and put together again without
the receiver. Both give the same number, so a candidate that is chosen for its arity has a parameter
for each entry of the schema, and a plan gives each entry the type that is declared in its place.
-/

import HarnessSynthesis.Proofs.Entry.Choice
import HarnessSynthesis.Proofs.Entry.Headers
import HarnessSynthesis.Proofs.Source.Occurrences
import HarnessSynthesis.Proofs.Source.Pieces

namespace HarnessSynthesis

open Source Json
open Text (Blank)

/-! ## Counting -/

namespace Candidate

/-- The number of arguments is that of the parameters in the text that is kept. -/
def Counted (c : Candidate) : Prop :=
  (splitParameters c.arguments).length = c.argumentCount

theorem counted_of (before name arguments : Text) (returnType : Option Text) (depth : Nat) :
    (of before name arguments returnType depth).Counted :=
  congrArg List.length (splitParameters_trim arguments)

end Candidate

namespace TypescriptSource

theorem counted_of_declared? {hit : Hit Named} {type? : Text → Option (Option Text)}
    {c : Candidate} (h : declared? hit type? = some c) : c.Counted := by
  obtain ⟨⟨arguments, behind⟩, -, h⟩ := Option.bind_eq_some_iff.1 h
  obtain ⟨type, -, h⟩ := Option.bind_eq_some_iff.1 h
  cases h
  exact Candidate.counted_of _ _ _ _ _

theorem counted_of_mem_candidates {t : Text} {c : Candidate} (h : c ∈ candidates t) :
    c.Counted := by
  rw [candidates, List.mem_filter, List.mem_append, List.mem_append, List.mem_append] at h
  obtain ⟨((h | h) | h) | h, -⟩ := h
  · obtain ⟨hit, -, h⟩ := List.mem_filterMap.1 h
    exact counted_of_declared? h
  · obtain ⟨hit, -, h⟩ := List.mem_filterMap.1 h
    exact counted_of_declared? h
  · obtain ⟨hit, -, rfl⟩ := List.mem_map.1 h
    exact Candidate.counted_of _ _ _ _ _
  · obtain ⟨hit, -, h⟩ := List.mem_filterMap.1 h
    exact counted_of_declared? h

/-- What is read up to a place of a text, and the text from that place on. -/
theorem leadOf_append {whole atName : Text} (ending : atName <:+ whole) :
    leadOf whole atName ++ atName = whole :=
  (congrArg (leadOf whole atName ++ ·) (List.suffix_iff_eq_drop.1 ending)).trans
    (List.take_append_drop _ _)

end TypescriptSource

namespace TypedSource

theorem counted_of_mem_candidates {l : Language} {t : Text} {c : Candidate}
    (h : c ∈ candidates l t) : c.Counted := by
  obtain ⟨hit, -, h⟩ := List.mem_filterMap.1 h
  obtain ⟨arguments, -, header, -, -, -, -, rfl⟩ := eq_of_declared? h
  exact Candidate.counted_of hit.before hit.found.1 arguments
    (some (cleanType l header.returnType)) (braceDepth hit.before)

end TypedSource

/-! ## Definitions of Python -/

namespace PythonSource

/-- Whether a parameter is the receiver of a bound method. -/
def isReceiver (piece : Text) : Bool :=
  let name := (Parameter.parse .python piece).name
  name == "self".toList || name == "cls".toList

theorem withoutReceiver_cons (first : Text) (rest : List Text) :
    withoutReceiver (first :: rest) = if isReceiver first then rest else first :: rest := by
  simp only [withoutReceiver, isReceiver, Bool.or_eq_true, beq_iff_eq]

theorem withoutReceiver_sublist (pieces : List Text) :
    (withoutReceiver pieces).Sublist pieces := by
  cases pieces with
  | nil => exact List.Sublist.refl []
  | cons first rest =>
    rw [withoutReceiver_cons]
    split
    · exact List.sublist_cons_self first rest
    · exact List.Sublist.refl _

theorem length_withoutReceiver (pieces : List Text) :
    (withoutReceiver pieces).length =
      pieces.length - if pieces.head?.any isReceiver then 1 else 0 := by
  cases pieces with
  | nil => rfl
  | cons first rest =>
    rw [withoutReceiver_cons, List.head?_cons, Option.any_some]
    cases isReceiver first <;> rfl

theorem skipAsync_suffix (t : Text) : skipAsync t <:+ t := by
  rw [skipAsync]
  cases read : (Text.afterPrefix? "async" t).bind inlineBlanks? with
  | none => exact List.suffix_refl t
  | some rest =>
    obtain ⟨behind, word, blanks⟩ := Option.bind_eq_some_iff.1 read
    exact (suffix_of_inlineBlanks? blanks).trans (suffix_of_afterPrefix? word)

/-- A definition is a name, blanks and a parenthesis. -/
theorem exists_of_definition? {previous : Option Char} {t behind : Text}
    {named : TypescriptSource.Named} (h : definition? previous t = some (named, behind)) :
    ∃ gap, Blank gap ∧ t = named.lead ++ (named.name ++ (gap ++ '(' :: behind)) ∧
      named.behind = behind := by
  obtain ⟨-, -, h⟩ := Option.bind_eq_some_iff.1 h
  obtain ⟨rest, keyword, h⟩ := Option.bind_eq_some_iff.1 h
  obtain ⟨atName, spaced, h⟩ := Option.bind_eq_some_iff.1 h
  obtain ⟨⟨name, rest'⟩, named', h⟩ := Option.bind_eq_some_iff.1 h
  obtain ⟨behind', opened, h⟩ := Option.bind_eq_some_iff.1 h
  cases h
  have ending : atName <:+ t :=
    ((suffix_of_inlineBlanks? spaced).trans (suffix_of_afterPrefix? keyword)).trans
      ((skipAsync_suffix _).trans (List.dropWhile_suffix _))
  have gap : rest' = rest'.takeWhile Text.isBlank ++ '(' :: behind := by
    rw [← List.singleton_append, ← Text.afterPrefix?_eq_some_iff.1 opened]
    exact (Text.takeWhile_append_trimStart rest').symm
  refine ⟨rest'.takeWhile Text.isBlank, Text.blank_takeWhile rest', ?_, rfl⟩
  rw [← gap, ← eq_append_of_name? named', TypescriptSource.leadOf_append ending]

theorem takes_definition? : Scanner.Takes definition? := by
  intro previous t behind named h
  obtain ⟨gap, -, whole, -⟩ := exists_of_definition? h
  refine ⟨named.lead ++ (named.name ++ (gap ++ ['('])), ?_⟩
  rw [whole]
  simp only [List.append_assoc, List.cons_append, List.nil_append]

/-- A candidate is a name, blanks and a list between parentheses. Its arguments are the parameters
in the list without the receiver. -/
theorem exists_of_mem_candidates {t : Text} {c : Candidate} (h : c ∈ candidates t) :
    ∃ before gap list behind,
      t = before ++ (c.name ++ (gap ++ '(' :: (list ++ ')' :: behind))) ∧
        before.octets = c.offset ∧ Blank gap ∧
        closeBracket? '(' ')' 0 (list ++ ')' :: behind) = some (list, behind) ∧
        c.arguments = (Text.join ", " (withoutReceiver (splitParameters list))).trim ∧
        c.Counted := by
  obtain ⟨hit, occurs, h⟩ := List.mem_filterMap.1 h
  obtain ⟨-, -, h⟩ := Option.bind_eq_some_iff.1 h
  obtain ⟨⟨list, behind⟩, closes, h⟩ := Option.bind_eq_some_iff.1 h
  cases h
  obtain ⟨rest, behind', whole, read⟩ := exists_of_mem_occurrences takes_definition? occurs
  obtain ⟨gap, blank, place, same⟩ := exists_of_definition? read
  rw [same] at closes
  have inner := eq_append_of_closeBracket? closes
  refine ⟨hit.before ++ hit.found.lead, gap, list, behind, ?_, rfl, blank, inner ▸ closes, rfl,
    Candidate.counted_of _ _ _ _ _⟩
  rw [whole, place, inner, List.append_assoc]
  rfl

/-- The parameters of a candidate are those of its list without the receiver. -/
theorem splitParameters_withoutReceiver (list : Text) :
    splitParameters (Text.join ", " (withoutReceiver (splitParameters list))).trim =
      withoutReceiver (splitParameters list) := by
  have sub := withoutReceiver_sublist (splitParameters list)
  rw [splitParameters_trim]
  refine splitParameters_join ((parts_splitParameters list).sublist sub) ?_
  intro p hp
  exact trimmed_of_mem_splitParameters (sub.subset hp)

end PythonSource

/-! ## Plans -/

theorem counted_of_mem_findCandidates {l : Language} {source : Text} {c : Candidate}
    (h : c ∈ findCandidates l source) : c.Counted := by
  obtain ⟨d, found, same⟩ := Candidate.exists_of_mem_arrange h
  have counted : d.Counted := by
    cases l with
    | typescript => exact TypescriptSource.counted_of_mem_candidates found
    | python =>
      obtain ⟨_, _, _, _, -, -, -, -, -, counted⟩ := PythonSource.exists_of_mem_candidates found
      exact counted
    | java => exact TypedSource.counted_of_mem_candidates found
    | cpp => exact TypedSource.counted_of_mem_candidates found
  rw [same]
  exact counted

/-- With as many declared parameters as entries each entry has its own. -/
theorem Plan.parametersOf_eq_zipWith {schema : List SchemaEntry} {declared : List Parameter}
    (same : declared.length = schema.length) :
    parametersOf schema declared =
      List.zipWith (fun e d => ⟨e.name, SchemaType.parse e.typeName, d.declaredType⟩) schema
        declared := by
  refine List.ext_getElem ?_ ?_
  · simp [parametersOf, same]
  · intro i _ inside
    have here : i < declared.length := by simp at inside; omega
    simp [parametersOf, List.getElem?_eq_getElem here]

/-- The number of arguments that a candidate is chosen by is the number of its parameters. In Python
it is that of the pieces between its parentheses, the receiver not counting. So whenever there is a
candidate of the right arity, the function that is called has a parameter for each entry of the
schema, and the plan gives each entry the type that is declared in its place. -/
theorem arity_agrees (l : Language) (source : Text) :
    (∀ c ∈ findCandidates l source, ∀ wrapped,
      ((EntryPoint.ofCandidate wrapped c).parameters l).length = c.argumentCount) ∧
    (∀ c ∈ findCandidates .python source, ∃ before gap list behind,
      stripComments .python source =
          before ++ (c.name ++ (gap ++ '(' :: (list ++ ')' :: behind))) ∧
        before.octets = c.offset ∧ Blank gap ∧
        closeBracket? '(' ')' 0 (list ++ ')' :: behind) = some (list, behind) ∧
        c.argumentCount = (splitParameters list).length -
          if (splitParameters list).head?.any PythonSource.isReceiver then 1 else 0) ∧
    ∀ (schema : List SchemaEntry) (hint : Option Text),
      (∃ c ∈ findCandidates l source, c.argumentCount = schema.length) →
        ((resolve l source schema hint).parameters l).length = schema.length ∧
        ∀ (testCases : List TestCase) (options : Option Options),
          (Plan.build l source testCases schema hint options).parameters =
            List.zipWith (fun e d => ⟨e.name, SchemaType.parse e.typeName, d.declaredType⟩) schema
              ((resolve l source schema hint).parameters l) := by
  have arity (c : Candidate) (hc : c ∈ findCandidates l source) (wrapped : Bool) :
      ((EntryPoint.ofCandidate wrapped c).parameters l).length = c.argumentCount := by
    rw [EntryPoint.parameters, List.length_map]
    exact counted_of_mem_findCandidates hc
  refine ⟨arity, ?_, ?_⟩
  · intro c hc
    obtain ⟨d, found, same⟩ := Candidate.exists_of_mem_arrange hc
    obtain ⟨before, gap, list, behind, whole, place, blank, closes, arguments, counted⟩ :=
      PythonSource.exists_of_mem_candidates found
    rw [same]
    refine ⟨before, gap, list, behind, whole, place, blank, closes, ?_⟩
    rw [← PythonSource.length_withoutReceiver, ← PythonSource.splitParameters_withoutReceiver,
      ← arguments]
    exact counted.symm
  · intro schema hint suits
    obtain ⟨c, hc, suits, chosen, -⟩ := exists_chosen (hintOf hint) suits
    have entry : ((resolve l source schema hint).parameters l).length = schema.length := by
      rw [resolve_eq_ofCandidate chosen, arity c hc, suits]
    exact ⟨entry, fun _ _ => Plan.parametersOf_eq_zipWith entry⟩

/-- A method with a receiver, commas in a type and a comma as a default value. -/
def receivingMethod : Text :=
  "class Solution:\n    def cut(self, row: Dict[str, int], mark=\",\"):\n        return row\n"

/-- Its two parameters are those of the schema. -/
theorem arity_agrees_receiver :
    (∃ c ∈ findCandidates .python receivingMethod, c.argumentCount = 2) ∧
      ((resolve .python receivingMethod [⟨"row", "object", none⟩, ⟨"mark", "string", none⟩]
        none).parameters .python).length = 2 := by
  have scanned : PythonSource.candidates (stripComments .python receivingMethod) =
      [Candidate.of "class Solution:\n    def " "cut" "row: Dict[str, int], mark=\",\"" none
        0] := by
    decide +kernel
  have suits : ∃ c ∈ findCandidates .python receivingMethod, c.argumentCount = 2 := by
    rw [findCandidates, scanned, Candidate.arrange, List.mergeSort_of_pairwise (by decide)]
    exact ⟨_, List.mem_singleton_self _, by decide +kernel⟩
  exact ⟨suits, ((arity_agrees .python receivingMethod).2.2
    [⟨"row", "object", none⟩, ⟨"mark", "string", none⟩] none suits).1⟩

end HarnessSynthesis
