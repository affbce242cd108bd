/-
# Definitions left out

A program defines the type of a structure unless the user declares it. What counts as a declaration
is its head, a keyword with the name behind it; every keyword that declares types counts, so an
interface or an alias stands for a class. Where a body follows each head of the name, the definition
is left out exactly when the user's own is there. Nothing is claimed of the type that is declared:
that the program can construct it is up to the user.
-/

import HarnessSynthesis.Proofs.Harness.Structures
import HarnessSynthesis.Proofs.Source.TypeHead

namespace HarnessSynthesis.Plan

open Source Json

section Build

variable {l : Language} {source : Text} {testCases : List TestCase} {schema : List SchemaEntry}
  {entryName : Option Text} {options : Option Options}

/-- A structure in a plan is defined, or built and read, or both. -/
theorem helpers_of_definition_eq_false {required : List Composite} {use : StructureUse}
    (mem : use ∈ structuresOf l source required) (omitted : use.definition = false) :
    use.helpers = true := by
  rw [structuresOf_eq] at mem
  obtain ⟨k, -, found⟩ := List.mem_filterMap.1 mem
  rw [useOf?] at found
  split at found
  · cases found
  · split at found
    · cases found
    · rename_i kept
      cases found
      simp only [Bool.not_eq_false'] at omitted
      simpa [omitted] using kept

/-- The definition of a structure is left out exactly where the head of a declaration of its type
stands in the source. -/
theorem definition_eq_false_iff {use : StructureUse}
    (mem : use ∈ (build l source testCases schema entryName options).structures) :
    use.definition = false ↔ Nonempty (TypeHead l use.kind (stripComments l source)) := by
  have contained : use ∈ structuresOf l source
      (requiredStructures (build l source testCases schema entryName options).parameters
        (build l source testCases schema entryName options).entry) := mem
  rw [definition_of_mem_structuresOf contained, Bool.not_eq_false', declaresType_iff]

/-- The definition of a structure is left out only where the head of a declaration of its type
stands in the source, and then the structure is built and read. Where all heads have bodies, it is
left out exactly when there is one. -/
theorem typeHead_of_definition_eq_false {use : StructureUse}
    (mem : use ∈ (build l source testCases schema entryName options).structures) :
    (use.definition = false →
      use.helpers = true ∧ Nonempty (TypeHead l use.kind (stripComments l source))) ∧
    ((∀ head : TypeHead l use.kind (stripComments l source), head.opensBody = true) →
      (use.definition = false ↔
        ∃ head : TypeHead l use.kind (stripComments l source), head.opensBody = true)) := by
  refine ⟨fun omitted => ?_, fun bodies => ?_⟩
  · exact ⟨helpers_of_definition_eq_false mem omitted, (definition_eq_false_iff mem).1 omitted⟩
  · rw [definition_eq_false_iff mem]
    constructor
    · rintro ⟨head⟩
      exact ⟨head, bodies head⟩
    · rintro ⟨head, -⟩
      exact ⟨head⟩

end Build

/-- What a program whose schema needs lists contains for them. -/
theorem listNode_mem_structures (l : Language) (source : Text) (testCases : List TestCase) :
    ⟨.listNode, !declaresType l Composite.listNode.typeName source, true⟩ ∈
      (build l source testCases [⟨"head", "ListNode", none⟩] none none).structures := by
  have parsed : (SchemaType.parse "ListNode").composite? = some .listNode := by decide +kernel
  exact mem_structuresOf_of_required (required_of_composite? List.mem_cons_self parsed)

/-- A source with a class for lists, and a comment that mentions it. -/
def classSource : Text :=
  "class ListNode \x7b int val; \x7d // a ListNode \nclass Solution \x7b\x7d"

/-- The class is not defined again: its head is found, with its body. -/
theorem typeHead_of_definition_eq_false_class :
    ⟨.listNode, false, true⟩ ∈
        (build .java classSource [] [⟨"head", "ListNode", none⟩] none none).structures ∧
      ∃ head : TypeHead .java .listNode (stripComments .java classSource),
        head.opensBody = true := by
  have declared : declaresType .java Composite.listNode.typeName classSource = true := by
    decide +kernel
  have mem := listNode_mem_structures .java classSource []
  rw [declared] at mem
  refine ⟨mem, ((typeHead_of_definition_eq_false mem).2 ?_).1 rfl⟩
  exact TypeHead.opensBody_of_all (by decide +kernel)

/-! ## Interfaces -/

/-- A source with an interface for lists, whose objects are no instances of a class. -/
def interfaceSource : Text :=
  "interface ListNode \x7b val: number \x7d\n" ++
    "function first(head: ListNode): number \x7b return head.val; \x7d"

/-- The interface counts as the user's own type: the program builds lists and does not define them,
and the source declares nothing with the keyword `class`. -/
theorem definition_omitted_for_interface :
    (∃ use ∈ (build .typescript interfaceSource [⟨[.array [.int 7]], .int 7⟩]
        [⟨"head", "ListNode", none⟩] none none).structures,
      use.kind = .listNode ∧ use.helpers = true ∧ use.definition = false) ∧
    ¬ ∃ head : TypeHead .typescript .listNode (stripComments .typescript interfaceSource),
      head.keyword = "class" := by
  constructor
  · have declared :
        declaresType .typescript Composite.listNode.typeName interfaceSource = true := by
      decide +kernel
    have mem := listNode_mem_structures .typescript interfaceSource [⟨[.array [.int 7]], .int 7⟩]
    rw [declared] at mem
    exact ⟨_, mem, rfl, rfl, rfl⟩
  · rintro ⟨head, isClass⟩
    have absent : ¬ "class".toList <:+: stripComments .typescript interfaceSource := by
      decide +kernel
    refine absent ⟨head.before, head.gap ++ (Composite.listNode.typeName ++ head.behind), ?_⟩
    rw [List.append_assoc, ← isClass]
    exact head.whole.symm

end HarnessSynthesis.Plan
