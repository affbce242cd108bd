/-
# Structures of a program

A program contains a parser and a serializer for each structure that its plan requires. That must
be enough for everything the program does with its inputs: the literals of its cases, the
conversions of inputs that it reads, and the result. Which structures those use is found from types,
which ones are required from the words of texts, and the two agree wherever the text of a type comes
from the user's signature.

They part at one place. In Java a parameter whose signature declares no type gets one from the
schema. A name that means nothing to the schema stays in it as text where no sample shows an
element, and the literals of the other cases are written by reading that text as a declared type,
structures included.
-/

import HarnessSynthesis.Proofs.Harness.Calls
import HarnessSynthesis.Proofs.Harness.Written

namespace HarnessSynthesis

open Source Json

/-! ## Required structures -/

namespace Plan

section Required

variable {parameters : List PlannedParameter} {entry : EntryPoint} {k : Composite}

theorem required_of_composite? {parameter : PlannedParameter} (mem : parameter ∈ parameters)
    (h : parameter.type.composite? = some k) : k ∈ requiredStructures parameters entry :=
  List.mem_append_left _ (List.mem_filterMap.2 ⟨parameter, mem, h⟩)

theorem required_of_declared {parameter : PlannedParameter} (mem : parameter ∈ parameters)
    {declared : Text} (h : parameter.declared = some declared)
    (word : hasWord k.typeName declared = true) : k ∈ requiredStructures parameters entry := by
  refine List.mem_append_right _ (List.mem_flatMap.2 ⟨declared, ?_, ?_⟩)
  · exact List.mem_append_left _ (List.mem_filterMap.2 ⟨parameter, mem, h⟩)
  · exact List.mem_filter.2 ⟨k.mem_all, word⟩

theorem required_of_returnType {returnType : Text} (h : entry.returnType = some returnType)
    (word : hasWord k.typeName returnType = true) : k ∈ requiredStructures parameters entry := by
  refine List.mem_append_right _ (List.mem_flatMap.2 ⟨returnType, ?_, ?_⟩)
  · rw [h]
    exact List.mem_append_right _ List.mem_cons_self
  · exact List.mem_filter.2 ⟨k.mem_all, word⟩

end Required

/-! ## What the program contains -/

section Contained

variable {l : Language} {source : Text} {required : List Composite}

/-- What a program contains for one structure. -/
def useOf? (l : Language) (source : Text) (required : List Composite) (k : Composite) :
    Option StructureUse :=
  if !required.contains k && !(mentionedStructures l source).contains k then none
  else if declaresType l k.typeName source && !required.contains k then none
  else some ⟨k, !declaresType l k.typeName source,
    required.contains k || !declaresType l k.typeName source⟩

theorem structuresOf_eq :
    structuresOf l source required = Composite.all.filterMap (useOf? l source required) := rfl

theorem of_useOf? {k : Composite} {use : StructureUse}
    (h : useOf? l source required k = some use) :
    use.kind = k ∧ use.definition = !declaresType l k.typeName source := by
  rw [useOf?] at h
  split at h
  · cases h
  · split at h
    · cases h
    · cases h
      exact ⟨rfl, rfl⟩

theorem mem_structuresOf_of_required {k : Composite} (h : k ∈ required) :
    ⟨k, !declaresType l k.typeName source, true⟩ ∈ structuresOf l source required := by
  rw [structuresOf_eq]
  refine List.mem_filterMap.2 ⟨k, k.mem_all, ?_⟩
  simp [useOf?, h]

theorem definition_of_mem_structuresOf {use : StructureUse}
    (h : use ∈ structuresOf l source required) :
    use.definition = !declaresType l use.kind.typeName source := by
  rw [structuresOf_eq] at h
  obtain ⟨k, -, found⟩ := List.mem_filterMap.1 h
  obtain ⟨rfl, definition⟩ := of_useOf? found
  exact definition

theorem map_filterMap_sublist {α β : Type} {f : α → Option β} {g : β → α}
    (back : ∀ a b, f a = some b → g b = a) (list : List α) :
    ((list.filterMap f).map g).Sublist list := by
  induction list with
  | nil => exact List.Sublist.slnil
  | cons a list ih =>
    rw [List.filterMap_cons]
    split
    · exact ih.cons a
    · rename_i b found
      rw [List.map_cons, back a b found]
      exact ih.cons_cons a

/-- Each structure occurs at most once, and they keep their fixed order. -/
theorem kinds_structuresOf_sublist :
    ((structuresOf l source required).map StructureUse.kind).Sublist Composite.all := by
  rw [structuresOf_eq]
  exact map_filterMap_sublist (fun _ _ found => (of_useOf? found).1) Composite.all

end Contained

/-! ## The result -/

theorem composite?_of_ownStructure? {parameter : PlannedParameter} {k : Composite}
    (h : ownStructure? parameter = some k) : parameter.type.composite? = some k := by
  rw [ownStructure?] at h
  split at h
  · rename_i kind isComposite
    rw [isComposite]
    exact h
  · cases h

theorem hasWord_of_singleStructure? {returnType : Text} {k : Composite}
    (h : singleStructure? returnType = some k) : hasWord k.typeName returnType = true := by
  rw [singleStructure?] at h
  split at h
  · cases h
  · split at h
    · rename_i word single
      have mem : word ∈ Text.splitWhere (fun c => !Text.isNameChar c) returnType :=
        (List.mem_filter.1 (single ▸ List.mem_singleton_self word)).1
      rw [hasWord, List.contains_iff_mem, Composite.typeName_of_ofName? h, trim_of_mem_words mem]
      exact mem
    · cases h

theorem required_of_resultKind {p : Plan} {k : Composite} (h : p.resultKind = some k) :
    k ∈ requiredStructures p.parameters p.entry := by
  rw [resultKind] at h
  split at h
  · obtain ⟨parameter, found, own⟩ := Option.bind_eq_some_iff.1 h
    exact required_of_composite? (List.mem_of_getElem? found) (composite?_of_ownStructure? own)
  · split at h
    · rename_i returnType isReturned
      exact required_of_returnType isReturned (hasWord_of_singleStructure? h)
    · split at h
      · cases h
      · rename_i first rest own
        split at h
        · cases h
          have mem : k ∈ p.parameters.filterMap ownStructure? := own ▸ List.mem_cons_self
          obtain ⟨parameter, place, own⟩ := List.mem_filterMap.1 mem
          exact required_of_composite? place (composite?_of_ownStructure? own)
        · cases h

/-! ## Literals and conversions -/

/-- The pieces of the literal of an input. -/
def literalPieces (p : Plan) (i : Nat) (type : SchemaType) (v : Value) : List Piece :=
  Literal.pieces p.language type (p.writtenType i) v

/-- The pieces of the expression that converts an input. -/
def conversionPieces (p : Plan) (i : Nat) (type : SchemaType) (e : Text) : List Piece :=
  match p.language with
  | .typescript => Conversion.dynamicPieces Conversion.aroundTypescript type e 0
  | .python => Conversion.dynamicPieces Conversion.aroundPython type e 0
  | .java => Conversion.javaPieces (p.nativeType i) e 0
  | .cpp => [.conversion ((p.nativeType i).render .cpp false), .text (['('] ++ e ++ [')'])]

theorem write_literalPieces (p : Plan) (i : Nat) (type : SchemaType) (v : Value) :
    Pieces.write p.language (p.literalPieces i type v) = p.literal i type v :=
  Literal.write_pieces p.language type (p.writtenType i) v

theorem write_conversionPieces (p : Plan) (i : Nat) (type : SchemaType) (e : Text) :
    Pieces.write p.language (p.conversionPieces i type e) = p.conversion i type e := by
  rw [conversionPieces, conversion]
  cases p.language with
  | typescript => exact Conversion.write_typescript type e 0
  | python => exact Conversion.write_python type e 0
  | java => exact Conversion.write_javaPieces _ e 0
  | cpp => simp

/-- The first input that there is for a parameter. -/
def sample? (p : Plan) (i : Nat) : Option Value :=
  p.cases.findSome? fun c => (CaseBody.inputs? c.body).bind fun vs => vs[i]?

/-- A name of the schema that is kept as text in the type of a Java parameter: the signature
declares no type and no sample shows what stands there. -/
def keptName? (p : Plan) (i : Nat) : Option Text :=
  match p.parameters[i]? with
  | some ⟨_, type, none⟩ =>
    match type.base with
    | .opaqueType name =>
      if p.language = .java ∧ NativeType.drill type (p.sample? i) = none then some name else none
    | _ => none
  | _ => none

section Closed

variable {i : Nat} {parameter : PlannedParameter} {k : Composite}

/-- What the type of a parameter mentions is required, or it stands in a name that was kept. -/
theorem required_of_mentions_nativeType {p : Plan} (h : p.parameters[i]? = some parameter)
    (native : p.language.isCFamily = true) (mentions : (p.nativeType i).mentions k = true) :
    k ∈ requiredStructures p.parameters p.entry ∨
      ∃ name, p.keptName? i = some name ∧ hasWord k.typeName name = true := by
  have mem := List.mem_of_getElem? h
  obtain ⟨name, type, declared⟩ := parameter
  cases declared with
  | some declared =>
    rw [nativeType, h] at mentions
    exact Or.inl (required_of_declared mem rfl (NativeType.hasWord_of_mentions_parse mentions))
  | none =>
    rw [nativeType, h] at mentions
    rcases NativeType.of_mentions_derive mentions with own | ⟨notCpp, unknown, name, base, word⟩
    · exact Or.inl (required_of_composite? mem own)
    · refine Or.inr ⟨name, ?_, word⟩
      have java : p.language = .java := by
        cases isJava : p.language <;> simp_all [Language.isCFamily]
      simp only [keptName?, h, base]
      exact if_pos ⟨java, unknown⟩

theorem required_of_composite?_nativeType {p : Plan} (h : p.parameters[i]? = some parameter)
    (composite : (p.nativeType i).composite? = some k) :
    k ∈ requiredStructures p.parameters p.entry := by
  have mem := List.mem_of_getElem? h
  obtain ⟨name, type, declared⟩ := parameter
  rw [nativeType, h] at composite
  cases declared with
  | some declared =>
    have mentions := NativeType.mentions_of_composite? composite
    exact required_of_declared mem rfl (NativeType.hasWord_of_mentions_parse mentions)
  | none =>
    rw [NativeType.composite?_derive] at composite
    exact required_of_composite? mem composite

theorem java_of_keptName? {p : Plan} {name : Text} (h : p.keptName? i = some name) :
    p.language = .java := by
  unfold keptName? at h
  split at h
  · split at h
    · split at h
      · rename_i kept
        exact kept.1
      · cases h
    · cases h
  · cases h

/-- The parsers that a literal calls are those of required structures, or they stand in a name that
was kept. -/
theorem required_of_calls_literal {p : Plan} (h : p.parameters[i]? = some parameter) {v : Value}
    (calls : Pieces.Calls k (p.literalPieces i parameter.type v)) :
    k ∈ requiredStructures p.parameters p.entry ∨
      ∃ name, p.keptName? i = some name ∧ hasWord k.typeName name = true := by
  unfold literalPieces writtenType Literal.pieces at calls
  cases native : p.language.isCFamily with
  | false =>
    rw [native, if_neg Bool.false_ne_true] at calls
    exact Or.inl (required_of_composite? (List.mem_of_getElem? h)
      (Literal.composite?_of_calls_dynamicPieces calls))
  | true =>
    rw [native, if_pos rfl] at calls
    have read := NativeType.hasWord_of_mentions_parse
      (Literal.mentions_of_calls_nativePieces calls)
    exact required_of_mentions_nativeType h native (NativeType.mentions_of_hasWord_render read)

/-- The parsers that a conversion calls are those of required structures. -/
theorem required_of_calls_conversion {p : Plan} (h : p.parameters[i]? = some parameter) {e : Text}
    (calls : Pieces.Calls k (p.conversionPieces i parameter.type e)) :
    k ∈ requiredStructures p.parameters p.entry := by
  have mem := List.mem_of_getElem? h
  rw [conversionPieces] at calls
  split at calls
  · exact required_of_composite? mem (Conversion.composite?_of_calls_dynamicPieces calls)
  · exact required_of_composite? mem (Conversion.composite?_of_calls_dynamicPieces calls)
  · exact required_of_composite?_nativeType h (Conversion.composite?_of_calls_javaPieces calls)
  · rename_i cpp
    rw [Pieces.calls_cons, Pieces.calls_text_cons] at calls
    have word : hasWord k.typeName ((p.nativeType i).render .cpp false) = true :=
      calls.resolve_right Pieces.calls_nil
    have native : p.language.isCFamily = true := by rw [cpp]; rfl
    have mentions := NativeType.mentions_of_hasWord_render word
    rcases required_of_mentions_nativeType h native mentions with required | ⟨name, kept, -⟩
    · exact required
    · have java := java_of_keptName? kept
      rw [cpp] at java
      cases java

end Closed

/-! ## What a program uses it contains -/

/-- What the programs of a plan use of structures they contain, the names aside that a derived type
keeps. -/
structure UsesContained (p : Plan) : Prop where
  /-- A case that is run has an input for each parameter, whose literal stands in the test harness.
  The parsers that the literal calls are contained, or they stand in a name that was kept. -/
  literals : ∀ {i : Nat} {parameter : PlannedParameter}, p.parameters[i]? = some parameter →
    ∀ c ∈ p.cases, ∀ {inputs : List Value} {accepted : List Text},
      c.body = .runnable inputs accepted → ∃ v, inputs[i]? = some v ∧
        p.literal i parameter.type v <:+: p.testHarness ∧
        Pieces.write p.language (p.literalPieces i parameter.type v) =
          p.literal i parameter.type v ∧
        ∀ k, Pieces.Calls k (p.literalPieces i parameter.type v) →
          k ∈ p.helperKinds ∨
            ∃ name, p.keptName? i = some name ∧ hasWord k.typeName name = true
  /-- The conversion of an input stands in the program that makes one call. The parsers that it
  calls are contained. -/
  conversions : ∀ {i : Nat} {parameter : PlannedParameter}, p.parameters[i]? = some parameter →
    p.conversion i parameter.type (p.inputRead i) <:+: p.callProgram ∧
      Pieces.write p.language (p.conversionPieces i parameter.type (p.inputRead i)) =
        p.conversion i parameter.type (p.inputRead i) ∧
      ∀ k, Pieces.Calls k (p.conversionPieces i parameter.type (p.inputRead i)) →
        k ∈ p.helperKinds
  /-- The serializer of an empty result is contained. -/
  result : ∀ k, p.resultKind = some k → k ∈ p.helperKinds
  /-- Nothing is contained twice, and the structures stand in their fixed order. -/
  ordered : p.helperKinds.Sublist Composite.all
  /-- The type of a structure is defined by the program or declared by the user. -/
  defined : ∀ k ∈ p.helperKinds,
    k ∈ p.definitionKinds ∨ declaresType p.language k.typeName p.source = true

section Build

variable {l : Language} {source : Text} {testCases : List TestCase} {schema : List SchemaEntry}
  {entryName : Option Text} {options : Option Options}

/-- What is required is built and read. -/
theorem mem_helperKinds_of_required {k : Composite}
    (h : k ∈ requiredStructures (build l source testCases schema entryName options).parameters
      (build l source testCases schema entryName options).entry) :
    k ∈ (build l source testCases schema entryName options).helperKinds :=
  List.mem_map.2 ⟨⟨k, !declaresType l k.typeName source, true⟩,
    List.mem_filter.2 ⟨mem_structuresOf_of_required h, rfl⟩, rfl⟩

theorem helperKinds_sublist :
    (build l source testCases schema entryName options).helperKinds.Sublist Composite.all :=
  (List.filter_sublist.map _).trans kinds_structuresOf_sublist

theorem defined_or_declared {k : Composite}
    (h : k ∈ (build l source testCases schema entryName options).helperKinds) :
    k ∈ (build l source testCases schema entryName options).definitionKinds ∨
      declaresType l k.typeName source = true := by
  obtain ⟨use, contained, rfl⟩ := List.mem_map.1 h
  have mem := (List.mem_filter.1 contained).1
  have definition := definition_of_mem_structuresOf mem
  cases declared : declaresType l use.kind.typeName source with
  | true => exact Or.inr rfl
  | false =>
    rw [declared] at definition
    exact Or.inl (List.mem_map.2 ⟨use, List.mem_filter.2 ⟨mem, definition⟩, rfl⟩)

theorem length_of_runnable {c : PlannedCase}
    (h : c ∈ (build l source testCases schema entryName options).cases) {inputs : List Value}
    {accepted : List Text} (runnable : c.body = .runnable inputs accepted) :
    inputs.length = (build l source testCases schema entryName options).parameters.length := by
  obtain ⟨⟨case, index⟩, -, rfl⟩ := List.mem_map.1 h
  simp only [caseOf] at runnable
  split at runnable
  · rename_i arity
    cases runnable
    exact arity
  · cases runnable

end Build

/-- Whatever is asked for, the program contains what it uses, but for the parsers that a literal
calls in a name that was kept. -/
theorem usesContained_build (l : Language) (source : Text) (testCases : List TestCase)
    (schema : List SchemaEntry) (entryName : Option Text) (options : Option Options) :
    (build l source testCases schema entryName options).UsesContained where
  literals := by
    intro i parameter h c hc inputs accepted runnable
    have inside : i < inputs.length := by
      rw [length_of_runnable hc runnable]
      exact (List.getElem?_eq_some_iff.1 h).1
    have given := List.getElem?_eq_getElem inside
    refine ⟨inputs[i], given, literal_isInfix_testHarness h hc runnable given,
      write_literalPieces _ i parameter.type _, ?_⟩
    intro k calls
    exact (required_of_calls_literal h calls).imp_left mem_helperKinds_of_required
  conversions := by
    intro i parameter h
    refine ⟨conversion_isInfix_callProgram h, write_conversionPieces _ i parameter.type _, ?_⟩
    intro k calls
    exact mem_helperKinds_of_required (required_of_calls_conversion h calls)
  result := by
    intro k h
    exact mem_helperKinds_of_required (required_of_resultKind h)
  ordered := helperKinds_sublist
  defined := by
    intro k h
    exact defined_or_declared h

/-- Trees in an array are built by their parser when the program reads its input. -/
theorem usesContained_build_forest :
    .treeNode ∈
      (build .typescript [] [] [⟨"roots", "TreeNode[]", none⟩] none none).helperKinds := by
  have typed : (build .typescript [] [] [⟨"roots", "TreeNode[]", none⟩] none none).parameters[0]? =
      some ⟨"roots", .array (.composite .treeNode), none⟩ := by decide +kernel
  refine ((usesContained_build _ _ _ _ _ _).conversions typed).2.2 .treeNode ?_
  exact ⟨.parser .treeNode, .tail _ (.head _), rfl⟩

/-! ## A kept name -/

/-- A plan for a parameter that is an array of queues of trees and whose type no signature
declares. The first case is empty and shows nothing of the queues, the second has one. -/
def queuesPlan : Plan :=
  build .java "class Solution \x7b\x7d"
    [⟨[.array []], .int 0⟩, ⟨[.array [.array [.int 1]]], .int 1⟩]
    [⟨"levels", "Deque<TreeNode>[]", none⟩] none none

/-- The second case calls the parser of trees, which the program does not contain. -/
theorem parser_missing_in_queuesPlan :
    ∃ parameter, queuesPlan.parameters[0]? = some parameter ∧
      ∃ c ∈ queuesPlan.cases, ∃ inputs accepted, c.body = .runnable inputs accepted ∧
        ∃ v, inputs[0]? = some v ∧
          Pieces.Calls .treeNode (queuesPlan.literalPieces 0 parameter.type v) ∧
          .treeNode ∉ queuesPlan.helperKinds := by
  have written : queuesPlan.writtenType 0 = some "Deque<TreeNode>[]" := by decide +kernel
  have read : NativeType.parse .java "Deque<TreeNode>[]" =
      .array (.list "Deque" (.composite .treeNode)) := by decide +kernel
  have missing : .treeNode ∉ queuesPlan.helperKinds := by decide +kernel
  refine ⟨_, rfl, _, List.mem_cons_of_mem _ List.mem_cons_self, [.array [.array [.int 1]]], _, rfl,
    _, rfl, ?_, missing⟩
  rw [literalPieces, written]
  change Pieces.Calls .treeNode (Literal.nativePieces .java (NativeType.parse .java _) _)
  rw [read]
  exact ⟨.parser .treeNode, .tail _ (.tail _ (.tail _ (.head _))), rfl⟩

end Plan

end HarnessSynthesis
