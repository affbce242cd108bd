/-
# Functions with type parameters

A function may have a section of type parameters behind its name. The scanner for functions takes
the section only when no bracket is closed in it but its own, and without the section it finds no
parenthesis behind the name. So, as with methods, a function whose bounds have arguments is lost and
every other one is found with all its parameters.
-/

import Mathlib.Data.List.DropRight
import HarnessSynthesis.Proofs.Entry.Arity
import HarnessSynthesis.Proofs.Entry.GenericMethods
import HarnessSynthesis.Proofs.Source.TypeHead

namespace HarnessSynthesis

open Source
open Text (isBlank trimStart)

namespace TypescriptSource

/-! ## What the scanner for functions reads -/

/-- Up to a parenthesis there are blanks, or a section of type parameters among blanks. -/
def IsParameterLead (t : Text) : Prop :=
  Text.Blank t ∨ ∃ gap s gap', '>' ∉ s ∧ Text.Blank gap' ∧ t = gap ++ (angle s ++ gap')

theorem exists_of_skipTypeParameters (t : Text) :
    skipTypeParameters t = t ∨ ∃ s, '>' ∉ s ∧ t = angle s ++ skipTypeParameters t := by
  unfold skipTypeParameters
  split
  · rename_i rest
    split
    · rename_i behind stopped
      refine Or.inr ⟨rest.takeWhile fun c => c != '>' && c != '(' && c != ')', fun mem => ?_, ?_⟩
      · exact absurd (List.mem_takeWhile_imp mem) (by decide)
      · rw [angle, List.cons_append, List.append_assoc, List.singleton_append, ← stopped,
          List.takeWhile_append_dropWhile]
    · exact Or.inl rfl
  · exact Or.inl rfl

theorem exists_of_openParen? {t behind : Text} (h : openParen? t = some behind) :
    ∃ lead, t = lead ++ '(' :: behind ∧ IsParameterLead lead := by
  have front := Text.takeWhile_append_trimStart t
  have rest := Text.takeWhile_append_trimStart (skipTypeParameters (trimStart t))
  have opened : trimStart (skipTypeParameters (trimStart t)) = '(' :: behind :=
    Text.afterPrefix?_eq_some_iff.1 h
  rcases exists_of_skipTypeParameters (trimStart t) with same | ⟨s, flat, whole⟩
  · have none : trimStart (trimStart t) = trimStart t := List.dropWhile_idempotent isBlank t
    rw [same, none] at opened
    exact ⟨t.takeWhile isBlank, by rw [← opened, front], Or.inl (Text.blank_takeWhile t)⟩
  · rw [opened] at rest
    refine ⟨t.takeWhile isBlank ++ (angle s ++
      (skipTypeParameters (trimStart t)).takeWhile isBlank), ?_, Or.inr ⟨_, s, _, flat,
        Text.blank_takeWhile _, rfl⟩⟩
    rw [List.append_assoc, List.append_assoc, rest, ← whole, front]

theorem skipChar_suffix (c : Char) (t : Text) : skipChar c t <:+ t := by
  cases t with
  | nil => exact List.suffix_refl []
  | cons d t =>
    rw [skipChar]
    split
    · exact List.suffix_cons d t
    · exact List.suffix_refl _

theorem skipStar_suffix (t : Text) : skipStar t <:+ t :=
  ((List.dropWhile_suffix _).trans (skipChar_suffix '*' _)).trans (List.dropWhile_suffix _)

theorem exists_of_function? {previous : Option Char} {t behind : Text} {named : Named}
    (h : function? previous t = some (named, behind)) :
    named.behind = behind ∧ IsName isNameStart isNamePart named.name ∧
      ∃ lead, IsParameterLead lead ∧
        t = named.lead ++ (named.name ++ (lead ++ '(' :: behind)) := by
  obtain ⟨-, -, h⟩ := Option.bind_eq_some_iff.1 h
  obtain ⟨rest, keyword, h⟩ := Option.bind_eq_some_iff.1 h
  obtain ⟨-, -, h⟩ := Option.bind_eq_some_iff.1 h
  obtain ⟨⟨name, rest'⟩, read, h⟩ := Option.bind_eq_some_iff.1 h
  obtain ⟨behind', opened, h⟩ := Option.bind_eq_some_iff.1 h
  cases h
  obtain ⟨lead, whole, isLead⟩ := exists_of_openParen? opened
  refine ⟨rfl, isName_of_name? read, lead, isLead, ?_⟩
  rw [← whole, ← eq_append_of_name? read]
  exact (leadOf_append ((skipStar_suffix rest).trans (suffix_of_afterPrefix? keyword))).symm

theorem readsTo_function? : function?.ReadsTo '(' := by
  intro previous t behind named h
  obtain ⟨-, -, lead, -, whole⟩ := exists_of_function? h
  exact ⟨named.lead ++ (named.name ++ lead), by rw [whole, List.append_assoc, List.append_assoc]⟩

/-! ## What the other scanners need -/

theorem suffix_of_boundName? {previous : Option Char} {t atName name rest : Text}
    (h : boundName? previous t = some (atName, name, rest)) : rest <:+ t := by
  obtain ⟨-, -, h⟩ := Option.bind_eq_some_iff.1 h
  obtain ⟨⟨word, spaced⟩, keyword, h⟩ := Option.bind_eq_some_iff.1 h
  obtain ⟨atName', blanks, h⟩ := Option.bind_eq_some_iff.1 h
  obtain ⟨⟨name', behind⟩, read, h⟩ := Option.bind_eq_some_iff.1 h
  cases h
  obtain ⟨-, rfl⟩ := eq_append_of_anyOf? keyword
  obtain ⟨gap, -, -, rfl⟩ := exists_of_blanks? blanks
  rw [eq_append_of_name? read]
  exact (((List.dropWhile_suffix _).trans (List.suffix_append _ _)).trans
    (List.suffix_append _ _)).trans (List.suffix_append _ _)

theorem suffix_of_skipAnnotation? {t rest : Text} (h : skipAnnotation? t = some rest) :
    rest <:+ t := by
  unfold skipAnnotation? at h
  split at h
  · obtain ⟨⟨run, behind⟩, read, rfl⟩ := Option.map_eq_some_iff.1 h
    unfold run? at read
    split at read
    · cases read
    · cases read
      exact (List.dropWhile_suffix _).trans (List.suffix_cons _ _)
  · cases h
    exact List.suffix_refl _

theorem mem_of_afterPrefix?_singleton {c : Char} {t rest whole : Text}
    (h : Text.afterPrefix? [c] t = some rest) (ending : t <:+ whole) : c ∈ whole := by
  refine ending.subset ?_
  rw [Text.afterPrefix?_eq_some_iff.1 h]
  exact List.mem_cons_self

/-- A name is bound by an equality sign. -/
theorem needs_binding? : binding?.Needs '=' := by
  intro t absent previous
  refine Option.eq_none_iff_forall_ne_some.2 fun _ h => ?_
  obtain ⟨⟨atName, name, rest⟩, bound, h⟩ := Option.bind_eq_some_iff.1 h
  obtain ⟨rest', annotated, h⟩ := Option.bind_eq_some_iff.1 h
  obtain ⟨behind, equals, -⟩ := Option.bind_eq_some_iff.1 h
  exact absent (mem_of_afterPrefix?_singleton equals
    ((suffix_of_skipAnnotation? annotated).trans (suffix_of_boundName? bound)))

theorem needs_singleArrow? : singleArrow?.Needs '=' := by
  intro t absent previous
  refine Option.eq_none_iff_forall_ne_some.2 fun _ h => ?_
  obtain ⟨⟨atName, name, rest⟩, bound, h⟩ := Option.bind_eq_some_iff.1 h
  obtain ⟨behind, equals, -⟩ := Option.bind_eq_some_iff.1 h
  exact absent (mem_of_afterPrefix?_singleton equals (suffix_of_boundName? bound))

theorem beginsLines_method? : method?.BeginsLines := by
  intro previous inLine t
  rw [method?, inLine]
  rfl

/-! ## Functions -/

/-- What stands in front of the name of a function. -/
def functionLead : Text :=
  "function "

/-- A function with a section of type parameters and an empty body. -/
def genericFunction (parameters : TypeSyntax .parameters) (name : Identifier)
    (order : ParameterOrder) (ps : List TypedParameter) : Text :=
  functionLead ++ (name.text ++ (angle parameters.write ++ '(' :: declarationTail order ps))

/-- What is found of such a function. -/
def genericCandidate (name : Identifier) (order : ParameterOrder) (ps : List TypedParameter) :
    Candidate :=
  Candidate.of functionLead name.text (writeParameters order ps) none 0

/-- In front of a name no parenthesis is opened. -/
theorem openParen?_name (n : Identifier) (t : Text) : openParen? (' ' :: (n.text ++ t)) = none := by
  obtain ⟨c, rest, whole, named⟩ := n.exists_head
  have other (d : Char) (mark : ¬ IsIdentifierChar d) : c ≠ d := fun same => mark (same ▸ named)
  have skipped : skipTypeParameters (c :: (rest ++ t)) = c :: (rest ++ t) := by
    unfold skipTypeParameters
    split
    · rename_i same
      exact absurd (List.cons.inj same).1 (other '<' (by decide))
    · rfl
  rw [openParen?, whole, Text.trimStart_cons_of_isBlank (by decide), List.cons_append,
    Text.trimStart_cons_of_not_isBlank named.1, skipped, Text.trimStart_cons_of_not_isBlank named.1]
  refine Text.afterPrefix?_eq_none fun start => other '(' (by decide) ?_
  exact (List.cons_prefix_cons.1 start).1.symm

theorem methodName?_eq_none {whole t name rest : Text}
    (read : scriptName? (methodName?.skipStar' t) = some (name, rest))
    (unopened : openParen? rest = none) : methodName? whole t = none := by
  simp only [methodName?, read, unopened, Option.bind_eq_bind, Option.bind_some, Option.bind_none]

/-- Behind the keyword of a function there is a name, so the keyword is the name of no method. -/
theorem method?_functionLead (n : Identifier) (t : Text) :
    method? none (functionLead ++ (n.text ++ t)) = none := by
  have keyword : IsName isNameStart isNamePart "function" :=
    ⟨'f', "unction", rfl, by decide, List.all_iff_forall_prop.1 (by decide)⟩
  have read : scriptName? (methodName?.skipStar' (functionLead ++ (n.text ++ t))) =
      some ("function".toList, ' ' :: (n.text ++ t)) :=
    keyword.name?_append_cons (c := ' ') (by decide) (n.text ++ t)
  have unnamed : methodName? (functionLead ++ (n.text ++ t)) (functionLead ++ (n.text ++ t)) =
      none := methodName?_eq_none read (openParen?_name n t)
  have whole : method? none (functionLead ++ (n.text ++ t)) =
    (methodName? (functionLead ++ (n.text ++ t)) (functionLead ++ (n.text ++ t))).bind
      fun named => some (named, named.behind) := rfl
  rw [whole, unnamed, Option.bind_none]

theorem openParen?_angle {s : Text} (flat : ∀ c ∈ s, c ≠ '>' ∧ c ≠ '(' ∧ c ≠ ')') (t : Text) :
    openParen? (angle s ++ '(' :: t) = some t := by
  have passes : ∀ c ∈ s, (c != '>' && c != '(' && c != ')') = true := fun c mem => by
    simp [flat c mem]
  have stopped : (s ++ '>' :: '(' :: t).dropWhile (fun c => c != '>' && c != '(' && c != ')') =
      '>' :: '(' :: t := by
    rw [List.dropWhile_append_of_pos passes, List.dropWhile_cons_of_neg (by decide)]
  have skipped : skipTypeParameters (angle s ++ '(' :: t) = '(' :: t := by
    rw [angle, List.cons_append, List.append_assoc, List.singleton_append, skipTypeParameters,
      stopped]
    rfl
  have angled : trimStart (angle s ++ '(' :: t) = angle s ++ '(' :: t :=
    Text.trimStart_cons_of_not_isBlank (by decide)
  rw [openParen?, angled, skipped, Text.trimStart_cons_of_not_isBlank (by decide)]
  rfl

section Function

variable (parameters : TypeSyntax .parameters) (name : Identifier) (order : ParameterOrder)
  (ps : List TypedParameter)

theorem symbols_genericFunction :
    ∀ c ∈ genericFunction parameters name order ps, IsDeclarationSymbol c := by
  have lead : ∀ c ∈ functionLead, IsDeclarationSymbol c :=
    List.all_iff_forall_prop.1 (by decide)
  refine List.forall_mem_append.2 ⟨lead, List.forall_mem_append.2 ⟨fun c mem => ?_,
    List.forall_mem_append.2 ⟨fun c mem => ?_, ?_⟩⟩⟩
  · exact Or.inl (Or.inl (Or.inl (name.named c mem)))
  · exact Or.inl (Or.inl (symbols_angle parameters.neat.symbols c mem))
  · exact List.forall_mem_cons.2 ⟨by decide, symbols_declarationTail order ps⟩

/-- A function is no method, and behind its start no line begins. -/
theorem methods_genericFunction : methods (genericFunction parameters name order ps) = [] := by
  have feed : '\n' ∉ genericFunction parameters name order ps := fun mem =>
    absurd (symbols_genericFunction parameters name order ps _ mem) (by decide)
  obtain ⟨rest, source⟩ : ∃ rest, genericFunction parameters name order ps = 'f' :: rest :=
    ⟨_, rfl⟩
  have first : method? none (genericFunction parameters name order ps) = none :=
    method?_functionLead name _
  rw [source] at feed first
  have further : occurrencesFrom method? ['f'] (rest ++ []) =
      occurrencesFrom method? (rest.reverse ++ ['f']) [] :=
    beginsLines_method?.occurrencesFrom_append (by decide)
      (fun mem => feed (List.mem_cons_of_mem 'f' mem)) []
  rw [List.append_nil] at further
  rw [methods, source, occurrences, occurrencesFrom_cons_of_none first, further, occurrencesFrom,
    List.filterMap_nil]

theorem candidates_genericFunction :
    candidates (genericFunction parameters name order ps) =
      (functions (genericFunction parameters name order ps)).filter fun c =>
        !Candidate.isExcluded c.name := by
  have absent : '=' ∉ genericFunction parameters name order ps := fun mem =>
    absurd (symbols_genericFunction parameters name order ps _ mem) (by decide)
  have noBinding : bindings (genericFunction parameters name order ps) = [] := by
    rw [bindings, occurrences, needs_binding?.occurrencesFrom_eq_nil absent, List.filterMap_nil]
  have noArrow : singleArrows (genericFunction parameters name order ps) = [] := by
    rw [singleArrows, occurrences, needs_singleArrow?.occurrencesFrom_eq_nil absent, List.map_nil]
  rw [candidates, noBinding, noArrow, methods_genericFunction, List.append_nil, List.append_nil,
    List.append_nil]

/-! ### What is found -/

theorem skipStar_name (n : Identifier) (t : Text) :
    skipStar (' ' :: (n.text ++ t)) = n.text ++ t := by
  obtain ⟨c, rest, whole, named⟩ := n.exists_head
  have other : c ≠ '*' := fun same => absurd (same ▸ named) (by decide)
  rw [skipStar, whole, Text.trimStart_cons_of_isBlank (by decide), List.cons_append,
    Text.trimStart_cons_of_not_isBlank named.1, skipChar, if_neg other,
    Text.trimStart_cons_of_not_isBlank named.1]

theorem function?_functionLead (t : Text) :
    function? none (functionLead ++ t) =
      (scriptName? (skipStar (' ' :: t))).bind fun (name, rest) =>
        (openParen? rest).bind fun behind =>
          some (⟨leadOf (functionLead ++ t) (skipStar (' ' :: t)), name, behind⟩, behind) :=
  rfl

variable {parameters name}

theorem function?_genericFunction (flat : '>' ∉ parameters.write)
    (script : IsName isNameStart isNamePart name.text) :
    function? none (genericFunction parameters name order ps) =
      some (⟨functionLead, name.text, declarationTail order ps⟩, declarationTail order ps) := by
  have symbols : ∀ c ∈ parameters.write, c ≠ '>' ∧ c ≠ '(' ∧ c ≠ ')' := by
    intro c mem
    have other (d : Char) (mark : ¬ IsTypeSymbol d) : c ≠ d := fun same =>
      mark (same ▸ parameters.neat.symbols c mem)
    exact ⟨fun same => flat (same ▸ mem), other '(' (by decide), other ')' (by decide)⟩
  have read : scriptName? (name.text ++ (angle parameters.write ++ '(' ::
      declarationTail order ps)) = some (name.text, angle parameters.write ++ '(' ::
        declarationTail order ps) := script.name?_append_cons (c := '<') (by decide) _
  rw [genericFunction, function?_functionLead, skipStar_name, read, Option.bind_some,
    List.append_cancel_right (leadOf_append (List.suffix_append functionLead _))]
  dsimp only
  rw [openParen?_angle symbols, Option.bind_some]

theorem occurrences_genericFunction (flat : '>' ∉ parameters.write)
    (script : IsName isNameStart isNamePart name.text) :
    occurrences function? (genericFunction parameters name order ps) =
      [⟨[], functionLead, name.text, declarationTail order ps⟩] := by
  have read := function?_genericFunction order ps flat script
  have source : genericFunction parameters name order ps =
      [] ++ (functionLead ++ (name.text ++ angle parameters.write) ++ '(' ::
        declarationTail order ps) := by
    rw [genericFunction, List.nil_append, List.append_assoc, List.append_assoc]
  rw [source] at read ⊢
  refine readsTo_function?.occurrences_eq (not_mem_declarationTail order ps) ?_ read
  intro u v whole more
  exact absurd (List.append_eq_nil_iff.1 whole.symm).2 more

theorem declared?_genericFunction (name : Identifier) :
    declared? ⟨[], functionLead, name.text, declarationTail order ps⟩
      (fun behind => some (returnType? behind)) = some (genericCandidate name order ps) := by
  have closed := closeBracket?_declarationTail order ps
  have noType : returnType? emptyBody = none := by decide
  simp only [declared?, closed, noType, Option.bind_eq_bind, Option.bind_some]
  rfl

theorem findCandidates_genericFunction (ordinary : Candidate.isExcluded name.text = false)
    (flat : '>' ∉ parameters.write) (script : IsName isNameStart isNamePart name.text) :
    findCandidates .typescript (genericFunction parameters name order ps) =
      [genericCandidate name order ps] := by
  have found : candidates (genericFunction parameters name order ps) =
      [genericCandidate name order ps] := by
    rw [candidates_genericFunction, functions, occurrences_genericFunction order ps flat script,
      List.filterMap_cons, declared?_genericFunction]
    exact List.filter_cons_of_pos (by rw [genericCandidate, Candidate.of, ordinary]; rfl)
  have symbols := symbols_genericFunction parameters name order ps
  rw [findCandidates, stripComments_declaration .typescript symbols]
  simp only [found]
  exact Candidate.arrange_singleton rfl

theorem name_of_declared? {hit : Hit Named} {type? : Text → Option (Option Text)} {c : Candidate}
    (h : declared? hit type? = some c) : c.name = hit.found.name := by
  obtain ⟨⟨arguments, behind⟩, -, h⟩ := Option.bind_eq_some_iff.1 h
  obtain ⟨type, -, h⟩ := Option.bind_eq_some_iff.1 h
  cases h
  rfl

/-- Where a text ends with a section, any other ending in angle brackets has a bracket closed in
it. -/
theorem flat_of_append_angle {front t s : Text} (noAngle : '<' ∉ front) (flat : '>' ∉ s)
    (same : front ++ angle parameters.write = t ++ angle s) : '>' ∉ parameters.write := by
  have sections : front ++ '<' :: parameters.write = t ++ '<' :: s := by
    rw [angle, angle, ← List.cons_append, ← List.cons_append, ← List.append_assoc,
      ← List.append_assoc] at same
    exact List.append_cancel_right same
  rcases Text.append_eq_append_cons sections with ⟨more, rfl, -⟩ | ⟨more, -, whole⟩
  · exact absurd (List.mem_append_right t List.mem_cons_self) noAngle
  · cases more with
    | nil =>
      rw [(List.cons.inj whole).2]
      exact flat
    | cons c more =>
      -- the second section starts inside of the first one, where each bracket is closed
      exact absurd (parameters.neat.closes more s (List.cons.inj whole).2) flat

/-- A section up to the parenthesis that has no bracket closed in it is the whole section: one that
is opened inside of it is closed inside of it. -/
theorem flat_of_isParameterLead {front t lead : Text} (noAngle : '<' ∉ front)
    (isLead : IsParameterLead lead) (named : ∀ c ∈ t.getLast?, c ≠ '>')
    (same : front ++ angle parameters.write = t ++ lead) : '>' ∉ parameters.write := by
  have last : (front ++ angle parameters.write).getLast? = some '>' := by
    rw [angle, ← List.cons_append, ← List.append_assoc, List.getLast?_concat]
  have visible : ∀ c ∈ (front ++ angle parameters.write).getLast?, isBlank c = false := by
    rintro c mem
    rw [last, Option.mem_some_iff] at mem
    rw [← mem]
    rfl
  rcases isLead with blank | ⟨gap, s, gap', flat, blank, rfl⟩
  · rw [same] at visible last
    rw [blank.eq_nil_of_getLast? visible, List.append_nil] at last
    exact absurd rfl (named '>' last)
  · rw [← List.append_assoc, ← List.append_assoc] at same
    rw [same] at visible
    rw [blank.eq_nil_of_getLast? visible, List.append_nil] at same
    exact flat_of_append_angle noAngle flat same

/-- Whatever candidate has the name of the function stands in its place, so the section is one that
the scanner takes and the name is known to it. -/
theorem known_of_mem_findCandidates {c : Candidate}
    (mem : c ∈ findCandidates .typescript (genericFunction parameters name order ps))
    (same : c.name = name.text) :
    '>' ∉ parameters.write ∧ IsName isNameStart isNamePart name.text := by
  have symbols := symbols_genericFunction parameters name order ps
  have plain : ∀ c ∈ functionLead ++ name.text, IsPlainSymbol c := by
    have keyword : ∀ c ∈ functionLead, IsPlainSymbol c := List.all_iff_forall_prop.1 (by decide)
    exact List.forall_mem_append.2 ⟨keyword, name.plain⟩
  have noFront : '(' ∉ functionLead ++ name.text ++ angle parameters.write := by
    rw [List.mem_append, not_or]
    refine ⟨not_mem_of_plain plain (by decide), fun mem => ?_⟩
    exact absurd (symbols_angle parameters.neat.symbols _ mem) (by decide)
  rw [findCandidates, stripComments_declaration .typescript symbols] at mem
  obtain ⟨d, found, arranged⟩ := Candidate.exists_of_mem_arrange mem
  rw [candidates_genericFunction] at found
  obtain ⟨hit, occurs, declared⟩ := List.mem_filterMap.1 (List.mem_filter.1 found).1
  have sameName : hit.found.name = name.text := by
    rw [← same, arranged, name_of_declared? declared]
  rw [genericFunction, ← List.append_assoc, ← List.append_assoc] at occurs
  obtain ⟨taken, place, read⟩ :=
    readsTo_function?.exists_of_mem noFront (not_mem_declarationTail order ps) occurs
  obtain ⟨-, script, lead, isLead, whole⟩ := exists_of_function? read
  rw [sameName] at script whole
  rw [← List.append_assoc, ← List.append_assoc] at whole
  rw [List.append_cancel_right whole, ← List.append_assoc] at place
  refine ⟨flat_of_isParameterLead (not_mem_of_plain plain (by decide)) isLead ?_ place, script⟩
  rw [← List.append_assoc]
  rintro c last rfl
  exact absurd (name.named_of_mem_getLast? _ '>' last) (by decide)

theorem findCandidates_genericFunction_iff (ordinary : Candidate.isExcluded name.text = false) :
    (∃ c, findCandidates .typescript (genericFunction parameters name order ps) = [c] ∧
        c.name = name.text ∧ c.modifiers = [] ∧ c.argumentCount = ps.length) ↔
      '>' ∉ parameters.write ∧ IsName isNameStart isNamePart name.text := by
  constructor
  · rintro ⟨c, found, same, -, -⟩
    exact known_of_mem_findCandidates order ps (found ▸ List.mem_singleton_self c) same
  · rintro ⟨flat, script⟩
    refine ⟨_, findCandidates_genericFunction order ps ordinary flat script, rfl, rfl, ?_⟩
    show (splitParameters (writeParameters order ps)).length = ps.length
    rw [splitParameters_writeParameters, List.length_map]

end Function

end TypescriptSource

/-! ## Sections of type parameters -/

/-- A method and a function with a section of type parameters are the only candidates of their
sources, with the modifiers and all the parameters, exactly when no bracket stands in the brackets
of the section and the names are spelled with the characters that the scanners know. -/
theorem findCandidates_generic_iff {modifiers : List Text} {name : Identifier}
    (known : ∀ word ∈ modifiers, word ∈ TypedSource.methodModifiers)
    (ordinary : Candidate.isExcluded name.text = false) (parameters : TypeSyntax .parameters)
    (t : TypeSyntax .type) (order : ParameterOrder) (ps : List TypedParameter) :
    ((∃ c, findCandidates .java (TypedSource.genericMethod modifiers parameters t name ps) = [c] ∧
        c.name = name.text ∧ c.modifiers = modifiers ∧ c.argumentCount = ps.length) ↔
      '>' ∉ parameters.write ∧ TypedSource.IsWordType t.write ∧
        IsName Text.isNameStart Text.isWordChar name.text) ∧
    ((∃ c, findCandidates .typescript
          (TypescriptSource.genericFunction parameters name order ps) = [c] ∧
        c.name = name.text ∧ c.modifiers = [] ∧ c.argumentCount = ps.length) ↔
      '>' ∉ parameters.write ∧
        IsName TypescriptSource.isNameStart TypescriptSource.isNamePart name.text) :=
  ⟨TypedSource.findCandidates_genericMethod_iff known ordinary,
    TypescriptSource.findCandidates_genericFunction_iff order ps ordinary⟩

def letterT : Identifier :=
  ⟨"T", by decide, List.all_iff_forall_prop.1 (by decide)⟩

def comparable : Identifier :=
  ⟨"Comparable", by decide, List.all_iff_forall_prop.1 (by decide)⟩

def pick : Identifier :=
  ⟨"pick", by decide, List.all_iff_forall_prop.1 (by decide)⟩

/-- Two parameters of the type that is the parameter of the section. -/
def pickParameters : List TypedParameter :=
  [⟨.name letterT, "a", by decide, List.all_iff_forall_prop.1 (by decide)⟩,
    ⟨.name letterT, "b", by decide, List.all_iff_forall_prop.1 (by decide)⟩]

/-- A type parameter with a bound. -/
def boundedBy (bound : TypeSyntax .type) : TypeSyntax .parameters :=
  .boundedParameter 0 letterT 0 0 (.bound bound) 0

/-- Bounds without arguments do no harm. -/
theorem findCandidates_generic_iff_bounded :
    (∃ c, findCandidates .java
          "public static <T extends Comparable> T pick(T a, T b) \x7b \x7d" = [c] ∧
        c.name = "pick".toList ∧ c.modifiers = ["public".toList, "static".toList] ∧
        c.argumentCount = 2) ∧
      ∃ c, findCandidates .typescript
          "function pick<T extends Comparable>(a: T, b: T) \x7b \x7d" = [c] ∧
        c.name = "pick".toList ∧ c.modifiers = [] ∧ c.argumentCount = 2 := by
  have known : ∀ word ∈ ["public".toList, "static".toList], word ∈ TypedSource.methodModifiers := by
    decide
  have ordinary : Candidate.isExcluded pick.text = false := by decide
  have both := findCandidates_generic_iff known ordinary (boundedBy (.name comparable))
    (.name letterT) .nameFirst pickParameters
  have method : TypedSource.genericMethod ["public".toList, "static".toList]
      (boundedBy (.name comparable)) (.name letterT) pick pickParameters =
        "public static <T extends Comparable> T pick(T a, T b) \x7b \x7d".toList := by
    decide
  have function : TypescriptSource.genericFunction (boundedBy (.name comparable)) pick .nameFirst
      pickParameters = "function pick<T extends Comparable>(a: T, b: T) \x7b \x7d".toList := by
    decide
  rw [method, function] at both
  have type : TypedSource.IsWordType letterT.text :=
    ⟨by decide, List.all_iff_forall_prop.1 (by decide)⟩
  have word : IsName Text.isNameStart Text.isWordChar pick.text :=
    ⟨'p', "ick", rfl, by decide, List.all_iff_forall_prop.1 (by decide)⟩
  have script : IsName TypescriptSource.isNameStart TypescriptSource.isNamePart pick.text :=
    ⟨'p', "ick", rfl, by decide, List.all_iff_forall_prop.1 (by decide)⟩
  exact ⟨both.1.2 ⟨by decide, type, word⟩, both.2.2 ⟨by decide, script⟩⟩

/-- The argument of a bound is enough to lose both. -/
theorem findCandidates_generic_nested :
    TypedSource.genericMethod ["public", "static"]
          (boundedBy (.generic (.name comparable) 0 (.argument 0 (.name letterT) 0)))
          (.name letterT) pick pickParameters =
        "public static <T extends Comparable<T>> T pick(T a, T b) \x7b \x7d".toList ∧
      TypescriptSource.genericFunction
          (boundedBy (.generic (.name comparable) 0 (.argument 0 (.name letterT) 0)))
          pick .nameFirst pickParameters =
        "function pick<T extends Comparable<T>>(a: T, b: T) \x7b \x7d".toList ∧
      Candidate.isExcluded pick.text = false ∧
      findCandidates .java
        "public static <T extends Comparable<T>> T pick(T a, T b) \x7b \x7d" = [] ∧
      findCandidates .typescript
        "function pick<T extends Comparable<T>>(a: T, b: T) \x7b \x7d" = [] :=
  ⟨by decide, by decide, by decide, by decide +kernel, by decide +kernel⟩

end HarnessSynthesis
