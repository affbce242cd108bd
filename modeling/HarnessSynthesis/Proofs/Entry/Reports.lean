/-
# Resolution by offsets

Resolution answers for any source, however malformed, and is stopped by none. Whoever searches, as
long as the hits lie in the source, every slice that is taken lies between two characters of it, no
count of open brackets falls below zero, and every loop comes nearer to its end in each round. With
what the scanners find for hits, the answers are the candidates of the source and the function that
a harness calls.
-/

import HarnessSynthesis.Proofs.Entry.CandidateOffsets
import HarnessSynthesis.Proofs.Entry.GenericFunctions
import HarnessSynthesis.Proofs.Text.Words

namespace HarnessSynthesis

open Source Json
open Text (Blank isBlank)

/-! ## What the scanners report -/

/-- The hit with a name, and a text behind all of it. -/
def Capture.of (t before name behind : Text) : Capture :=
  ⟨.behind before name, t.octets - behind.octets⟩

namespace TypescriptSource

/-- A hit by offsets. -/
def Named.capture (t : Text) (hit : Hit Named) : Capture :=
  .of t (hit.before ++ hit.found.lead) hit.found.name hit.found.behind

/-- Where the bare parameter of an arrow function lies: in front of the arrow, with blanks between
them. -/
def parameterSpan (t : Text) (hit : Hit (Named × Text)) : Span :=
  let front := ((Text.beforeSuffix? "=>" (leadOf t hit.found.1.behind)).getD []).trimEnd
  ⟨front.octets - hit.found.2.octets, front.octets⟩

/-- Whether a scanner reads a name, and behind it up to a parenthesis. -/
def ReadsNames (scan : Scanner Named) : Prop :=
  ∀ {previous : Option Char} {t behind : Text} {named : Named},
    scan previous t = some (named, behind) → named.behind = behind ∧
      ∃ gap, t = named.lead ++ (named.name ++ (gap ++ '(' :: behind))

section Scanners

variable {previous : Option Char} {t behind : Text}

theorem ReadsNames.takes {scan : Scanner Named} (reads : ReadsNames scan) : scan.Takes := by
  intro previous t behind named h
  obtain ⟨-, gap, rfl⟩ := reads h
  exact ((((List.suffix_cons _ _).trans (List.suffix_append _ _)).trans
    (List.suffix_append _ _)).trans (List.suffix_append _ _))

/-- A hit is a name in the text, and a parenthesis behind it. -/
theorem ReadsNames.exists_of_mem {scan : Scanner Named} (reads : ReadsNames scan) {hit : Hit Named}
    (h : hit ∈ occurrences scan t) : ∃ gap,
      t = hit.before ++ hit.found.lead ++ hit.found.name ++ (gap ++ '(' :: hit.found.behind) := by
  obtain ⟨rest, behind, whole, read⟩ := exists_of_mem_occurrences reads.takes h
  obtain ⟨same, gap, place⟩ := reads read
  refine ⟨gap, ?_⟩
  rw [whole, place, same]
  simp only [List.append_assoc]

theorem readsNames_function? : ReadsNames function? := by
  intro previous t behind named h
  obtain ⟨same, -, lead, -, whole⟩ := exists_of_function? h
  exact ⟨same, lead, whole⟩

theorem readsNames_definition? : ReadsNames PythonSource.definition? := by
  intro previous t behind named h
  obtain ⟨gap, -, whole, same⟩ := PythonSource.exists_of_definition? h
  exact ⟨same, gap, whole⟩

/-- A name with a parenthesis somewhere behind it, read from a place of a text. -/
theorem exists_of_suffix {atName name rest : Text} (ending : atName <:+ t)
    (read : scriptName? atName = some (name, rest)) (opened : '(' :: behind <:+ rest) :
    ∃ gap, t = leadOf t atName ++ (name ++ (gap ++ '(' :: behind)) := by
  obtain ⟨gap, rfl⟩ := opened
  refine ⟨gap, ?_⟩
  rw [← eq_append_of_name? read]
  exact (leadOf_append ending).symm

theorem suffix_of_openParen? (h : openParen? t = some behind) : '(' :: behind <:+ t := by
  obtain ⟨lead, whole, -⟩ := exists_of_openParen? h
  exact ⟨lead, whole.symm⟩

theorem exists_of_boundName? {atName name rest : Text}
    (h : boundName? previous t = some (atName, name, rest)) :
    atName <:+ t ∧ ∃ rest', scriptName? atName = some (name, rest') ∧ rest <:+ rest' := by
  obtain ⟨-, -, h⟩ := Option.bind_eq_some_iff.1 h
  obtain ⟨⟨word, spaced⟩, keyword, h⟩ := Option.bind_eq_some_iff.1 h
  obtain ⟨atName', blanks, h⟩ := Option.bind_eq_some_iff.1 h
  obtain ⟨⟨name', rest'⟩, read, h⟩ := Option.bind_eq_some_iff.1 h
  cases h
  obtain ⟨gap, -, -, rfl⟩ := exists_of_blanks? blanks
  refine ⟨?_, rest', read, List.dropWhile_suffix _⟩
  rw [(eq_append_of_anyOf? keyword).2]
  exact (List.suffix_append _ _).trans (List.suffix_append _ _)

theorem trimmed_after_suffix {start rest : Text} (h : Text.afterPrefix? start t = some rest) :
    rest.trimStart <:+ t :=
  (List.dropWhile_suffix _).trans (suffix_of_afterPrefix? h)

theorem skipAsync_suffix (t : Text) : skipAsync t <:+ t := by
  rw [skipAsync]
  cases read : Text.afterPrefix? "async" t with
  | none => exact List.suffix_refl t
  | some rest => exact trimmed_after_suffix read

theorem skipFunctionHead_suffix (t : Text) : skipFunctionHead t <:+ t := by
  unfold skipFunctionHead
  split
  · rename_i rest read
    split
    · exact (((List.dropWhile_suffix _).trans (List.dropWhile_suffix _)).trans
        (skipStar_suffix rest)).trans (suffix_of_afterPrefix? read)
    · exact List.suffix_refl t
  · exact List.suffix_refl t

theorem readsNames_binding? : ReadsNames binding? := by
  intro previous t behind named h
  obtain ⟨⟨atName, name, rest⟩, bound, h⟩ := Option.bind_eq_some_iff.1 h
  obtain ⟨annotated, annotation, h⟩ := Option.bind_eq_some_iff.1 h
  obtain ⟨value, equals, h⟩ := Option.bind_eq_some_iff.1 h
  obtain ⟨behind', opened, h⟩ := Option.bind_eq_some_iff.1 h
  cases h
  obtain ⟨ending, rest', read, further⟩ := exists_of_boundName? bound
  have head : skipFunctionHead (skipAsync value.trimStart) <:+ value :=
    ((skipFunctionHead_suffix _).trans (skipAsync_suffix _)).trans (List.dropWhile_suffix _)
  have parenthesis : '(' :: behind <:+ rest' :=
    ((((suffix_of_openParen? opened).trans head).trans (suffix_of_afterPrefix? equals)).trans
      (suffix_of_skipAnnotation? annotation)).trans further
  exact ⟨rfl, exists_of_suffix ending read parenthesis⟩

theorem skipStar'_suffix (t : Text) : methodName?.skipStar' t <:+ t :=
  (List.dropWhile_suffix _).trans (skipChar_suffix '*' t)

theorem exists_of_methodName? {whole : Text} {named : Named} (ending : t <:+ whole)
    (h : methodName? whole t = some named) :
    ∃ gap, whole = named.lead ++ (named.name ++ (gap ++ '(' :: named.behind)) := by
  obtain ⟨⟨name, rest⟩, read, h⟩ := Option.bind_eq_some_iff.1 h
  obtain ⟨behind, opened, h⟩ := Option.bind_eq_some_iff.1 h
  cases h
  exact exists_of_suffix ((skipStar'_suffix t).trans ending) read (suffix_of_openParen? opened)

/-- However many words stand in front of it, a name is read. By induction on the words that may
follow. -/
theorem exists_of_methodFrom? {whole : Text} {fuel : Nat} {named : Named} (ending : t <:+ whole)
    (h : methodFrom? whole fuel t = some named) :
    ∃ gap, whole = named.lead ++ (named.name ++ (gap ++ '(' :: named.behind)) := by
  induction fuel generalizing t with
  | zero => exact exists_of_methodName? ending h
  | succ fuel ih =>
    rw [methodFrom?] at h
    split at h
    · rename_i rest worded
      obtain ⟨⟨word, spaced⟩, keyword, blanks⟩ := Option.bind_eq_some_iff.1 worded
      obtain ⟨gap, -, -, rfl⟩ := exists_of_blanks? blanks
      have further : rest <:+ t := by
        rw [(eq_append_of_anyOf? keyword).2]
        exact (List.suffix_append _ _).trans (List.suffix_append _ _)
      rcases (Option.orElse_eq_some _ _ _).1 h with h | ⟨-, h⟩
      · exact ih (further.trans ending) h
      · exact exists_of_methodName? ending h
    · exact exists_of_methodName? ending h

theorem readsNames_method? : ReadsNames method? := by
  intro previous t behind named h
  obtain ⟨-, -, h⟩ := Option.bind_eq_some_iff.1 h
  obtain ⟨named', read, h⟩ := Option.bind_eq_some_iff.1 h
  cases h
  exact ⟨rfl, exists_of_methodFrom? (List.dropWhile_suffix _) read⟩

/-! ### Arrow functions -/

theorem exists_of_arrowParameter? {parameter : Text}
    (h : arrowParameter? t = some (parameter, behind)) :
    IsName isNameStart isNamePart parameter ∧
      ∃ gap, Blank gap ∧ t = parameter ++ (gap ++ ("=>" ++ behind)) := by
  obtain ⟨⟨name, rest⟩, read, h⟩ := Option.bind_eq_some_iff.1 h
  obtain ⟨behind', arrow, h⟩ := Option.bind_eq_some_iff.1 h
  cases h
  refine ⟨isName_of_name? read, rest.takeWhile isBlank, Text.blank_takeWhile rest, ?_⟩
  rw [← Text.afterPrefix?_eq_some_iff.1 arrow, Text.takeWhile_append_trimStart]
  exact eq_append_of_name? read

/-- A name is bound, and behind it a parameter stands in front of the arrow. -/
theorem exists_of_singleArrow? {named : Named} {parameter : Text}
    (h : singleArrow? previous t = some ((named, parameter), behind)) :
    named.behind = behind ∧ (∃ rest, t = named.lead ++ (named.name ++ rest)) ∧
      IsName isNameStart isNamePart parameter ∧
        ∃ front gap, Blank gap ∧ t = front ++ parameter ++ gap ++ "=>" ++ behind := by
  obtain ⟨⟨atName, name, rest⟩, bound, h⟩ := Option.bind_eq_some_iff.1 h
  obtain ⟨value, equals, h⟩ := Option.bind_eq_some_iff.1 h
  obtain ⟨⟨parameter', behind'⟩, arrow, h⟩ := Option.bind_eq_some_iff.1 h
  cases h
  obtain ⟨ending, rest', read, further⟩ := exists_of_boundName? bound
  have value_suffix : value.trimStart <:+ t := by
    have spelled : rest' <:+ atName := ⟨name, (eq_append_of_name? read).symm⟩
    exact (trimmed_after_suffix equals).trans (further.trans (spelled.trans ending))
  have fromHead {u : Text} (inside : u <:+ value.trimStart)
      (arrow : arrowParameter? u = some (parameter, behind)) :
      IsName isNameStart isNamePart parameter ∧
        ∃ front gap, Blank gap ∧ t = front ++ parameter ++ gap ++ "=>" ++ behind := by
    obtain ⟨isName, gap, blank, rfl⟩ := exists_of_arrowParameter? arrow
    obtain ⟨front, whole⟩ := inside.trans value_suffix
    refine ⟨isName, front, gap, blank, ?_⟩
    rw [← whole]
    simp only [List.append_assoc]
  refine ⟨rfl, ⟨rest', ?_⟩, ?_⟩
  · rw [← eq_append_of_name? read]
    exact (leadOf_append ending).symm
  · rcases (Option.orElse_eq_some _ _ _).1 arrow with marked | ⟨-, bare⟩
    · obtain ⟨spaced, blanks, arrow⟩ := Option.bind_eq_some_iff.1 marked
      obtain ⟨keyword, word, blanks⟩ := Option.bind_eq_some_iff.1 blanks
      obtain ⟨gap, -, -, rfl⟩ := exists_of_blanks? blanks
      exact fromHead ((List.suffix_append _ _).trans (suffix_of_afterPrefix? word)) arrow
    · exact fromHead (List.suffix_refl _) bare

theorem takes_singleArrow? : Scanner.Takes singleArrow? := by
  intro previous t behind found h
  obtain ⟨-, -, -, front, gap, -, rfl⟩ := exists_of_singleArrow? h
  exact List.suffix_append _ _

theorem isBlank_of_isNamePart {c : Char} (part : isNamePart c = true) : isBlank c = false := by
  refine Bool.eq_false_iff.2 fun blank => ?_
  rw [isNamePart, Text.isWordChar_of_isBlank blank, Bool.false_or, beq_iff_eq] at part
  rw [part] at blank
  exact absurd blank (by decide)

/-- A name holds no blank. -/
theorem isBlank_of_isName {name : Text} (named : IsName isNameStart isNamePart name) :
    ∀ c ∈ name, isBlank c = false := by
  obtain ⟨d, more, rfl, starts, others⟩ := named
  have first : isNamePart d = true := by
    rw [isNameStart, Bool.or_eq_true] at starts
    rw [isNamePart, Bool.or_eq_true]
    exact starts.imp_left Text.isWordChar_of_isNameStart
  exact List.forall_mem_cons.2
    ⟨isBlank_of_isNamePart first, fun c mem => isBlank_of_isNamePart (others c mem)⟩

/-- The parameter of a hit lies where its span says. -/
theorem parameterSpan_of_mem {hit : Hit (Named × Text)} (h : hit ∈ occurrences singleArrow? t) :
    ∃ before rest, t = before ++ hit.found.2 ++ rest ∧
      parameterSpan t hit = .behind before hit.found.2 := by
  obtain ⟨rest, behind, whole, read⟩ := exists_of_mem_occurrences takes_singleArrow? h
  obtain ⟨same, -, isName, front, gap, blank, place⟩ := exists_of_singleArrow? read
  refine ⟨hit.before ++ front, gap ++ ("=>" ++ behind), ?_, ?_⟩
  · rw [whole, place]
    simp only [List.append_assoc]
  · have lead : leadOf t hit.found.1.behind =
        hit.before ++ front ++ hit.found.2 ++ gap ++ "=>" := by
      have whole : t = (hit.before ++ front ++ hit.found.2 ++ gap ++ "=>") ++ behind := by
        rw [whole, place]
        simp only [List.append_assoc]
      rw [leadOf, same, whole, List.length_append, Nat.add_sub_cancel,
        List.take_left]
    have arrow : Text.beforeSuffix? "=>" (hit.before ++ front ++ hit.found.2 ++ gap ++ "=>") =
        some (hit.before ++ front ++ hit.found.2 ++ gap) :=
      Text.beforeSuffix?_eq_some_iff.2 rfl
    have trimmed : Text.trimEnd (hit.before ++ front ++ hit.found.2 ++ gap) =
        hit.before ++ front ++ hit.found.2 := by
      refine Text.dropEndWhile_append blank fun c mem => ?_
      obtain ⟨d, more, spelled, -⟩ := id isName
      rw [List.getLast?_append_of_ne_nil _ (by rw [spelled]; exact List.cons_ne_nil d more)] at mem
      exact isBlank_of_isName isName c (List.mem_of_getLast? mem)
    rw [parameterSpan, lead, arrow, Option.getD_some, trimmed, Span.behind,
      Text.octets_append _ hit.found.2, Nat.add_sub_cancel]

end Scanners

end TypescriptSource

/-! ## Reports of the scanners -/

/-- What the scanners find in a text, by offsets. -/
def Reports.ofScanners (t : Text) : Reports where
  functions := (occurrences TypescriptSource.function? t).map (TypescriptSource.Named.capture t)
  bindings := (occurrences TypescriptSource.binding? t).map (TypescriptSource.Named.capture t)
  arrows := (occurrences TypescriptSource.singleArrow? t).map fun hit =>
    (.behind (hit.before ++ hit.found.1.lead) hit.found.1.name,
      TypescriptSource.parameterSpan t hit)
  methods := (occurrences TypescriptSource.method? t).map (TypescriptSource.Named.capture t)
  definitions := (occurrences PythonSource.definition? t).map (TypescriptSource.Named.capture t)
  callables := (occurrences TypedSource.callable? t).map fun hit =>
    .of t hit.before hit.found.1 hit.found.2

/-- A hit with a name in front of a parenthesis ends behind the parenthesis. -/
theorem Capture.of_eq {t before name gap behind : Text}
    (whole : t = before ++ name ++ (gap ++ '(' :: behind)) :
    (∃ front, t = front ++ '(' :: behind ∧
      Capture.of t before name behind = ⟨.behind before name, front.octets + 1⟩) := by
  have opened : t = before ++ name ++ gap ++ ['('] ++ behind := by
    rw [whole]
    simp only [List.append_assoc, List.cons_append, List.nil_append]
  refine ⟨before ++ name ++ gap, ?_, ?_⟩
  · rw [whole, List.append_assoc _ gap]
  · rw [Capture.of, opened, Text.octets_append_sub, Text.octets_concat (by decide)]

theorem Capture.within_of {t before name gap behind : Text}
    (whole : t = before ++ name ++ (gap ++ '(' :: behind)) :
    (Capture.of t before name behind).Within t := by
  obtain ⟨front, -, place⟩ := of_eq whole
  rw [place]
  exact ⟨⟨before, name, _, whole, rfl⟩, Nat.succ_pos _⟩

namespace TypedSource

/-- A hit is a name in the text, and a parenthesis behind it. -/
theorem exists_of_mem_callables {t : Text} {hit : Hit (Text × Text)}
    (h : hit ∈ occurrences callable? t) : ∃ gap,
      t = hit.before ++ hit.found.1 ++ (gap ++ '(' :: hit.found.2) := by
  obtain ⟨rest, behind, whole, read⟩ := exists_of_mem_occurrences readsTo_callable?.takes h
  obtain ⟨same, ⟨gap, -, place⟩, -⟩ := exists_of_callable? read
  refine ⟨gap, ?_⟩
  rw [whole, place, same, List.append_assoc]

end TypedSource

/-- The hits of the scanners lie in the text that they search. -/
theorem Reports.within_ofScanners (t : Text) : (Reports.ofScanners t).Within t := by
  have named {scan : Scanner TypescriptSource.Named} (reads : TypescriptSource.ReadsNames scan) :
      ∀ m ∈ (occurrences scan t).map (TypescriptSource.Named.capture t), m.Within t := by
    rw [List.forall_mem_map]
    intro hit mem
    obtain ⟨gap, whole⟩ := reads.exists_of_mem mem
    exact Capture.within_of whole
  refine ⟨named TypescriptSource.readsNames_function?, named TypescriptSource.readsNames_binding?,
    ?_, named TypescriptSource.readsNames_method?, named TypescriptSource.readsNames_definition?,
    ?_⟩
  · refine List.forall_mem_map.2 fun hit mem => ⟨?_, ?_⟩
    · obtain ⟨rest, behind, whole, read⟩ :=
        exists_of_mem_occurrences TypescriptSource.takes_singleArrow? mem
      obtain ⟨-, ⟨rest', place⟩, -⟩ := TypescriptSource.exists_of_singleArrow? read
      refine ⟨hit.before ++ hit.found.1.lead, hit.found.1.name, rest', ?_, rfl⟩
      rw [whole, place]
      simp only [List.append_assoc]
    · obtain ⟨before, rest, whole, place⟩ := TypescriptSource.parameterSpan_of_mem mem
      exact ⟨before, hit.found.2, rest, whole, place⟩
  · refine List.forall_mem_map.2 fun hit mem => ?_
    obtain ⟨gap, whole⟩ := TypedSource.exists_of_mem_callables mem
    exact Capture.within_of whole

/-! ## Candidates at the hits of the scanners -/

namespace TypescriptSource

variable {t : Text}

theorem declaredAt_capture {scan : Scanner Named} (reads : ReadsNames scan)
    (returnType? : Text → Option (Option Text)) {hit : Hit Named} (h : hit ∈ occurrences scan t) :
    declaredAt t (Named.capture t hit) returnType? = .ok (declared? hit returnType?) := by
  obtain ⟨gap, whole⟩ := reads.exists_of_mem h
  obtain ⟨front, opened, place⟩ := Capture.of_eq whole
  rw [Named.capture, place, declaredAt_behind whole opened, declared?, declared?, List.append_nil]

theorem collect_declaredAt {scan : Scanner Named} (reads : ReadsNames scan)
    (returnType? : Text → Option (Option Text)) :
    Checked.collect (fun m => declaredAt t m returnType?)
        ((occurrences scan t).map (Named.capture t)) =
      .ok ((occurrences scan t).filterMap fun hit => declared? hit returnType?) := by
  rw [Checked.collect_map]
  exact Checked.collect_eq fun _ mem => declaredAt_capture reads returnType? mem

theorem methodAt_capture {hit : Hit Named} (h : hit ∈ occurrences method? t) :
    methodAt t (Named.capture t hit) = .ok (if Candidate.isExcluded hit.found.name then none
      else declared? hit methodTail?) := by
  obtain ⟨gap, whole⟩ := readsNames_method?.exists_of_mem h
  obtain ⟨front, opened, place⟩ := Capture.of_eq whole
  rw [Named.capture, place, methodAt_behind whole opened, declared?, declared?, List.append_nil]

theorem arrowAt_capture {hit : Hit (Named × Text)} (h : hit ∈ occurrences singleArrow? t) :
    arrowAt t (.behind (hit.before ++ hit.found.1.lead) hit.found.1.name, parameterSpan t hit) =
      .ok (some (Candidate.of (hit.before ++ hit.found.1.lead) hit.found.1.name hit.found.2 none
        (braceDepth (hit.before ++ hit.found.1.lead)))) := by
  obtain ⟨rest, behind, whole, read⟩ := exists_of_mem_occurrences takes_singleArrow? h
  obtain ⟨-, ⟨rest', place⟩, -⟩ := exists_of_singleArrow? read
  obtain ⟨before, rest'', inside, span⟩ := parameterSpan_of_mem h
  have named : t = hit.before ++ hit.found.1.lead ++ hit.found.1.name ++ rest' := by
    rw [whole, place]
    simp only [List.append_assoc]
  rw [span]
  exact arrowAt_behind named (text_behind inside)

/-- A method that is looked at by its name first is not missed, for its candidate would be left out
as well. -/
theorem filter_methods (hits : List (Hit Named)) :
    (hits.filterMap fun hit => if Candidate.isExcluded hit.found.name then none
        else declared? hit methodTail?).filter (fun c => !Candidate.isExcluded c.name) =
      (hits.filterMap fun hit => declared? hit methodTail?).filter
        fun c => !Candidate.isExcluded c.name := by
  rw [List.filter_filterMap, List.filter_filterMap]
  congr 1
  funext hit
  cases excluded : Candidate.isExcluded hit.found.name with
  | false => rfl
  | true =>
    cases found : declared? hit methodTail? with
    | none => rfl
    | some c =>
      rw [if_pos rfl, Option.filter_some, name_of_declared? found, excluded]
      rfl

theorem candidatesAt_ofScanners (t : Text) :
    candidatesAt t (.ofScanners t) = .ok (candidates t) := by
  have arrows : Checked.collect (arrowAt t) (Reports.ofScanners t).arrows =
      .ok (singleArrows t) := by
    rw [Reports.ofScanners, Checked.collect_map, Checked.collect_eq fun _ => arrowAt_capture]
    exact congrArg Except.ok (congrFun List.filterMap_eq_map' _)
  have methods : Checked.collect (methodAt t) (Reports.ofScanners t).methods =
      .ok ((occurrences method? t).filterMap fun hit =>
        if Candidate.isExcluded hit.found.name then none else declared? hit methodTail?) := by
    rw [Reports.ofScanners, Checked.collect_map, Checked.collect_eq fun _ => methodAt_capture]
  simp only [candidatesAt, arrows, methods, bind, Except.bind]
  rw [Reports.ofScanners, collect_declaredAt readsNames_function?,
    collect_declaredAt readsNames_binding?]
  simp only [pure, Except.pure, List.filter_append, filter_methods]
  rw [candidates, List.filter_append, List.filter_append, List.filter_append]
  rfl

end TypescriptSource

namespace PythonSource

/-- The candidate at a hit. -/
def declared? (hit : Hit TypescriptSource.Named) : Option Candidate :=
  if isSpecial hit.found.name then none
  else (closeBracket? '(' ')' 0 hit.found.behind).map fun p =>
    Candidate.of (hit.before ++ hit.found.lead) hit.found.name
      (Text.join ", " (withoutReceiver (splitParameters p.1))) (returnType? p.2) 0

theorem candidates_eq (t : Text) :
    candidates t = (occurrences definition? t).filterMap declared? := by
  rw [candidates]
  congr 1
  funext hit
  rw [declared?]
  cases isSpecial hit.found.name with
  | true => rfl
  | false => cases closeBracket? '(' ')' 0 hit.found.behind <;> rfl

theorem definitionAt_capture {t : Text} {hit : Hit TypescriptSource.Named}
    (h : hit ∈ occurrences definition? t) :
    definitionAt t (TypescriptSource.Named.capture t hit) = .ok (declared? hit) := by
  obtain ⟨gap, whole⟩ := TypescriptSource.readsNames_definition?.exists_of_mem h
  obtain ⟨front, opened, place⟩ := Capture.of_eq whole
  rw [TypescriptSource.Named.capture, place, definitionAt_behind whole opened, declared?]

theorem collect_definitionAt (t : Text) :
    Checked.collect (definitionAt t) (Reports.ofScanners t).definitions = .ok (candidates t) := by
  rw [Reports.ofScanners, Checked.collect_map, Checked.collect_eq fun _ => definitionAt_capture,
    candidates_eq]

end PythonSource

namespace TypedSource

theorem callableAt_capture (l : Language) {t : Text} {hit : Hit (Text × Text)}
    (h : hit ∈ occurrences callable? t) :
    callableAt l t (.of t hit.before hit.found.1 hit.found.2) = .ok (declared? l hit) := by
  obtain ⟨gap, whole⟩ := exists_of_mem_callables h
  obtain ⟨front, opened, place⟩ := Capture.of_eq whole
  rw [place]
  exact callableAt_behind whole opened l

theorem collect_callableAt (l : Language) (t : Text) :
    Checked.collect (callableAt l t) (Reports.ofScanners t).callables = .ok (candidates l t) := by
  rw [Reports.ofScanners, Checked.collect_map, Checked.collect_eq fun _ => callableAt_capture l]
  rfl

end TypedSource

/-! ## Resolution -/

/-- Whatever searches texts, as long as it reports hits within them. -/
structure Reporter where
  report : Text → Reports
  within : ∀ t, (report t).Within t

/-- The scanners as what searches. -/
def Reporter.scanners : Reporter :=
  ⟨Reports.ofScanners, Reports.within_ofScanners⟩

/-- Every candidate of a source, by offsets. Blanking out comments takes no slice. -/
def findCandidatesAt (r : Reporter) (l : Language) (source : Text) : Checked (List Candidate) := do
  let stripped := stripComments l source
  let found ← candidatesAt l stripped (r.report stripped)
  return Candidate.arrange found

/-- The function that a harness calls in a source, by offsets. -/
def resolveAt (r : Reporter) (l : Language) (source : Text) (schema : List SchemaEntry)
    (hint : Option Text) : Checked EntryPoint := do
  let wrapped := hasContainer l source
  let candidates ← findCandidatesAt r l source
  let hint := hintOf hint
  match choose l schema.length hint candidates with
  | some c => return EntryPoint.ofCandidate wrapped c
  | none => return ⟨hint.getD EntryPoint.defaultName, [], wrapped, none⟩

theorem findCandidatesAt_scanners (l : Language) (source : Text) :
    findCandidatesAt .scanners l source = .ok (findCandidates l source) := by
  have searched (t : Text) : Reporter.scanners.report t = .ofScanners t := rfl
  cases l with
  | typescript =>
    simp only [findCandidatesAt, searched, candidatesAt, TypescriptSource.candidatesAt_ofScanners,
      bind, Except.bind]
    rfl
  | python =>
    simp only [findCandidatesAt, searched, candidatesAt, PythonSource.collect_definitionAt, bind,
      Except.bind]
    rfl
  | java =>
    simp only [findCandidatesAt, searched, candidatesAt, TypedSource.collect_callableAt, bind,
      Except.bind]
    rfl
  | cpp =>
    simp only [findCandidatesAt, searched, candidatesAt, TypedSource.collect_callableAt, bind,
      Except.bind]
    rfl

theorem exists_findCandidatesAt (r : Reporter) (l : Language) (source : Text) :
    ∃ found, findCandidatesAt r l source = .ok found := by
  obtain ⟨found, checked⟩ := exists_candidatesAt l (r.within (stripComments l source))
  exact ⟨Candidate.arrange found, by simp only [findCandidatesAt, checked, bind, Except.bind]; rfl⟩

/-- What is resolved depends on the candidates that are found and on nothing else that could be
stopped. -/
theorem exists_resolveAt (r : Reporter) (l : Language) (source : Text) (schema : List SchemaEntry)
    (hint : Option Text) : ∃ entry, resolveAt r l source schema hint = .ok entry := by
  obtain ⟨found, checked⟩ := exists_findCandidatesAt r l source
  simp only [resolveAt, checked, bind, Except.bind]
  cases choose l schema.length (hintOf hint) found <;> exact ⟨_, rfl⟩

theorem resolveAt_scanners (l : Language) (source : Text) (schema : List SchemaEntry)
    (hint : Option Text) :
    resolveAt .scanners l source schema hint = .ok (resolve l source schema hint) := by
  simp only [resolveAt, resolve, findCandidatesAt_scanners, bind, Except.bind]
  cases choose l schema.length (hintOf hint) (findCandidates l source) <;> rfl

/-- Resolution is stopped by no source, whatever reports hits within texts. With the hits of the
scanners it gives the candidates of the source and the function to call. Parentheses and angle
brackets are counted without falling below zero, a header is read in front of any place between two
characters, and both loops on the way get on in every round: the cursor moves forward, between
characters, and the type loses a qualifier. -/
theorem resolution_not_stopped (l : Language) (source : Text) (schema : List SchemaEntry)
    (hint : Option Text) :
    (∀ r : Reporter, (∃ found, findCandidatesAt r l source = .ok found) ∧
      ∃ entry, resolveAt r l source schema hint = .ok entry) ∧
    findCandidatesAt .scanners l source = .ok (findCandidates l source) ∧
    resolveAt .scanners l source schema hint = .ok (resolve l source schema hint) ∧
    (∀ (t : Text) (offset : Nat), ∃ close, matchingParenAt t offset = .ok close) ∧
    (∀ front rest : Text, ∃ behind,
      skipAngleAt (front ++ '<' :: rest) front.octets = .ok behind) ∧
    (∀ before rest : Text, ∃ header, TypedSource.headerAt (before ++ rest) before.octets =
      .ok header) ∧
    (∀ segment : Text, ∃ states result,
      (TypedSource.itemsLoop segment).run ⟨0, []⟩ = .ok (states, result) ∧
        (∀ s ∈ states, segment.IsBoundary s.place) ∧
          states.Pairwise fun a b => a.place < b.place) ∧
    ∀ type : Text, ∃ states left, TypedSource.qualifierLoop.run type = .ok (states, left) ∧
      states.Pairwise fun a b => b.octets < a.octets := by
  refine ⟨fun r => ⟨exists_findCandidatesAt r l source, exists_resolveAt r l source schema hint⟩,
    findCandidatesAt_scanners l source, resolveAt_scanners l source schema hint, ?_, ?_, ?_,
    TypedSource.exists_run_itemsLoop, TypedSource.exists_run_qualifierLoop⟩
  · intro t offset
    exact ⟨_, matchingParenAt_eq t offset⟩
  · intro front rest
    exact ⟨_, skipAngleAt_append front rest⟩
  · intro before rest
    exact ⟨_, TypedSource.headerAt_append before rest⟩

end HarnessSynthesis
