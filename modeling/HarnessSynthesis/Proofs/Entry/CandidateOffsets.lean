/-
# Candidates by offsets

A search reports its hits by offsets, and a candidate is made of slices at these offsets and at what
is reached from them: the parenthesis in front of the end of a hit, the one that closes it, and the
header in front of the name. Here the candidates of all four languages are found in that way.
Nothing more has to be known of a report than that its groups are parts of the text and that no hit
is empty. If a hit does not end with a parenthesis, no parenthesis is matched there, and no slice is
taken.
-/

import HarnessSynthesis.Entry.Resolution
import HarnessSynthesis.Proofs.Entry.HeaderOffsets
import HarnessSynthesis.Proofs.Source.ParameterOffsets

namespace HarnessSynthesis

open Source
open Text (IsAscii)

/-! ## Reports -/

/-- A part of a text by its two ends. -/
structure Span where
  start : Nat
  stop : Nat
  deriving DecidableEq, Repr

/-- Where a part of a text lies. -/
def Span.behind (before part : Text) : Span :=
  ⟨before.octets, (before ++ part).octets⟩

/-- Whether a span is a part of a text. -/
def Span.Within (s : Span) (t : Text) : Prop :=
  ∃ before part rest, t = before ++ part ++ rest ∧ s = .behind before part

/-- A hit by offsets: the group that is the name, and the end of all of it. -/
structure Capture where
  name : Span
  stop : Nat
  deriving DecidableEq, Repr

/-- Whether a hit is one of a text. -/
structure Capture.Within (m : Capture) (t : Text) : Prop where
  name : m.name.Within t
  nonempty : 0 < m.stop

/-- What searches report of a text: the hits of each pattern, and for arrow functions of a bare
parameter their two groups. -/
structure Reports where
  functions : List Capture
  bindings : List Capture
  arrows : List (Span × Span)
  methods : List Capture
  definitions : List Capture
  callables : List Capture

/-- Whether all that is reported lies in a text. -/
structure Reports.Within (r : Reports) (t : Text) : Prop where
  functions : ∀ m ∈ r.functions, m.Within t
  bindings : ∀ m ∈ r.bindings, m.Within t
  arrows : ∀ m ∈ r.arrows, m.1.Within t ∧ m.2.Within t
  methods : ∀ m ∈ r.methods, m.Within t
  definitions : ∀ m ∈ r.definitions, m.Within t
  callables : ∀ m ∈ r.callables, m.Within t

/-! ## What is found at every hit -/

/-- What is found at each of several places, in their order. -/
def Checked.collect {α β : Type} (find : α → Checked (Option β)) : List α → Checked (List β)
  | [] => .ok []
  | a :: rest => do
    let found ← find a
    let more ← collect find rest
    return found.toList ++ more

namespace Checked

variable {α β : Type} {find : α → Checked (Option β)}

theorem collect_eq {found : α → Option β} {places : List α}
    (agree : ∀ a ∈ places, find a = .ok (found a)) :
    collect find places = .ok (places.filterMap found) := by
  induction places with
  | nil => rfl
  | cons a rest ih =>
    obtain ⟨first, others⟩ := List.forall_mem_cons.1 agree
    rw [collect, first, ih others, List.filterMap_cons]
    cases found a <;> rfl

theorem exists_collect {places : List α} (each : ∀ a ∈ places, ∃ found, find a = .ok found) :
    ∃ found, collect find places = .ok found := by
  induction places with
  | nil => exact ⟨[], rfl⟩
  | cons a rest ih =>
    obtain ⟨first, others⟩ := List.forall_mem_cons.1 each
    obtain ⟨found, here⟩ := first
    obtain ⟨more, later⟩ := ih others
    rw [collect, here, later]
    exact ⟨_, rfl⟩

theorem collect_map {γ : Type} (place : γ → α) (hits : List γ) :
    collect find (hits.map place) = collect (fun hit => find (place hit)) hits := by
  induction hits with
  | nil => rfl
  | cons a rest ih => rw [List.map_cons, collect, ih, collect]

end Checked

/-! ## Parts of a candidate -/

/-- A part of a text by its span. -/
def Span.text (s : Span) (t : Text) : Checked Text :=
  t.slice s.start s.stop

theorem Span.text_append (before part rest : Text) :
    (Span.behind before part).text (before ++ part ++ rest) = .ok part :=
  Text.slice_append before part rest

/-- The parameter list of a hit that ends with its opening parenthesis, and the text behind it. -/
def parametersAt (t : Text) (stop : Nat) : Checked (Option (Text × Text)) := do
  let opening ← Checked.minus stop 1
  match ← matchingParenAt t opening with
  | none => return none
  | some close => return some (← t.slice (opening + 1) close, ← t.sliceFrom (close + 1))

/-- A declaration by the offset of its name. Its parameters are counted by splitting the list. -/
def Candidate.at (start : Nat) (name arguments : Text) (returnType : Option Text) (depth : Nat) :
    Checked Candidate := do
  let pieces ← splitParametersAt arguments
  return {
    name := name
    argumentCount := pieces.length
    arguments := arguments.trim
    returnType := returnType
    isPublic := false
    looksLikeSolution := Candidate.suggestsSolution name
    order := 0
    offset := start
    typeOffset := start
    modifiers := []
    depth := depth }

theorem parametersAt_append (front behind : Text) :
    parametersAt (front ++ '(' :: behind) (front.octets + 1) =
      .ok (closeBracket? '(' ')' 0 behind) := by
  rw [parametersAt, Checked.minus_of_le (Nat.le_add_left _ _), Nat.add_sub_cancel]
  simp only [bind, Except.bind, pure, Except.pure, matchingParenAt_append]
  cases closed : closeBracket? '(' ')' 0 behind with
  | none => rfl
  | some p =>
    obtain ⟨inside, after⟩ := p
    have list := Text.slice_append (front ++ ['(']) inside (')' :: after)
    have rest := Text.sliceFrom_append (front ++ ['('] ++ inside ++ [')']) after
    rw [Text.octets_append (front ++ ['(']), Text.octets_concat (by decide)] at list
    rw [Text.octets_concat (by decide), Text.octets_append, Text.octets_concat (by decide)] at rest
    simp only [List.append_assoc, List.cons_append, List.nil_append] at list rest
    simp only [eq_append_of_closeBracket? closed, Option.map_some, list, rest]

/-- In front of any offset but the first one a parenthesis opens or nothing is matched. -/
theorem parametersAt_cases (t : Text) {stop : Nat} (nonempty : 0 < stop) :
    (∃ front behind, t = front ++ '(' :: behind ∧ stop = front.octets + 1) ∨
      parametersAt t stop = .ok none := by
  by_cases here : (Text.utf8 t)[stop - 1]? = some '('.toUInt8
  · obtain ⟨front, behind, whole, place⟩ := Text.exists_of_getElem?_utf8 (by decide) here
    exact Or.inl ⟨front, behind, whole, by omega⟩
  · refine Or.inr ?_
    rw [parametersAt, Checked.minus_of_le nonempty]
    simp only [bind, Except.bind, pure, Except.pure, matchingParenAt, if_neg here]

theorem Candidate.at_behind (before name part arguments : Text) (returnType : Option Text)
    (depth : Nat) : Candidate.at (Span.behind before part).start name arguments returnType depth =
      .ok (Candidate.of before name arguments returnType depth) := by
  rw [Candidate.at, splitParametersAt_eq]
  rfl

/-! ## Matchers -/

namespace TypescriptSource

/-- The candidate at a hit that ends with a parenthesis. -/
def declaredAt (t : Text) (m : Capture) (returnType? : Text → Option (Option Text)) :
    Checked (Option Candidate) := do
  match ← parametersAt t m.stop with
  | none => return none
  | some (arguments, behind) =>
    match returnType? behind with
    | none => return none
    | some returnType =>
      let name ← m.name.text t
      return some (← Candidate.at m.name.start name arguments returnType
        (braceDepthAt t m.name.start))

/-- The candidate at an arrow function of a bare parameter. -/
def arrowAt (t : Text) (m : Span × Span) : Checked (Option Candidate) := do
  let name ← m.1.text t
  let parameter ← m.2.text t
  return some (← Candidate.at m.1.start name parameter none (braceDepthAt t m.1.start))

/-- The candidate at a method, whose name is looked at first. -/
def methodAt (t : Text) (m : Capture) : Checked (Option Candidate) := do
  let name ← m.name.text t
  if Candidate.isExcluded name then
    return none
  else
    declaredAt t m methodTail?

/-- The candidates of a stripped source. -/
def candidatesAt (t : Text) (r : Reports) : Checked (List Candidate) := do
  let functions ← Checked.collect
    (fun m => declaredAt t m fun behind => some (returnType? behind)) r.functions
  let bindings ← Checked.collect
    (fun m => declaredAt t m fun behind =>
      if valueFollows behind then some (returnType? behind) else none) r.bindings
  let arrows ← Checked.collect (arrowAt t) r.arrows
  let methods ← Checked.collect (methodAt t) r.methods
  return (functions ++ bindings ++ arrows ++ methods).filter fun c => !Candidate.isExcluded c.name

end TypescriptSource

namespace PythonSource

/-- The parameters without the receiver of a bound method. -/
def withoutReceiverAt (pieces : List Text) : Checked (List Text) := do
  match pieces with
  | [] => return []
  | first :: rest =>
    let receiver ← Parameter.parseAt first
    if receiver.name = "self" ∨ receiver.name = "cls" then return rest else return pieces

/-- The candidate at a definition. -/
def definitionAt (t : Text) (m : Capture) : Checked (Option Candidate) := do
  let name ← m.name.text t
  if isSpecial name then
    return none
  else
    match ← parametersAt t m.stop with
    | none => return none
    | some (list, behind) =>
      let pieces ← withoutReceiverAt (← splitParametersAt list)
      return some (← Candidate.at m.name.start name (Text.join ", " pieces) (returnType? behind) 0)

end PythonSource

namespace TypedSource

/-- Whether a C++ declaration is public, by the offset of its name. -/
def isPublicAt (t : Text) (offset : Nat) : Checked Bool := do
  let before ← t.sliceTo offset
  match (occurrences accessLabel? before).getLast? with
  | some hit => return hit.found == ("public" : Text)
  | none =>
    if braceDepthAt t offset = 0 then return true
    else match (occurrences aggregate? before).getLast? with
      | some hit => return hit.found == ("struct" : Text)
      | none => return true

/-- The candidate at a name in front of a parenthesis. -/
def callableAt (l : Language) (t : Text) (m : Capture) : Checked (Option Candidate) := do
  let name ← m.name.text t
  if Candidate.isExcluded name then
    return none
  else
    match ← parametersAt t m.stop with
    | none => return none
    | some (arguments, behind) =>
      if bodyFollows (behind.length + 1) behind then
        match ← headerAt t m.name.start with
        | none => return none
        | some header =>
          let c ← Candidate.at m.name.start name arguments
            (some (cleanType l header.returnType)) (braceDepthAt t m.name.start)
          let isPublic ← if l = .java then pure (header.modifiers.contains "public")
            else isPublicAt t m.name.start
          return some { c with
            isPublic := isPublic
            typeOffset := header.typeOffset
            modifiers := header.modifiers }
      else
        return none

end TypedSource

/-- The candidates of a stripped source at what is reported of it. -/
def candidatesAt (l : Language) (t : Text) (r : Reports) : Checked (List Candidate) :=
  match l with
  | .typescript => TypescriptSource.candidatesAt t r
  | .python => Checked.collect (PythonSource.definitionAt t) r.definitions
  | .java => Checked.collect (TypedSource.callableAt .java t) r.callables
  | .cpp => Checked.collect (TypedSource.callableAt .cpp t) r.callables

/-! ## At a name and a parenthesis

The name lies where it is reported, and a parenthesis in front of the end of the hit. -/

section Matchers

variable {t before name rest front behind : Text} (named : t = before ++ name ++ rest)
  (opened : t = front ++ '(' :: behind)

include named

theorem text_behind : (Span.behind before name).text t = .ok name := by
  rw [named]
  exact Span.text_append before name rest

theorem braceDepthAt_behind :
    braceDepthAt t (Span.behind before name).start = braceDepth before := by
  rw [named, List.append_assoc]
  exact braceDepthAt_append before (name ++ rest)

theorem TypescriptSource.arrowAt_behind {place : Span} {parameter : Text}
    (inside : place.text t = .ok parameter) : arrowAt t (.behind before name, place) =
      .ok (some (Candidate.of before name parameter none (braceDepth before))) := by
  simp only [arrowAt, text_behind named, inside, braceDepthAt_behind named, Candidate.at_behind,
    bind, Except.bind]
  rfl

theorem TypedSource.isPublicAt_octets :
    isPublicAt t before.octets = .ok (cppIsPublic before) := by
  have front : t.sliceTo before.octets = .ok before := by
    rw [named, List.append_assoc]
    exact Text.sliceTo_append before (name ++ rest)
  have depth : braceDepthAt t before.octets = braceDepth before := braceDepthAt_behind named
  simp only [isPublicAt, cppIsPublic, front, depth, bind, Except.bind, pure, Except.pure]
  cases (occurrences accessLabel? before).getLast? with
  | some hit => rfl
  | none =>
    dsimp only
    split
    · rfl
    · cases (occurrences aggregate? before).getLast? <;> rfl

include opened

theorem TypescriptSource.declaredAt_behind (returnType? : Text → Option (Option Text)) :
    declaredAt t ⟨.behind before name, front.octets + 1⟩ returnType? =
      .ok (declared? ⟨before, ⟨[], name, behind⟩⟩ returnType?) := by
  have list : parametersAt t (front.octets + 1) = .ok (closeBracket? '(' ')' 0 behind) := by
    rw [opened]
    exact parametersAt_append front behind
  simp only [declaredAt, declared?, list, text_behind named, braceDepthAt_behind named,
    List.append_nil, bind, Except.bind, pure, Except.pure]
  cases closeBracket? '(' ')' 0 behind with
  | none => rfl
  | some p =>
    obtain ⟨arguments, after⟩ := p
    dsimp only [Option.bind_some]
    cases returnType? after with
    | none => rfl
    | some returnType =>
      simp only [Candidate.at_behind]
      rfl

theorem TypescriptSource.methodAt_behind :
    methodAt t ⟨.behind before name, front.octets + 1⟩ =
      .ok (if Candidate.isExcluded name then none
        else declared? ⟨before, ⟨[], name, behind⟩⟩ methodTail?) := by
  simp only [methodAt, text_behind named, declaredAt_behind named opened, bind, Except.bind, pure,
    Except.pure]
  split <;> rfl

omit named opened in
theorem PythonSource.withoutReceiverAt_eq (pieces : List Text) :
    withoutReceiverAt pieces = .ok (withoutReceiver pieces) := by
  cases pieces with
  | nil => rfl
  | cons first more =>
    simp only [withoutReceiverAt, withoutReceiver, Parameter.parseAt_eq, bind, Except.bind]
    split <;> rfl

theorem PythonSource.definitionAt_behind :
    definitionAt t ⟨.behind before name, front.octets + 1⟩ =
      .ok (if isSpecial name then none
        else (closeBracket? '(' ')' 0 behind).map fun p =>
          Candidate.of before name (Text.join ", " (withoutReceiver (splitParameters p.1)))
            (returnType? p.2) 0) := by
  have list : parametersAt t (front.octets + 1) = .ok (closeBracket? '(' ')' 0 behind) := by
    rw [opened]
    exact parametersAt_append front behind
  simp only [definitionAt, text_behind named, list, bind, Except.bind, pure, Except.pure]
  split
  · rfl
  · cases closeBracket? '(' ')' 0 behind with
    | none => rfl
    | some p =>
      simp only [splitParametersAt_eq, withoutReceiverAt_eq, Candidate.at_behind]
      rfl

theorem TypedSource.callableAt_behind (l : Language) :
    callableAt l t ⟨.behind before name, front.octets + 1⟩ =
      .ok (declared? l ⟨before, (name, behind)⟩) := by
  have list : parametersAt t (front.octets + 1) = .ok (closeBracket? '(' ')' 0 behind) := by
    rw [opened]
    exact parametersAt_append front behind
  have header : headerAt t (Span.behind before name).start =
      .ok ((header? before).map Header.place) := by
    rw [named, List.append_assoc]
    exact headerAt_append before (name ++ rest)
  have isPublic : isPublicAt t (Span.behind before name).start = .ok (cppIsPublic before) :=
    isPublicAt_octets named
  simp only [callableAt, declared?, list, text_behind named, braceDepthAt_behind named, bind,
    Except.bind, pure, Except.pure]
  cases Candidate.isExcluded name with
  | true => rfl
  | false =>
    cases closeBracket? '(' ')' 0 behind with
    | none => rfl
    | some p =>
      obtain ⟨arguments, after⟩ := p
      by_cases body : bodyFollows (after.length + 1) after = true
      · simp only [guard, body, header, Bool.not_false, Bool.false_eq_true, if_true, if_false,
          Option.pure_def, Option.bind_some]
        cases header? before with
        | none => rfl
        | some h =>
          simp only [Candidate.at_behind, isPublic, Option.map_some]
          by_cases java : l = .java
          · simp only [if_pos java]
            rfl
          · simp only [if_neg java]
            rfl
      · simp only [guard, body, Bool.not_false, Bool.false_eq_true, if_true, if_false,
          Option.pure_def, Option.bind_some, Option.failure_eq_none, Option.bind_none]

end Matchers

/-! ## At any hit -/

section Within

variable {t : Text} {m : Capture}

/-- The name of a hit is a part of the text, and in front of the end of the hit a parenthesis opens
or nothing is matched. -/
theorem Capture.Within.exists_name (within : m.Within t) :
    ∃ before name rest, t = before ++ name ++ rest ∧ m.name = .behind before name ∧
      ((∃ front behind, t = front ++ '(' :: behind ∧ m = ⟨.behind before name, front.octets + 1⟩) ∨
        parametersAt t m.stop = .ok none) := by
  obtain ⟨⟨before, name, rest, named, place⟩, nonempty⟩ := within
  refine ⟨before, name, rest, named, place, ?_⟩
  rcases parametersAt_cases t nonempty with ⟨front, behind, opened, stop⟩ | nothing
  · refine Or.inl ⟨front, behind, opened, ?_⟩
    rw [← place, ← stop]
  · exact Or.inr nothing

theorem TypescriptSource.exists_declaredAt (within : m.Within t)
    (returnType? : Text → Option (Option Text)) :
    ∃ found, declaredAt t m returnType? = .ok found := by
  obtain ⟨before, name, rest, named, -, ⟨front, behind, opened, rfl⟩ | nothing⟩ :=
    within.exists_name
  · exact ⟨_, declaredAt_behind named opened returnType?⟩
  · rw [declaredAt, nothing]
    exact ⟨none, rfl⟩

theorem TypescriptSource.exists_methodAt (within : m.Within t) :
    ∃ found, methodAt t m = .ok found := by
  obtain ⟨before, name, rest, named, place, -⟩ := within.exists_name
  simp only [methodAt, place, text_behind named, bind, Except.bind]
  split
  · exact ⟨none, rfl⟩
  · exact exists_declaredAt within methodTail?

theorem TypescriptSource.exists_arrowAt {m : Span × Span} (within : m.1.Within t ∧ m.2.Within t) :
    ∃ found, arrowAt t m = .ok found := by
  obtain ⟨place, place'⟩ := m
  obtain ⟨⟨before, name, rest, named, rfl⟩, before', parameter, rest', inside, rfl⟩ := within
  exact ⟨_, arrowAt_behind named (text_behind inside)⟩

theorem PythonSource.exists_definitionAt (within : m.Within t) :
    ∃ found, definitionAt t m = .ok found := by
  obtain ⟨before, name, rest, named, place, ⟨front, behind, opened, rfl⟩ | nothing⟩ :=
    within.exists_name
  · exact ⟨_, definitionAt_behind named opened⟩
  · simp only [definitionAt, place, text_behind named, nothing, bind, Except.bind]
    split <;> exact ⟨none, rfl⟩

theorem TypedSource.exists_callableAt (l : Language) (within : m.Within t) :
    ∃ found, callableAt l t m = .ok found := by
  obtain ⟨before, name, rest, named, place, ⟨front, behind, opened, rfl⟩ | nothing⟩ :=
    within.exists_name
  · exact ⟨_, callableAt_behind named opened l⟩
  · simp only [callableAt, place, text_behind named, nothing, bind, Except.bind]
    split <;> exact ⟨none, rfl⟩

/-- Whatever is reported within a text, its candidates are found without a stop. -/
theorem exists_candidatesAt (l : Language) {r : Reports} (within : r.Within t) :
    ∃ found, candidatesAt l t r = .ok found := by
  cases l with
  | typescript =>
    obtain ⟨functions, hfunctions⟩ := Checked.exists_collect fun m mem =>
      TypescriptSource.exists_declaredAt (within.functions m mem) fun behind =>
        some (TypescriptSource.returnType? behind)
    obtain ⟨bindings, hbindings⟩ := Checked.exists_collect fun m mem =>
      TypescriptSource.exists_declaredAt (within.bindings m mem) fun behind =>
        if TypescriptSource.valueFollows behind then some (TypescriptSource.returnType? behind)
        else none
    obtain ⟨arrows, harrows⟩ := Checked.exists_collect fun m mem =>
      TypescriptSource.exists_arrowAt (within.arrows m mem)
    obtain ⟨methods, hmethods⟩ := Checked.exists_collect fun m mem =>
      TypescriptSource.exists_methodAt (within.methods m mem)
    simp only [candidatesAt, TypescriptSource.candidatesAt, hfunctions, hbindings, harrows,
      hmethods, bind, Except.bind]
    exact ⟨_, rfl⟩
  | python =>
    exact Checked.exists_collect fun m mem =>
      PythonSource.exists_definitionAt (within.definitions m mem)
  | java =>
    exact Checked.exists_collect fun m mem =>
      TypedSource.exists_callableAt .java (within.callables m mem)
  | cpp =>
    exact Checked.exists_collect fun m mem =>
      TypedSource.exists_callableAt .cpp (within.callables m mem)

end Within

end HarnessSynthesis
