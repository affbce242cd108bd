/-
# Resolution

Which declaration a harness calls. Of the candidates whose number of arguments is that of the
schema the best is chosen: the hinted name first, then a name that suggests a solution, then what is
public where that counts, then what stands earlier. Without such a candidate the hint decides alone,
and after it the first candidate. There is always a name to call.
-/

import HarnessSynthesis.Entry.ScriptCandidates
import HarnessSynthesis.Entry.TypedCandidates
import HarnessSynthesis.Problem

namespace HarnessSynthesis

open Source Json

/-- Every candidate of a source, in the order of the source. -/
def findCandidates (l : Language) (source : Text) : List Candidate :=
  let stripped := stripComments l source
  Candidate.arrange <| match l with
    | .typescript => TypescriptSource.candidates stripped
    | .python => PythonSource.candidates stripped
    | .java => TypedSource.candidates .java stripped
    | .cpp => TypedSource.candidates .cpp stripped

/-- A class, or in C++ also a struct, of the name that marks the user's solution. -/
def container? (l : Language) : Scanner Unit := fun previous t => do
  guard (wordMayBegin previous)
  let words : List Text := if l = .cpp then ["class", "struct"] else ["class"]
  let (_, rest) ← anyOf? words t
  let behind ← Text.afterPrefix? "Solution" (← blanks? rest)
  guard (wordMayEnd behind)
  return ((), behind)

/-- Whether a source wraps its functions in a solution class. -/
def hasContainer (l : Language) (source : Text) : Bool :=
  occurs (container? l) (stripComments l source)

/-- The function that a harness calls. -/
structure EntryPoint where
  name : Text
  arguments : Text
  wrapped : Bool
  returnType : Option Text
  deriving DecidableEq, Repr

namespace EntryPoint

/-- The name that is called when a source offers none. -/
def defaultName : Text := "solution"

/-- The parameters of the function. -/
def parameters (l : Language) (e : EntryPoint) : List Parameter :=
  (splitParameters e.arguments).map (Parameter.parse l)

def encode (e : EntryPoint) : Node :=
  .record [("name", .text e.name), ("argsStr", .text e.arguments),
    ("wrappedInContainer", .bool e.wrapped), ("returnType", Node.ofOption .text e.returnType)]

def decoder : Decoder EntryPoint :=
  (Shape.field "name" Decoder.text .required <|
    .field "argsStr" Decoder.text .required <|
    .field "wrappedInContainer" Decoder.bool .required <|
    .field "returnType" (Decoder.nullable Decoder.text) (.defaultInObject none) .done).decoder.map
  fun (name, arguments, wrapped, returnType, ()) => ⟨name, arguments, wrapped, returnType⟩

/-- A candidate as the function to call. -/
def ofCandidate (wrapped : Bool) (c : Candidate) : EntryPoint :=
  ⟨c.name, c.arguments, wrapped, c.returnType⟩

end EntryPoint

/-! ## The choice -/

/-- A hint that says something. -/
def hintOf (hint : Option Text) : Option Text :=
  (hint.map Text.trim).filter (· ≠ [])

/-- How a candidate ranks; `false` ranks before `true`. -/
structure Rank where
  missesHint : Bool
  noSolution : Bool
  hidden : Bool
  order : Nat
  deriving DecidableEq, Repr

namespace Rank

/-- The rank of a candidate under a hint. -/
def of (l : Language) (hint : Option Text) (c : Candidate) : Rank where
  missesHint := hint ≠ some c.name
  noSolution := !c.looksLikeSolution
  hidden := l.isCFamily && !c.isPublic
  order := c.order

/-- One rank before another: the first difference decides. -/
def before (a b : Rank) : Bool :=
  if a.missesHint ≠ b.missesHint then b.missesHint
  else if a.noSolution ≠ b.noSolution then b.noSolution
  else if a.hidden ≠ b.hidden then b.hidden
  else a.order < b.order

end Rank

/-- The first of the elements that none ranks before. -/
def bestBy {α : Type} (before : α → α → Bool) : List α → Option α
  | [] => none
  | a :: rest =>
    match bestBy before rest with
    | none => some a
    | some b => if before b a then some b else some a

/-- The candidate that is called, when there is any. -/
def choose (l : Language) (arity : Nat) (hint : Option Text) (candidates : List Candidate) :
    Option Candidate :=
  match candidates.filter fun c => c.argumentCount == arity with
  | [] => (hint.bind fun h => candidates.find? fun c => c.name == h) <|> candidates.head?
  | matching => bestBy (fun a b => (Rank.of l hint a).before (Rank.of l hint b)) matching

/-- The function that a harness calls in a source, for a schema and a name that may be hinted. -/
def resolve (l : Language) (source : Text) (schema : List SchemaEntry) (hint : Option Text) :
    EntryPoint :=
  let wrapped := hasContainer l source
  let hint := hintOf hint
  match choose l schema.length hint (findCandidates l source) with
  | some c => EntryPoint.ofCandidate wrapped c
  | none => ⟨hint.getD EntryPoint.defaultName, [], wrapped, none⟩

end HarnessSynthesis
