/-
# Parameters

The text between the parentheses of a declaration is split at its top-level commas, and each piece
is taken apart into a name and a declared type. Brackets of four kinds share one count of depth,
quoted text is opaque to the splitter, and the `>` of an arrow closes nothing.
-/

import HarnessSynthesis.Language
import HarnessSynthesis.Source.Brackets

namespace HarnessSynthesis.Source

/-! ## Splitting a parameter list -/

def opensBracket (c : Char) : Bool :=
  c == '<' || c == '(' || c == '[' || c == '{'

def closesBracket (c : Char) : Bool :=
  c == '>' || c == ')' || c == ']' || c == '}'

def opensQuote (c : Char) : Bool :=
  c == '"' || c == '\'' || c == '`'

/-- Where a splitter stands: how many brackets are open, the quote that is open, and the character
just passed. -/
structure SplitState where
  depth : Nat
  quoting : Quoting
  previous : Option Char
  deriving DecidableEq, Repr

namespace SplitState

/-- Where a splitter stands behind one more character. -/
def next (s : SplitState) (c : Char) : SplitState :=
  match s.quoting with
  | .escaped q => ⟨s.depth, .inside q, some c⟩
  | .inside q =>
    if c = '\\' then ⟨s.depth, .escaped q, some c⟩
    else if c = q then ⟨s.depth, .outside, some c⟩
    else ⟨s.depth, .inside q, some c⟩
  | .outside =>
    if opensQuote c then ⟨s.depth, .inside c, some c⟩
    else if opensBracket c then ⟨s.depth + 1, .outside, some c⟩
    else if c = '>' ∧ (s.previous = some '=' ∨ s.previous = some '-') then
      ⟨s.depth, .outside, some c⟩
    else if closesBracket c then ⟨s.depth - 1, .outside, some c⟩
    else ⟨s.depth, .outside, some c⟩

/-- Whether a character is a comma between two pieces. -/
def separates (s : SplitState) (c : Char) : Bool :=
  c == ',' && s.depth == 0 && s.quoting == .outside

end SplitState

/-- A character added to the first of several pieces. -/
def consPiece (c : Char) : List Text → List Text
  | [] => [[c]]
  | piece :: pieces => (c :: piece) :: pieces

/-- The pieces of a text between its top-level commas, untrimmed. There is always one. -/
def piecesFrom : SplitState → Text → List Text
  | _, [] => [[]]
  | s, c :: rest =>
    if s.separates c then [] :: piecesFrom (s.next c) rest
    else consPiece c (piecesFrom (s.next c) rest)

/-- The parameters of a parameter list: its pieces, trimmed, without the empty ones. -/
def splitParameters (list : Text) : List Text :=
  ((piecesFrom ⟨0, .outside, none⟩ list).map Text.trim).filter (· ≠ [])

/-! ## One parameter -/

/-- A parameter's name and its declared type, when it declares one. -/
structure Parameter where
  name : Text
  declaredType : Option Text
  deriving DecidableEq, Repr

/-- A parameter without its default value: the text in front of the first top-level `=` that is
neither doubled nor the start of an arrow. -/
def withoutDefault (depth : Nat) (previous : Option Char) : Text → Text
  | [] => []
  | c :: rest =>
    if opensBracket c then c :: withoutDefault (depth + 1) (some c) rest
    else if c = '>' ∧ previous = some '=' then c :: withoutDefault depth (some c) rest
    else if closesBracket c then c :: withoutDefault (depth - 1) (some c) rest
    else if c = '=' ∧ depth = 0 ∧ rest.head? ≠ some '>' ∧ rest.head? ≠ some '=' then []
    else c :: withoutDefault depth (some c) rest

/-- The text around the first top-level colon. -/
def cutAtColon? (depth : Nat) : Text → Option (Text × Text)
  | [] => none
  | c :: rest =>
    if opensBracket c then
      (cutAtColon? (depth + 1) rest).map fun (before, after) => (c :: before, after)
    else if closesBracket c then
      (cutAtColon? (depth - 1) rest).map fun (before, after) => (c :: before, after)
    else if c = ':' ∧ depth = 0 then some ([], rest)
    else (cutAtColon? depth rest).map fun (before, after) => (c :: before, after)

/-- The parts of a text before and from its last identifier on. -/
def splitTrailingName (t : Text) : Text × Text :=
  (t.dropEndWhile Text.isNameChar, t.takeEndWhile Text.isNameChar)

/-- A declared type of the C family without qualifiers, annotations and references, spaced in one
way. -/
def cleanType (l : Language) (written : Text) : Text :=
  let kept := written.words.filter fun w =>
    !(Text.startsWith "@" w) && w != "final" && w != "const" && w != "volatile" && w != "struct"
  let joined := Text.replace "&" "" (Text.join " " kept)
  let local' := if l = .cpp then Text.replace "std::" "" joined else joined
  let tight := [(" <", "<"), ("< ", "<"), (" >", ">"), (" *", "*"), (" [", "["), (", ", ",")].foldl
    (fun (t : Text) (pair : String × String) => Text.replace pair.1 pair.2 t) local'
  tight.trim

/-- A text and how often `[]` stood at its end, blanks between not counting. -/
def dropArrayMarks (t : Text) : Text × Nat :=
  match _found : Text.beforeSuffix? "[]" t with
  | none => (t, 0)
  | some rest =>
    let (t, count) := dropArrayMarks rest.trimEnd
    (t, count + 1)
  termination_by t.length
  decreasing_by
    have := Text.beforeSuffix?_eq_some_iff.1 _found
    subst this
    exact Nat.lt_of_le_of_lt (Text.length_trimEnd_le _) (by simp)

/-- One parameter as it is declared. TypeScript and Python put the type behind a colon; in the C
family the last identifier is the name and everything before it the type. -/
def Parameter.parse (l : Language) (written : Text) : Parameter :=
  let bare := (withoutDefault 0 none written).trim
  if l.isCFamily then
    let (text, arrays) := dropArrayMarks (Text.trimEndMatches "..." bare).trimEnd
    let (type, name) := splitTrailingName text
    let type := cleanType l (type.trim ++ Text.repeated arrays "[]")
    ⟨name, if type = [] then none else some type⟩
  else
    let (left, type) := match cutAtColon? 0 bare with
      | some (left, right) => (left, right.trim)
      | none => (bare, [])
    let marked := Text.trimStartMatches "*" (Text.trimStartMatches "..." left.trim)
    let name := ((Text.trimEndMatches "?" marked).words.getLast?).getD []
    ⟨name, if type = [] then none else some type⟩

end HarnessSynthesis.Source
