/-
# User sources in Java programs

A Java program is one file whose only public type is the class that holds the harness. The user's
imports move to its top, package lines go, and outermost types lose the word `public`. A source
without a solution class is put inside the class of the harness, its members made static.
-/

import HarnessSynthesis.Entry.StaticMembers

namespace HarnessSynthesis.Harness

open Source

/-- A user's source taken apart. -/
structure JavaSource where
  imports : List Text
  body : Text
  deriving Repr

namespace JavaSource

/-! ## Imports -/

/-- What a line is, judged by its text without comments. -/
inductive LineKind where
  | importLine (statement : Text)
  | packageLine
  | other
  deriving DecidableEq, Repr

/-- The kind of a line whose comments are blanked out. A statement has to begin and end on it. -/
def LineKind.of (bare : Text) : LineKind :=
  let statement := bare.trim
  if Text.startsWith "import " statement && Text.endsWith [';'] statement then
    .importLine statement
  else if Text.startsWith "package " statement && Text.endsWith [';'] statement then .packageLine
  else .other

/-- The lines of a source with their kinds. -/
def classifyLines (source : Text) : List (Text × LineKind) :=
  source.lines.zip ((stripComments .java source).lines.map LineKind.of)

/-- The import statements of a source. -/
def importsOf (source : Text) : List Text :=
  (classifyLines source).filterMap fun
    | (_, .importLine statement) => some statement
    | _ => none

/-- The lines of a source that are neither imports nor package lines. -/
def keptLines (source : Text) : List Text :=
  (classifyLines source).filterMap fun
    | (line, .other) => some line
    | _ => none

/-! ## Public types -/

/-- Words that may stand between `public` and the keyword of a type. -/
def publicTypeModifiers : List Text := ["final", "abstract", "static", "sealed"]

/-- The text behind modifiers with blanks behind each. -/
def skipModifiers : (fuel : Nat) → Text → Text
  | 0, t => t
  | fuel + 1, t =>
    match (anyOf? publicTypeModifiers t).bind fun (_, rest) => blanks? rest with
    | some rest => skipModifiers fuel rest
    | none => t

/-- `public` in front of a type. -/
def publicType? : Scanner Unit := fun previous t => do
  guard (wordMayBegin previous)
  let rest ← blanks? (← Text.afterPrefix? "public" t)
  let (_, behind) ← anyOf? ["class", "interface", "enum", "record"] (skipModifiers t.length rest)
  guard (wordMayEnd behind)
  return ((), behind)

/-- Where outermost types are public. -/
def publicOffsets (stripped : Text) : List Nat :=
  (occurrences publicType? stripped).filterMap fun hit =>
    if braceDepth hit.before = 0 then some hit.before.octets else none

/-- What is being removed at a place: nothing, some more characters of a word, or the spaces and
tabs behind it. -/
inductive Removal where
  | none
  | word (left : Nat)
  | blanks
  deriving DecidableEq, Repr

/-- A text without the words of six letters at the offsets and the spaces and tabs behind them. -/
def removeWords (offsets : List Nat) : Removal → (position : Nat) → Text → Text
  | _, _, [] => []
  | removal, position, c :: rest =>
    let next := position + c.utf8Size
    match removal with
    | .word (left + 1) => removeWords offsets (.word left) next rest
    | .word 0 | .blanks =>
      if isInlineBlank c then removeWords offsets .blanks next rest
      else if position ∈ offsets then removeWords offsets (.word 5) next rest
      else c :: removeWords offsets .none next rest
    | .none =>
      if position ∈ offsets then removeWords offsets (.word 5) next rest
      else c :: removeWords offsets .none next rest

/-- A source whose outermost types are not public. -/
def demote (source : Text) : Text :=
  removeWords (publicOffsets (stripComments .java source)) .none 0 source

/-- A source taken apart; without a solution class its members are made static. -/
def prepare (wrapped : Bool) (source : Text) : JavaSource :=
  let body := demote (Text.join ['\n'] (keptLines source))
  ⟨importsOf source, if wrapped then body else TypedSource.makeStatic body⟩

end JavaSource

end HarnessSynthesis.Harness
