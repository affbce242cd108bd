/-
# Static members

A Java program without a solution class is put inside the class that holds the harness. Its methods
and classes must then be static, so that they can be used without an instance. `makeStatic` writes
the word in front of every declaration outside all braces that lacks it.
-/

import HarnessSynthesis.Entry.TypedCandidates

namespace HarnessSynthesis.TypedSource

open Source

/-- The keyword of a class with its name. -/
def class? : Scanner Unit := fun previous t => do
  guard (wordMayBegin previous)
  let rest ← Text.afterPrefix? "class" t
  let (_, behind) ← name? Text.isNameStart Text.isWordChar (← blanks? rest)
  return ((), behind)

/-- Where the types of outermost methods without the word begin. -/
def methodOffsets (stripped : Text) : List Nat :=
  (candidates .java stripped).filterMap fun c =>
    if c.depth = 0 ∧ ¬ "static".toList ∈ c.modifiers then some c.typeOffset else none

/-- Where outermost classes without the word begin. -/
def classOffsets (stripped : Text) : List Nat :=
  (occurrences class? stripped).filterMap fun hit =>
    if braceDepth hit.before = 0 ∧ ¬ Text.endsWith "static" hit.before.trimEnd then
      some hit.before.octets
    else none

/-- A text with a word written in at each of the offsets, of which `position` is the one of its
first character. -/
def insertAt (word : Text) (offsets : List Nat) : (position : Nat) → Text → Text
  | position, [] => if position ∈ offsets then word else []
  | position, c :: rest =>
    (if position ∈ offsets then word else []) ++
      c :: insertAt word offsets (position + c.utf8Size) rest

/-- A Java source whose outermost methods and classes are static. -/
def makeStatic (source : Text) : Text :=
  let stripped := stripComments .java source
  insertAt "static " (methodOffsets stripped ++ classOffsets stripped) 0 source

end HarnessSynthesis.TypedSource
