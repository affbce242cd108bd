/-
# Declared and mentioned types

Whether a source declares a type of a given name itself, and which structures it speaks of. Both
look at the source without its comments and at whole words only.
-/

import HarnessSynthesis.Composite
import HarnessSynthesis.Source.Comments
import HarnessSynthesis.Source.Scan

namespace HarnessSynthesis.Source

/-- The keywords that declare a type. -/
def typeKeywords : Language → List Text
  | .typescript => ["class", "interface", "type"]
  | .python => ["class"]
  | .java => ["class", "interface", "record", "enum"]
  | .cpp => ["class", "struct"]

/-- Whether a word ends or begins between a character and the text behind it. -/
def isBoundary (previous : Option Char) (t : Text) : Bool :=
  previous.any Text.isWordChar != t.head?.any Text.isWordChar

/-- A keyword, blanks, and a name that is a whole word. In Python the keyword stands at the start
of a line, blanks and empty lines before it not counting. -/
def typeDeclaration? (l : Language) (name : Text) : Scanner Unit := fun previous t => do
  guard (if l = .python then lineBegins previous else wordMayBegin previous)
  let head := if l = .python then Text.trimStart t else t
  let (_, rest) ← anyOf? (typeKeywords l) head
  let behind ← Text.afterPrefix? name (← blanks? rest)
  guard (isBoundary name.getLast? behind)
  return ((), behind)

/-- Whether a source declares a type of a name. -/
def declaresType (l : Language) (name source : Text) : Bool :=
  occurs (typeDeclaration? l name.trim) (stripComments l source)

/-- The name of a structure as a whole word. -/
def structureName? : Scanner Composite := fun previous t => do
  guard (wordMayBegin previous)
  let (word, behind) ← anyOf? (Composite.all.map Composite.typeName) t
  guard (wordMayEnd behind)
  return (← Composite.ofName? word, behind)

/-- The structures that a source speaks of, in their fixed order. -/
def mentionedStructures (l : Language) (source : Text) : List Composite :=
  let found := (occurrences structureName? (stripComments l source)).map Hit.found
  Composite.all.filter fun k => found.contains k

/-- Whether a word of a text is `word`. -/
def hasWord (word t : Text) : Bool :=
  (Text.splitWhere (fun c => !Text.isNameChar c) t).contains word

end HarnessSynthesis.Source
