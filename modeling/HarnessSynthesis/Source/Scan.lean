/-
# Scanning for declarations

Declarations are found by reading at every place of a source. A `Scanner` reads something at the
head of a text, knowing the character in front of it, and returns what it read with the text that is
left. `occurrences` tries it from left to right and goes on behind each hit, so hits never overlap.

The small readers below take one thing off the head of a text each. They are deterministic: what a
reader takes is fixed by the characters it meets, never by whether a later one succeeds.
-/

import HarnessSynthesis.Text.Basic

namespace HarnessSynthesis.Source

/-- Reads something at the head of a text, given the character in front of it. -/
abbrev Scanner (α : Type) := (previous : Option Char) → Text → Option (α × Text)

/-- A hit of a scanner with all the text in front of it. -/
structure Hit (α : Type) where
  before : Text
  found : α
  deriving Repr

/-- The hits in a text behind what has been passed, which is given in reverse. -/
def occurrencesFrom {α : Type} (scan : Scanner α) (passed : Text) (t : Text) : List (Hit α) :=
  match t with
  | [] => []
  | c :: rest =>
    match scan passed.head? (c :: rest) with
    | some (found, behind) =>
      if behind.length ≤ rest.length then
        let taken := (c :: rest).take (rest.length + 1 - behind.length)
        ⟨passed.reverse, found⟩ :: occurrencesFrom scan (taken.reverse ++ passed) behind
      else ⟨passed.reverse, found⟩ :: occurrencesFrom scan (c :: passed) rest
    | none => occurrencesFrom scan (c :: passed) rest
  termination_by t.length
  decreasing_by
    · simp only [List.length_cons]; omega
    · simp
    · simp

/-- The hits of a scanner in a text from left to right, none overlapping another. -/
def occurrences {α : Type} (scan : Scanner α) (t : Text) : List (Hit α) :=
  occurrencesFrom scan [] t

/-- Whether a scanner hits anywhere. -/
def occurs {α : Type} (scan : Scanner α) (t : Text) : Bool :=
  !(occurrences scan t).isEmpty

/-! ## Boundaries -/

/-- Whether a word can begin behind a character. -/
def wordMayBegin (previous : Option Char) : Bool :=
  !(previous.any Text.isWordChar)

/-- Whether a word can end in front of a text. -/
def wordMayEnd (t : Text) : Bool :=
  !(t.head?.any Text.isWordChar)

/-- Whether a line begins behind a character. -/
def lineBegins (previous : Option Char) : Bool :=
  previous == none || previous == some '\n'

/-! ## Readers -/

/-- The text behind one of several words, and the word. -/
def anyOf? (words : List Text) (t : Text) : Option (Text × Text) :=
  words.findSome? fun word => (Text.afterPrefix? word t).map (word, ·)

/-- The text behind one blank or more. -/
def blanks? : Text → Option Text
  | c :: rest => if Text.isBlank c then some (Text.trimStart rest) else none
  | [] => none

/-- Spaces and tabs, which do not leave a line. -/
def isInlineBlank (c : Char) : Bool :=
  c == ' ' || c == '\t'

/-- The text behind one space or tab or more. -/
def inlineBlanks? : Text → Option Text
  | c :: rest => if isInlineBlank c then some (rest.dropWhile isInlineBlank) else none
  | [] => none

/-- A name by the class of its first character and the class of the others. -/
def name? (first others : Char → Bool) : Text → Option (Text × Text)
  | c :: rest => if first c then some (c :: rest.takeWhile others, rest.dropWhile others) else none
  | [] => none

/-- The text behind a character that may be there. -/
def skipChar (c : Char) (t : Text) : Text :=
  match t with
  | d :: rest => if d = c then rest else t
  | [] => t

/-- A run of characters of a class that is not empty, and what stops it. -/
def run? (p : Char → Bool) (t : Text) : Option (Text × Text) :=
  match t.takeWhile p with
  | [] => none
  | run => some (run, t.dropWhile p)

end HarnessSynthesis.Source
