/-
# Program text

Programs are put together from blocks of lines. The blocks that never change are kept as lists of
their lines, and paragraphs are separated by one blank line.
-/

import HarnessSynthesis.Text.Basic

namespace HarnessSynthesis

namespace Fragments

/-- Lines with line feeds between them. -/
def block (lines : List String) : Text :=
  Text.join ['\n'] (lines.map String.toList)

/-- A line with its end. -/
def line (t : Text) : Text :=
  t ++ ['\n']

/-- Lines each with its end. -/
def lines (ts : List Text) : Text :=
  ts.flatMap line

/-- A block of a program with a blank line behind it. A block of blanks alone is left out. -/
def paragraph (t : Text) : Text :=
  if t.trim = [] then [] else t.trimEnd ++ ['\n', '\n']

end Fragments

/-- What a program needs to handle a structure: its type, the function that builds it from plain
data and the one that turns it back. -/
structure Fragments where
  definition : Text
  parser : Text
  serializer : Text

end HarnessSynthesis
