/-
# Comments

Scanners must not find anything in a comment. `stripComments` blanks comments out instead of
removing them: every octet of a comment becomes a space and line feeds stay, so an offset into the
stripped text is an offset into the source. String literals are kept, and comment openers inside
them open nothing. In Python, strings in triple quotes count as comments.

The scan reads one character at a time. `step` says whether the character is kept and what the scan
is inside of afterwards, looking ahead at the text behind it; the rest is bookkeeping.
-/

import HarnessSynthesis.Language

namespace HarnessSynthesis.Source

/-- What a scan is inside of. -/
inductive Region where
  | code
  | lineComment
  | blockComment
  /-- A string literal. -/
  | quoted (delimiter : Char)
  /-- Behind a backslash in a string literal. -/
  | escaped (delimiter : Char)
  /-- A string in triple quotes. -/
  | triple (delimiter : Char)
  /-- Behind a backslash in a string in triple quotes. -/
  | tripleEscaped (delimiter : Char)
  /-- One more character of a comment's mark, and what follows the mark. -/
  | mark (next : Region)
  deriving DecidableEq, Repr

/-- A character of a comment blanked out, its octets kept in number. -/
def blank (c : Char) : Text :=
  if c = '\n' then ['\n'] else List.replicate c.utf8Size ' '

/-- The characters that delimit a string of a language. -/
def isDelimiter (l : Language) (c : Char) : Bool :=
  c == '"' || c == '\'' || (c == '`' && l == .typescript)

namespace Region

/-- Whether the first character in a region is kept, and the region of the next one. -/
def step (l : Language) (region : Region) (c : Char) (rest : Text) : Bool × Region :=
  match region with
  | .code =>
    if isDelimiter l c then
      if l = .python ∧ Text.startsWith [c, c] rest = true then
        (false, .mark (.mark (.triple c)))
      else (true, .quoted c)
    else if l = .python then
      if c = '#' then (false, .lineComment) else (true, .code)
    else if c = '/' ∧ rest.head? = some '/' then (false, .mark .lineComment)
    else if c = '/' ∧ rest.head? = some '*' then (false, .mark .blockComment)
    else (true, .code)
  | .lineComment => if c = '\n' then (true, .code) else (false, .lineComment)
  | .blockComment =>
    if c = '*' ∧ rest.head? = some '/' then (false, .mark .code) else (false, .blockComment)
  | .quoted q =>
    if c = '\\' then (true, .escaped q)
    else if c = q ∨ (c = '\n' ∧ q ≠ '`') then (true, .code)
    else (true, .quoted q)
  | .escaped q => (true, .quoted q)
  | .triple q =>
    if c = '\\' then (false, .tripleEscaped q)
    else if c = q ∧ Text.startsWith [q, q] rest = true then (false, .mark (.mark .code))
    else (false, .triple q)
  | .tripleEscaped q => (false, .triple q)
  | .mark next => (false, next)

end Region

/-- The rest of a source from within a region, its comments blanked out. -/
def stripFrom (l : Language) : Region → Text → Text
  | _, [] => []
  | region, c :: rest =>
    let (kept, next) := region.step l c rest
    (if kept then [c] else blank c) ++ stripFrom l next rest

/-- A source with its comments blanked out. -/
def stripComments (l : Language) (source : Text) : Text :=
  stripFrom l .code source

@[simp] theorem stripFrom_nil (l : Language) (region : Region) : stripFrom l region [] = [] := rfl

theorem stripFrom_cons {l : Language} {region next : Region} {c : Char} {t : Text} {kept : Bool}
    (h : region.step l c t = (kept, next)) :
    stripFrom l region (c :: t) = (if kept then [c] else blank c) ++ stripFrom l next t := by
  rw [stripFrom, h]

/-- Blanking keeps the number of octets. -/
theorem octets_blank (c : Char) : Text.octets (blank c) = c.utf8Size := by
  unfold blank
  split
  · rename_i same; subst same; rfl
  · induction c.utf8Size with
    | zero => rfl
    | succ n ih =>
      rw [List.replicate_succ, Text.octets_cons, ih]
      exact Nat.add_comm 1 n

end HarnessSynthesis.Source
