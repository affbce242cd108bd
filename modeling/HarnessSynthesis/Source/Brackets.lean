/-
# Brackets

Three ways of following brackets through a text: to the parenthesis that closes a first one, to the
angle bracket that closes a first one, and by counting the braces that are open at a place.
-/

import HarnessSynthesis.Text.Basic

namespace HarnessSynthesis.Source

open Text (extend extend_eq_some_iff)

/-- The text up to the bracket that closes the innermost open one when `depth` more are open, and
the text behind that bracket. Other characters do not count, whatever they quote. -/
def closeBracket? (opening closing : Char) : (depth : Nat) → Text → Option (Text × Text)
  | _, [] => none
  | depth, c :: rest =>
    if c = opening then extend c (closeBracket? opening closing (depth + 1) rest)
    else if c = closing then
      match depth with
      | 0 => some ([], rest)
      | depth + 1 => extend c (closeBracket? opening closing depth rest)
    else extend c (closeBracket? opening closing depth rest)

/-- Following brackets takes nothing away but the one that closes. -/
theorem eq_append_of_closeBracket? {opening closing : Char} {depth : Nat} {t inside behind : Text}
    (h : closeBracket? opening closing depth t = some (inside, behind)) :
    t = inside ++ closing :: behind := by
  have step {c : Char} {o : Option (Text × Text)} {t : Text}
      (ih : ∀ {inside behind}, o = some (inside, behind) → t = inside ++ closing :: behind)
      {inside behind : Text} (h : extend c o = some (inside, behind)) :
      c :: t = inside ++ closing :: behind := by
    obtain ⟨more, rfl, found⟩ := extend_eq_some_iff.1 h
    rw [List.cons_append, ← ih found]
  induction t generalizing depth inside behind with
  | nil => simp [closeBracket?] at h
  | cons c t ih =>
    simp only [closeBracket?] at h
    split at h
    · exact step ih h
    · split at h
      · rename_i closes
        split at h
        · obtain ⟨rfl, rfl⟩ := Prod.mk.inj (Option.some.inj h)
          rw [closes]; rfl
        · exact step ih h
      · exact step ih h

/-- What stands between the parenthesis a text starts with and the one that closes it, and what
stands behind. -/
def parenthesized? : Text → Option (Text × Text)
  | '(' :: rest => closeBracket? '(' ')' 0 rest
  | _ => none

/-- What stands between the angle bracket a text starts with and the one that closes it, and what
stands behind. -/
def angled? : Text → Option (Text × Text)
  | '<' :: rest => closeBracket? '<' '>' 0 rest
  | _ => none

/-- The offset of the parenthesis that closes the one at an offset. -/
def matchingParen? (t : Text) (offset : Nat) : Option Nat := do
  let (_, behind) ← Text.splitAtOctet? offset t
  let (inside, _) ← parenthesized? behind
  return offset + 1 + inside.octets

/-! ## Braces -/

/-- Whether a scan is inside a quoted text, and there perhaps behind a backslash. -/
inductive Quoting where
  | outside
  | inside (delimiter : Char)
  | escaped (delimiter : Char)
  deriving DecidableEq, Repr

/-- How many braces are open behind a text, from a depth and a string that may be open. Braces in
strings do not count, a string ends with its line, and a closing brace too many is ignored. -/
def braceDepthFrom : (depth : Nat) → Quoting → Text → Nat
  | depth, _, [] => depth
  | depth, .escaped q, _ :: rest => braceDepthFrom depth (.inside q) rest
  | depth, .inside q, c :: rest =>
    if c = '\\' then braceDepthFrom depth (.escaped q) rest
    else if c = q ∨ c = '\n' then braceDepthFrom depth .outside rest
    else braceDepthFrom depth (.inside q) rest
  | depth, .outside, c :: rest =>
    if c = '"' ∨ c = '\'' then braceDepthFrom depth (.inside c) rest
    else if c = '{' then braceDepthFrom (depth + 1) .outside rest
    else if c = '}' then braceDepthFrom (depth - 1) .outside rest
    else braceDepthFrom depth .outside rest
  termination_by structural _ _ t => t

/-- How many braces are open behind a text. -/
def braceDepth (t : Text) : Nat :=
  braceDepthFrom 0 .outside t

end HarnessSynthesis.Source
