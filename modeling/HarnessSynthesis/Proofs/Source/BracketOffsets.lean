/-
# Brackets by offsets

A bracket is closed by counting octets that are brackets, with a count that has no sign. The count
starts at the bracket that is to be closed and ends with it, so it is never lowered at zero, and
octets of other characters are no brackets. What is found is the offset of the bracket that closes
among the characters. The braces that are open at an offset are counted in octets as well.
-/

import HarnessSynthesis.Proofs.Text.Checked
import HarnessSynthesis.Source.Brackets

namespace HarnessSynthesis.Source

open Text (utf8 IsAscii)

/-- The offset of the bracket behind which none is open any more, from the octets at an offset. -/
def closeFrom (opening closing : Char) (offset depth : Nat) : List UInt8 → Checked (Option Nat)
  | [] => .ok none
  | o :: rest =>
    if o = opening.toUInt8 then closeFrom opening closing (offset + 1) (depth + 1) rest
    else if o = closing.toUInt8 then
      match Checked.minus depth 1 with
      | .error trap => .error trap
      | .ok 0 => .ok (some offset)
      | .ok (left + 1) => closeFrom opening closing (offset + 1) (left + 1) rest
    else closeFrom opening closing (offset + 1) depth rest

/-- The offset of the parenthesis that closes the one at an offset, if one is there. -/
def matchingParenAt (t : Text) (start : Nat) : Checked (Option Nat) := do
  if (utf8 t)[start]? = some '('.toUInt8 then
    closeFrom '(' ')' start 0 (← t.octetsFrom start)
  else
    return none

/-- The offset behind the angle bracket that closes the one at an offset. -/
def skipAngleAt (t : Text) (start : Nat) : Checked (Option Nat) := do
  let close ← closeFrom '<' '>' start 0 (← t.octetsFrom start)
  return close.map (· + 1)

section Close

variable {opening closing : Char} {offset depth : Nat}

theorem closeFrom_append_of_le (hopening : IsAscii opening) (hclosing : IsAscii closing)
    {os : List UInt8} (high : ∀ o ∈ os, 0x80 ≤ o.toNat) (rest : List UInt8) :
    closeFrom opening closing offset depth (os ++ rest) =
      closeFrom opening closing (offset + os.length) depth rest := by
  induction os generalizing offset with
  | nil => rfl
  | cons o os ih =>
    rw [List.forall_mem_cons] at high
    rw [List.cons_append, closeFrom, if_neg (Text.ne_toUInt8_of_le high.1 hopening),
      if_neg (Text.ne_toUInt8_of_le high.1 hclosing), ih high.2, List.length_cons]
    congr 1
    omega

/-- Where a bracket is open, the count does not fall below zero, and the bracket is closed where the
characters say. -/
theorem closeFrom_utf8 (hopening : IsAscii opening) (hclosing : IsAscii closing) (t : Text)
    (offset depth : Nat) :
    closeFrom opening closing offset (depth + 1) (utf8 t) =
      .ok ((closeBracket? opening closing depth t).map fun p => offset + p.1.octets) := by
  induction t generalizing offset depth with
  | nil => cases depth <;> rfl
  | cons c t ih =>
    by_cases ascii : IsAscii c
    · have size : c.utf8Size = 1 := Text.utf8Size_of_isAscii ascii
      have pass (depth' : Nat) : closeFrom opening closing (offset + 1) (depth' + 1) (utf8 t) =
          .ok ((Text.extend c (closeBracket? opening closing depth' t)).map
            fun p => offset + p.1.octets) := by
        rw [ih, Text.map_extend, size]
      simp only [Text.utf8_cons_of_isAscii ascii, closeFrom, closeBracket?,
        Text.toUInt8_inj ascii hopening, Text.toUInt8_inj ascii hclosing, pass]
      split
      · rfl
      · split
        · cases depth with
          | zero => rw [Checked.minus_of_le (Nat.le_refl 1)]; rfl
          | succ depth => rw [Checked.minus_of_le (by omega)]; rfl
        · rfl
    · have differs {d : Char} (hd : IsAscii d) : c ≠ d := Text.ne_of_not_isAscii ascii hd
      have high : ∀ o ∈ String.utf8EncodeChar c, 0x80 ≤ o.toNat :=
        fun _ mem => Text.le_of_mem_utf8EncodeChar ascii mem
      have passed : closeBracket? opening closing depth (c :: t) =
          Text.extend c (closeBracket? opening closing depth t) := by
        simp only [closeBracket?, if_neg (differs hopening), if_neg (differs hclosing)]
      rw [Text.utf8_cons, closeFrom_append_of_le hopening hclosing high, ih, passed,
        Text.map_extend, String.length_utf8EncodeChar]

example : closeFrom '<' '>' 0 0 ['>'.toUInt8] = .error .underflow := rfl

end Close

theorem matchingParenAt_append (front t : Text) :
    matchingParenAt (front ++ '(' :: t) front.octets =
      .ok ((closeBracket? '(' ')' 0 t).map fun p => front.octets + 1 + p.1.octets) := by
  have here : (utf8 (front ++ '(' :: t))[front.octets]? = some '('.toUInt8 := by
    rw [Text.utf8_append, ← Text.length_utf8, List.getElem?_append_right (Nat.le_refl _),
      Nat.sub_self]
    rfl
  rw [matchingParenAt, if_pos here, Text.octetsFrom_append]
  exact closeFrom_utf8 (by decide) (by decide) t (front.octets + 1) 0

/-- A parenthesis is matched at any offset of any text: what is no parenthesis, or no place of the
text, matches none. -/
theorem matchingParenAt_eq (t : Text) (start : Nat) :
    matchingParenAt t start = .ok (matchingParen? t start) := by
  by_cases here : (utf8 t)[start]? = some '('.toUInt8
  · obtain ⟨front, rest, rfl, rfl⟩ := Text.exists_of_getElem?_utf8 (by decide) here
    rw [matchingParenAt_append, matchingParen?, Text.splitAtOctet?_append]
    show _ = Except.ok ((closeBracket? '(' ')' 0 rest).bind fun p => some (_ + 1 + p.1.octets))
    cases closeBracket? '(' ')' 0 rest <;> rfl
  · rw [matchingParenAt, if_neg here, matchingParen?]
    cases split : Text.splitAtOctet? start t with
    | none => rfl
    | some p =>
      obtain ⟨front, behind⟩ := p
      obtain ⟨rfl, rfl⟩ := Text.exists_of_splitAtOctet? split
      have noParen : parenthesized? behind = none := by
        rw [parenthesized?]
        intro rest same
        apply here
        rw [same, Text.utf8_append, ← Text.length_utf8,
          List.getElem?_append_right (Nat.le_refl _), Nat.sub_self]
        rfl
      show _ = Except.ok ((parenthesized? behind).bind fun p => some (_ + 1 + p.1.octets))
      rw [noParen]
      rfl

theorem skipAngleAt_append (front t : Text) :
    skipAngleAt (front ++ '<' :: t) front.octets =
      .ok ((closeBracket? '<' '>' 0 t).map fun p => front.octets + 1 + p.1.octets + 1) := by
  have close : closeFrom '<' '>' front.octets 0 (utf8 ('<' :: t)) = _ :=
    closeFrom_utf8 (by decide) (by decide) t (front.octets + 1) 0
  rw [skipAngleAt, Text.octetsFrom_append]
  simp only [close, bind, Except.bind, pure, Except.pure, Option.map_map]
  rfl

/-! ## Braces -/

/-- How many braces are open in front of an offset. No octet is read behind the offset or the end,
and a closing brace too many is ignored, so nothing can stop the count. -/
def braceDepthAt (t : Text) (offset : Nat) : Nat :=
  braceDepth ((Text.octetChars t).take offset)

/-- Whether a quote that may be open is a character of ASCII. -/
def Quoting.Narrow : Quoting → Prop
  | .outside => True
  | .inside q => IsAscii q
  | .escaped q => IsAscii q

/-- What a scan is inside of behind a character beyond ASCII. -/
def Quoting.pass : Quoting → Quoting
  | .outside => .outside
  | .inside q => .inside q
  | .escaped q => .inside q

section Braces

variable {c : Char} {depth : Nat} {quoting : Quoting}

theorem braceDepthFrom_cons_of_wide (wide : ¬ IsAscii c) (narrow : quoting.Narrow) (t : Text) :
    braceDepthFrom depth quoting (c :: t) = braceDepthFrom depth quoting.pass t := by
  have differs {d : Char} (ascii : IsAscii d) : c ≠ d := Text.ne_of_not_isAscii wide ascii
  cases quoting with
  | outside =>
    rw [braceDepthFrom, if_neg (not_or.2 ⟨differs (by decide), differs (by decide)⟩),
      if_neg (differs (by decide)), if_neg (differs (by decide))]
    rfl
  | inside q =>
    rw [braceDepthFrom, if_neg (differs (by decide)),
      if_neg (not_or.2 ⟨differs narrow, differs (by decide)⟩)]
    rfl
  | escaped q => rfl

theorem narrow_pass (narrow : quoting.Narrow) : quoting.pass.Narrow := by
  cases quoting <;> exact narrow

theorem pass_pass (quoting : Quoting) : quoting.pass.pass = quoting.pass := by
  cases quoting <;> rfl

theorem braceDepthFrom_append_of_wide {ds : Text} (wide : ∀ d ∈ c :: ds, ¬ IsAscii d)
    (narrow : quoting.Narrow) (t : Text) :
    braceDepthFrom depth quoting (c :: ds ++ t) = braceDepthFrom depth quoting.pass t := by
  induction ds generalizing c quoting with
  | nil => exact braceDepthFrom_cons_of_wide (wide c List.mem_cons_self) narrow t
  | cons d ds ih =>
    obtain ⟨first, others⟩ := List.forall_mem_cons.1 wide
    rw [List.cons_append, braceDepthFrom_cons_of_wide first narrow, ih others (narrow_pass narrow),
      pass_pass]

theorem braceDepthFrom_octetChars (quoting : Quoting) (narrow : quoting.Narrow) (t : Text) :
    braceDepthFrom depth quoting (Text.octetChars t) = braceDepthFrom depth quoting t := by
  induction t generalizing depth quoting with
  | nil => cases quoting <;> rfl
  | cons c t ih =>
    by_cases ascii : IsAscii c
    · rw [Text.octetChars_cons_of_isAscii ascii]
      cases quoting with
      | escaped q => exact ih (.inside q) narrow
      | inside q =>
        simp only [braceDepthFrom, ih (.escaped q) narrow, ih (.inside q) narrow,
          ih .outside trivial]
      | outside =>
        simp only [braceDepthFrom, ih (.inside c) ascii, ih .outside trivial]
    · obtain ⟨d, ds, whole, -, wide⟩ := Text.exists_octetChars_of_wide ascii t
      rw [whole, braceDepthFrom_append_of_wide wide narrow, ih _ (narrow_pass narrow),
        braceDepthFrom_cons_of_wide ascii narrow]

theorem braceDepthAt_append (front rest : Text) :
    braceDepthAt (front ++ rest) front.octets = braceDepth front := by
  rw [braceDepthAt, Text.take_octetChars_append]
  exact braceDepthFrom_octetChars .outside trivial front

end Braces

end HarnessSynthesis.Source
