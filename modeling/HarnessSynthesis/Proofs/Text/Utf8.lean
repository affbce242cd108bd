/-
# UTF-8

Offsets are counted in octets of the UTF-8 encoding. This module holds the encoding itself: one
octet for a character of ASCII, and several for any other, none of which is an octet of ASCII. So
what is looked for in ASCII is found in the octets exactly where it stands among the characters.
-/

import HarnessSynthesis.Text.Basic

namespace HarnessSynthesis.Text

/-- The UTF-8 encoding of a text. -/
def utf8 (t : Text) : List UInt8 :=
  t.flatMap String.utf8EncodeChar

@[simp] theorem utf8_nil : utf8 [] = [] := rfl

theorem utf8_cons (c : Char) (t : Text) : utf8 (c :: t) = String.utf8EncodeChar c ++ utf8 t := rfl

@[simp] theorem utf8_append (s t : Text) : utf8 (s ++ t) = utf8 s ++ utf8 t :=
  List.flatMap_append

/-- The length of a text in octets is that of its encoding. -/
theorem length_utf8 (t : Text) : (utf8 t).length = octets t := by
  induction t with
  | nil => rfl
  | cons c t ih => rw [utf8_cons, List.length_append, String.length_utf8EncodeChar, ih, octets_cons]

theorem toByteArray_utf8 (t : Text) : (utf8 t).toByteArray = t.utf8Encode := rfl

/-- The encoding of a text is valid, and it is read as the text. -/
theorem fromUTF8?_utf8 (t : Text) :
    String.fromUTF8? (utf8 t).toByteArray = some (String.ofList t) := by
  rw [toByteArray_utf8, String.fromUTF8?, dif_pos ByteArray.isValidUTF8_utf8Encode]
  rfl

/-- Texts are told apart by their encodings. -/
theorem utf8_injective {s t : Text} (h : utf8 s = utf8 t) : s = t := by
  have read := congrArg (fun o => String.fromUTF8? (List.toByteArray o)) h
  simp only [fromUTF8?_utf8, Option.some.injEq] at read
  rwa [String.ofList_inj] at read

/-! ## ASCII and the rest -/

/-- A character that is encoded in one octet. -/
def IsAscii (c : Char) : Prop :=
  c.toNat < 0x80

instance (c : Char) : Decidable (IsAscii c) :=
  inferInstanceAs (Decidable (c.toNat < 0x80))

theorem utf8EncodeChar_of_isAscii {c : Char} (ascii : IsAscii c) :
    String.utf8EncodeChar c = [c.toUInt8] := by
  refine String.utf8EncodeChar_eq_singleton (Char.utf8Size_eq_one_iff.2 ?_)
  rw [UInt32.le_iff_toNat_le]
  exact Nat.le_of_lt_succ ascii

theorem utf8Size_of_isAscii {c : Char} (ascii : IsAscii c) : c.utf8Size = 1 := by
  rw [← String.length_utf8EncodeChar, utf8EncodeChar_of_isAscii ascii, List.length_singleton]

theorem utf8_cons_of_isAscii {c : Char} (ascii : IsAscii c) (t : Text) :
    utf8 (c :: t) = c.toUInt8 :: utf8 t := by
  rw [utf8_cons, utf8EncodeChar_of_isAscii ascii, List.singleton_append]

theorem toNat_toUInt8 {c : Char} (ascii : IsAscii c) : c.toUInt8.toNat = c.toNat := by
  change c.toNat % 256 = c.toNat
  exact Nat.mod_eq_of_lt (Nat.lt_trans ascii (by decide))

theorem toUInt8_inj {c d : Char} (hc : IsAscii c) (hd : IsAscii d) :
    c.toUInt8 = d.toUInt8 ↔ c = d := by
  constructor
  · intro same
    have number : c.toNat = d.toNat := by
      rw [← toNat_toUInt8 hc, ← toNat_toUInt8 hd, same]
    rw [← Char.ofNat_toNat c, number, Char.ofNat_toNat]
  · rintro rfl
    rfl

/-- No octet of a character beyond ASCII is an octet of ASCII. -/
theorem le_of_mem_utf8EncodeChar {c : Char} (wide : ¬ IsAscii c) {o : UInt8}
    (mem : o ∈ String.utf8EncodeChar c) : 0x80 ≤ o.toNat := by
  have large : ¬ c.val.toNat ≤ 0x7f := fun small => wide (Nat.lt_succ_of_le small)
  unfold String.utf8EncodeChar at mem
  simp only [if_neg large] at mem
  split at mem
  · simp only [List.mem_cons, List.not_mem_nil, or_false] at mem
    rcases mem with rfl | rfl <;> simp only [UInt8.toNat_ofNat'] <;> omega
  · split at mem
    · simp only [List.mem_cons, List.not_mem_nil, or_false] at mem
      rcases mem with rfl | rfl | rfl <;> simp only [UInt8.toNat_ofNat'] <;> omega
    · simp only [List.mem_cons, List.not_mem_nil, or_false] at mem
      rcases mem with rfl | rfl | rfl | rfl <;> simp only [UInt8.toNat_ofNat'] <;> omega

/-- The first octet of a character, and others that are no octets of ASCII. -/
theorem exists_utf8EncodeChar (c : Char) :
    ∃ o os, String.utf8EncodeChar c = o :: os ∧ ∀ x ∈ os, 0x80 ≤ x.toNat := by
  by_cases ascii : IsAscii c
  · exact ⟨_, [], utf8EncodeChar_of_isAscii ascii, fun _ hx => absurd hx List.not_mem_nil⟩
  · obtain ⟨o, os, whole⟩ := List.exists_cons_of_ne_nil (String.utf8EncodeChar_ne_nil (c := c))
    refine ⟨o, os, whole, ?_⟩
    intro x hx
    exact le_of_mem_utf8EncodeChar ascii (whole ▸ List.mem_cons_of_mem o hx)

theorem ne_toUInt8_of_le {o : UInt8} (high : 0x80 ≤ o.toNat) {c : Char} (ascii : IsAscii c) :
    o ≠ c.toUInt8 := by
  rintro rfl
  rw [toNat_toUInt8 ascii] at high
  exact absurd ascii (Nat.not_lt.2 high)

theorem ne_of_not_isAscii {c d : Char} (wide : ¬ IsAscii c) (ascii : IsAscii d) : c ≠ d := by
  rintro rfl
  exact wide ascii

/-- An encoding begins with another one exactly when the text begins with the other text. -/
theorem utf8_isPrefix_iff {p t : Text} : utf8 p <+: utf8 t ↔ p <+: t := by
  constructor
  · rintro ⟨rest, whole⟩
    refine List.isPrefix_of_utf8Encode_append_eq_utf8Encode rest.toByteArray ?_
    rw [← toByteArray_utf8, ← toByteArray_utf8, ← List.toByteArray_append, whole]
  · rintro ⟨rest, rfl⟩
    exact ⟨utf8 rest, (utf8_append p rest).symm⟩

end HarnessSynthesis.Text
