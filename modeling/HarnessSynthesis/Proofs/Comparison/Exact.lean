/-
# Exact comparison

A result passes when its canonical text is one of those that the expectation accepts. Between values
whose numbers are integers this is no weaker than comparing the values: their texts are read back as
what was written, so no two values share one. Dropping neighbouring copies loses no text.
-/

import HarnessSynthesis.Json.Canonical
import HarnessSynthesis.Proofs.Json.RoundTrip

namespace HarnessSynthesis

/-- The loop that drops neighbouring copies keeps what it holds and what it has left. -/
theorem mem_eraseRepsBy_loop {a b : Text} {rest kept : List Text} :
    a ∈ List.eraseRepsBy.loop (· == ·) b rest kept ↔ a = b ∨ a ∈ rest ∨ a ∈ kept := by
  induction rest generalizing b kept with
  | nil =>
    rw [List.eraseRepsBy.loop, List.mem_reverse, List.mem_cons]
    exact or_congr_right (or_iff_right List.not_mem_nil).symm
  | cons c rest ih =>
    rw [List.eraseRepsBy.loop]
    split
    · rename_i same
      rw [ih, eq_of_beq same, List.mem_cons, or_assoc, or_self_left]
    · rw [ih, List.mem_cons, List.mem_cons]
      constructor
      · rintro (here | later | first | before)
        · exact Or.inr (Or.inl (Or.inl here))
        · exact Or.inr (Or.inl (Or.inr later))
        · exact Or.inl first
        · exact Or.inr (Or.inr before)
      · rintro (first | (here | later) | before)
        · exact Or.inr (Or.inr (Or.inl first))
        · exact Or.inl here
        · exact Or.inr (Or.inl later)
        · exact Or.inr (Or.inr (Or.inr before))

/-- Dropping neighbouring copies keeps what is in a list. -/
theorem mem_eraseReps {a : Text} {texts : List Text} : a ∈ texts.eraseReps ↔ a ∈ texts := by
  cases texts with
  | nil => exact Iff.rfl
  | cons b rest =>
    rw [List.eraseReps, List.eraseRepsBy, mem_eraseRepsBy_loop, List.mem_cons]
    exact or_congr_right (or_iff_left List.not_mem_nil)

namespace Json.Value

/-! ## What an expectation admits -/

/-- The value itself is admitted, or with several allowed the elements of an array. -/
theorem mem_alternatives_iff {several : Bool} {e v : Value} :
    v ∈ alternatives several e ↔
      (∃ items, several = true ∧ e = .array items ∧ v ∈ items) ∨
        ((several = false ∨ ∀ items, e ≠ .array items) ∧ v = e) := by
  cases e with
  | array items =>
    cases several with
    | false => simp [alternatives]
    | true => simp [alternatives]
  | null => simp [alternatives]
  | bool b => simp [alternatives]
  | number n => simp [alternatives]
  | string s => simp [alternatives]
  | object members => simp [alternatives]

theorem isIntegral_of_mem_alternatives {several : Bool} {e v : Value} (he : e.isIntegral = true)
    (admitted : v ∈ alternatives several e) : v.isIntegral = true := by
  rcases mem_alternatives_iff.1 admitted with ⟨items, -, rfl, found⟩ | ⟨-, rfl⟩
  · exact isIntegral_array.1 he v found
  · exact he

/-- A text is accepted when it is that of an admitted value. -/
theorem mem_acceptedTexts_iff {e : Value} {sorted several : Bool} {t : Text} :
    t ∈ acceptedTexts e sorted several ↔
      ∃ v ∈ alternatives several e,
        (if sorted then v.canonical.unordered.canonicalText
          else v.canonical.canonicalText) = t := by
  rw [acceptedTexts, mem_eraseReps, List.mem_map]

/-! ## Texts tell values apart -/

theorem canonicalText_injective {v w : Value} (hv : v.isIntegral = true)
    (hw : w.isIntegral = true) (h : v.canonicalText = w.canonicalText) : v = w := by
  rw [canonicalText_of_isIntegral hv, canonicalText_of_isIntegral hw] at h
  exact eq_of_write_eq hv hw h

/-- Ordered comparison is exact: the text of a result is accepted when the result is an element of
the expected array, where several are allowed, or otherwise the expected value. In particular no
two values share a text. -/
theorem canonicalText_mem_acceptedTexts_iff {e w : Value} (several : Bool)
    (he : e.isIntegral = true) (hw : w.isIntegral = true) :
    (w.canonicalText ∈ acceptedTexts e false several ↔
        (∃ items, several = true ∧ e = .array items ∧ w ∈ items) ∨
          ((several = false ∨ ∀ items, e ≠ .array items) ∧ w = e)) ∧
      (w.canonicalText = e.canonicalText ↔ w = e) := by
  refine ⟨?_, fun h => canonicalText_injective hw he h, fun h => by rw [h]⟩
  rw [mem_acceptedTexts_iff, ← mem_alternatives_iff]
  constructor
  · rintro ⟨v, admitted, same⟩
    have hv := isIntegral_of_mem_alternatives he admitted
    rw [if_neg Bool.false_ne_true, canonical_of_isIntegral hv] at same
    exact canonicalText_injective hv hw same ▸ admitted
  · intro admitted
    exact ⟨w, admitted, by rw [if_neg Bool.false_ne_true, canonical_of_isIntegral hw]⟩

/-- Of an expected array with both orders of its elements allowed, the second one is accepted. -/
theorem canonicalText_mem_acceptedTexts_second :
    (array [.int 2, .string "a\"b".toList]).canonicalText ∈
      acceptedTexts (.array [.array [.string "a\"b".toList, .int 2],
        .array [.int 2, .string "a\"b".toList]]) false true :=
  (canonicalText_mem_acceptedTexts_iff true (by decide) (by decide)).1.2
    (Or.inl ⟨_, rfl, rfl, List.mem_cons_of_mem _ List.mem_cons_self⟩)

end Json.Value

end HarnessSynthesis
