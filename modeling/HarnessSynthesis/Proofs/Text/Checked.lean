/-
# Checked operations

A program that counts in octets works with numbers, and a number may lie anywhere: behind the end of
a text, inside of a character, below zero. The operations of this module are those of such a program
with everything that stops it. A slice is taken at two offsets or not at all, a difference exists or
not, and a loop goes on only as long as each of its rounds makes its state smaller. That a program
of these operations is never stopped is then an equation with the result it gives.
-/

import HarnessSynthesis.Proofs.Text.Utf8

namespace HarnessSynthesis

/-- Why a program that counts in octets is stopped. -/
inductive Trap where
  /-- A slice whose bounds are out of order, behind the end or inside of a character. -/
  | slice
  /-- A number below zero. -/
  | underflow
  /-- A round of a loop that brings it no nearer to its end. -/
  | stalled
  deriving DecidableEq, Repr

/-- A result, unless the program is stopped. -/
abbrev Checked (α : Type) := Except Trap α

/-- A difference of numbers without a sign. -/
def Checked.minus (m n : Nat) : Checked Nat :=
  if n ≤ m then .ok (m - n) else .error .underflow

theorem Checked.minus_of_le {m n : Nat} (le : n ≤ m) : Checked.minus m n = .ok (m - n) :=
  if_pos le

/-! ## Loops -/

/-- A loop: a round leads to another state or out of the loop with a result, and the size of the
state is what a round must make smaller. -/
structure Loop (σ β : Type) where
  size : σ → Nat
  round : σ → Checked (σ ⊕ β)

namespace Loop

variable {σ β : Type} (l : Loop σ β)

/-- The states in which a loop begins its rounds, from a first one on, and its result. -/
def run (s : σ) : Checked (List σ × β) :=
  match l.round s with
  | .error trap => .error trap
  | .ok (.inr result) => .ok ([s], result)
  | .ok (.inl next) =>
    if _smaller : l.size next < l.size s then
      (run next).map fun (states, result) => (s :: states, result)
    else .error .stalled
  termination_by l.size s

/-- A round that is not stopped: it leads on to a smaller state of the same kind, or out of the loop
to a result that is wanted. -/
inductive Advances (inv : σ → Prop) (wanted : β → Prop) (s : σ) : Prop
  | on (next : σ) (round : l.round s = .ok (.inl next)) (smaller : l.size next < l.size s)
      (kept : inv next)
  | out (result : β) (round : l.round s = .ok (.inr result)) (reached : wanted result)

variable {l} {inv : σ → Prop} {wanted : β → Prop}

/-- A loop whose rounds advance from every state of a kind is not stopped. By induction on the
size. -/
theorem exists_run (advances : ∀ s, inv s → l.Advances inv wanted s) {s : σ} (start : inv s) :
    ∃ states result, l.run s = .ok (states, result) ∧ wanted result ∧
      (∀ s' ∈ states, inv s' ∧ l.size s' ≤ l.size s) ∧
      states.Pairwise fun a b => l.size b < l.size a := by
  induction size : l.size s using Nat.strongRecOn generalizing s with
  | ind n ih =>
    rw [run]
    cases advances s start with
    | out result round reached =>
      rw [round]
      refine ⟨[s], result, rfl, reached, ?_, List.pairwise_singleton _ _⟩
      intro s' mem
      obtain rfl := List.mem_singleton.1 mem
      exact ⟨start, Nat.le_of_eq size⟩
    | on next round smaller kept =>
      obtain ⟨states, result, run, reached, all, falling⟩ :=
        ih (l.size next) (size ▸ smaller) kept rfl
      rw [round]
      refine ⟨s :: states, result, ?_, reached, ?_, ?_⟩
      · simp only [dif_pos smaller, run]
        rfl
      · rw [List.forall_mem_cons]
        refine ⟨⟨start, Nat.le_of_eq size⟩, fun s' mem => ⟨(all s' mem).1, ?_⟩⟩
        have below := (all s' mem).2
        omega
      · rw [List.pairwise_cons]
        refine ⟨fun s' mem => ?_, falling⟩
        exact Nat.lt_of_le_of_lt (all s' mem).2 smaller

/-- The result of a loop whose rounds can only lead to one. -/
theorem run_of_advances {result : β} (advances : ∀ s, inv s → l.Advances inv (· = result) s) {s : σ}
    (start : inv s) : (l.run s).map (·.2) = .ok result := by
  obtain ⟨states, result', run, reached, -⟩ := exists_run advances start
  rw [run, ← reached]
  rfl

end Loop

namespace Text

/-! ## Slices -/

/-- Whether an offset lies between two characters of a text, or at one of its ends. -/
def IsBoundary (t : Text) (offset : Nat) : Prop :=
  ∃ front rest, t = front ++ rest ∧ front.octets = offset

theorem IsBoundary.le {t : Text} {offset : Nat} (boundary : t.IsBoundary offset) :
    offset ≤ t.octets := by
  obtain ⟨front, rest, rfl, rfl⟩ := boundary
  rw [octets_append]
  exact Nat.le_add_right _ _

/-- The text behind an offset. -/
def sliceFrom (t : Text) (start : Nat) : Checked Text :=
  match splitAtOctet? start t with
  | some (_, rest) => .ok rest
  | none => .error .slice

/-- The text in front of an offset. -/
def sliceTo (t : Text) (stop : Nat) : Checked Text :=
  match splitAtOctet? stop t with
  | some (front, _) => .ok front
  | none => .error .slice

/-- The text between two offsets. -/
def slice (t : Text) (start stop : Nat) : Checked Text :=
  match t.sliceTo stop with
  | .ok front => front.sliceFrom start
  | .error trap => .error trap

theorem sliceFrom_append (front rest : Text) :
    (front ++ rest).sliceFrom front.octets = .ok rest := by
  rw [sliceFrom, splitAtOctet?_append]

theorem sliceTo_append (front rest : Text) : (front ++ rest).sliceTo front.octets = .ok front := by
  rw [sliceTo, splitAtOctet?_append]

theorem slice_append (front inside rest : Text) :
    (front ++ inside ++ rest).slice front.octets (front ++ inside).octets = .ok inside := by
  rw [slice, sliceTo_append]
  exact sliceFrom_append front inside

example : slice ['é'] 1 2 = .error .slice := rfl

/-- A slice exists only at boundaries. -/
theorem exists_of_splitAtOctet? {t front rest : Text} {offset : Nat}
    (split : splitAtOctet? offset t = some (front, rest)) :
    t = front ++ rest ∧ front.octets = offset := by
  induction t generalizing offset front with
  | nil =>
    rw [splitAtOctet?] at split
    split at split
    · cases split
      exact ⟨rfl, by simp_all⟩
    · cases split
  | cons c t ih =>
    rw [splitAtOctet?] at split
    split at split
    · cases split
      exact ⟨rfl, by simp_all⟩
    · split at split
      · cases split
      · obtain ⟨⟨before, after⟩, inner, same⟩ := Option.map_eq_some_iff.1 split
        obtain ⟨rfl, rfl⟩ := Prod.mk.inj same
        obtain ⟨rfl, size⟩ := ih inner
        refine ⟨rfl, ?_⟩
        rw [octets_cons, size]
        omega

/-! ## Octets -/

/-- The octets behind an offset. -/
def octetsFrom (t : Text) (start : Nat) : Checked (List UInt8) :=
  if start ≤ t.utf8.length then .ok (t.utf8.drop start) else .error .slice

/-- Behind a character of ASCII the offset is the next one. -/
theorem octets_concat {c : Char} (ascii : IsAscii c) (t : Text) :
    octets (t ++ [c]) = t.octets + 1 := by
  rw [octets_append, octets_cons, octets_nil, utf8Size_of_isAscii ascii]

/-- What stands in front of a rest is the whole without the rest. -/
theorem octets_append_sub (front rest : Text) :
    (front ++ rest).octets - rest.octets = front.octets := by
  rw [octets_append, Nat.add_sub_cancel]

theorem octets_le_of_isPrefix {s t : Text} (front : s <+: t) : s.octets ≤ t.octets := by
  obtain ⟨rest, rfl⟩ := front
  rw [octets_append]
  exact Nat.le_add_right _ _

theorem drop_utf8_append (front rest : Text) :
    (utf8 (front ++ rest)).drop front.octets = utf8 rest := by
  rw [utf8_append, ← length_utf8, List.drop_left]

theorem octetsFrom_append (front rest : Text) :
    (front ++ rest).octetsFrom front.octets = .ok (utf8 rest) := by
  rw [octetsFrom, if_pos, drop_utf8_append]
  rw [length_utf8, octets_append]
  exact Nat.le_add_right _ _

/-- An octet of ASCII is a character, wherever it stands. -/
theorem exists_of_getElem?_utf8 {t : Text} {c : Char} (ascii : IsAscii c) {i : Nat}
    (found : (utf8 t)[i]? = some c.toUInt8) :
    ∃ front rest, t = front ++ c :: rest ∧ front.octets = i := by
  induction t generalizing i with
  | nil => cases found
  | cons d t ih =>
    rw [utf8_cons] at found
    by_cases inside : i < (String.utf8EncodeChar d).length
    · rw [List.getElem?_append_left inside] at found
      by_cases narrow : IsAscii d
      · rw [utf8EncodeChar_of_isAscii narrow] at found inside
        obtain rfl : i = 0 := Nat.lt_one_iff.1 inside
        obtain rfl := (toUInt8_inj narrow ascii).1 (Option.some.inj found)
        exact ⟨[], t, rfl, rfl⟩
      · have high := le_of_mem_utf8EncodeChar narrow (List.mem_of_getElem? found)
        exact absurd rfl (ne_toUInt8_of_le high ascii)
    · rw [List.getElem?_append_right (Nat.le_of_not_lt inside)] at found
      obtain ⟨front, rest, rfl, size⟩ := ih found
      refine ⟨d :: front, rest, rfl, ?_⟩
      rw [octets_cons, size, ← String.length_utf8EncodeChar]
      omega

/-- The octet at a boundary is the first one behind it. -/
theorem getElem?_utf8_append {c : Char} (ascii : IsAscii c) (front rest : Text) :
    (utf8 (front ++ rest))[front.octets]? = some c.toUInt8 ↔ rest.head? = some c := by
  rw [utf8_append, ← length_utf8, List.getElem?_append_right (Nat.le_refl _), Nat.sub_self]
  cases rest with
  | nil => simp
  | cons d rest =>
    by_cases narrow : IsAscii d
    · rw [utf8_cons_of_isAscii narrow]
      simp only [List.getElem?_cons_zero, Option.some_inj, List.head?_cons]
      exact toUInt8_inj narrow ascii
    · obtain ⟨o, os, whole⟩ := List.exists_cons_of_ne_nil (String.utf8EncodeChar_ne_nil (c := d))
      have high := le_of_mem_utf8EncodeChar narrow (whole ▸ List.mem_cons_self)
      rw [utf8_cons, whole]
      simp only [List.cons_append, List.getElem?_cons_zero, Option.some_inj, List.head?_cons]
      refine iff_of_false (ne_toUInt8_of_le high ascii) ?_
      rintro rfl
      exact narrow ascii

/-- Inside of a character beyond ASCII there is no octet of ASCII. -/
theorem getElem?_utf8_of_wide {c d : Char} (wide : ¬ IsAscii c) (ascii : IsAscii d)
    (front rest : Text) {i : Nat} (inside : i < c.utf8Size) :
    (utf8 (front ++ c :: rest))[front.octets + i]? ≠ some d.toUInt8 := by
  rw [← String.length_utf8EncodeChar] at inside
  rw [utf8_append, utf8_cons, ← length_utf8, List.getElem?_append_right (Nat.le_add_right _ _),
    Nat.add_sub_cancel_left, List.getElem?_append_left inside]
  intro found
  have high := le_of_mem_utf8EncodeChar wide (List.mem_of_getElem? found)
  exact ne_toUInt8_of_le high ascii rfl

/-! ### Octets as characters -/

/-- The octets of a text, each read as the character of its number. Only an octet of ASCII is then
a character of ASCII. -/
def octetChars (t : Text) : Text :=
  (utf8 t).map fun o => Char.ofNat o.toNat

theorem octetChars_append (s t : Text) : octetChars (s ++ t) = octetChars s ++ octetChars t := by
  rw [octetChars, utf8_append, List.map_append]
  rfl

theorem length_octetChars (t : Text) : (octetChars t).length = t.octets := by
  rw [octetChars, List.length_map, length_utf8]

theorem octetChars_cons_of_isAscii {c : Char} (ascii : IsAscii c) (t : Text) :
    octetChars (c :: t) = c :: octetChars t := by
  rw [octetChars, utf8_cons_of_isAscii ascii, List.map_cons, toNat_toUInt8 ascii, Char.ofNat_toNat]
  rfl

theorem not_isAscii_ofNat {o : UInt8} (high : 0x80 ≤ o.toNat) : ¬ IsAscii (Char.ofNat o.toNat) := by
  have below := o.toNat_lt
  have valid : o.toNat.isValidChar := Or.inl (by omega)
  have number : (Char.ofNat o.toNat).toNat = o.toNat := by
    rw [Char.ofNat, dif_pos valid]
    rfl
  rw [IsAscii, number]
  exact Nat.not_lt.2 high

/-- A character beyond ASCII is read as several ones. -/
theorem exists_octetChars_of_wide {c : Char} (wide : ¬ IsAscii c) (t : Text) : ∃ d ds,
    octetChars (c :: t) = d :: ds ++ octetChars t ∧ (d :: ds).length = c.utf8Size ∧
      ∀ e ∈ d :: ds, ¬ IsAscii e := by
  obtain ⟨o, os, whole⟩ := List.exists_cons_of_ne_nil (String.utf8EncodeChar_ne_nil (c := c))
  refine ⟨Char.ofNat o.toNat, os.map fun o => Char.ofNat o.toNat, ?_, ?_, ?_⟩
  · rw [octetChars, utf8_cons, whole, List.map_append, List.map_cons]
    rfl
  · rw [← String.length_utf8EncodeChar, whole, List.length_cons, List.length_cons, List.length_map]
  · intro e mem
    have mem : e ∈ (o :: os).map fun o => Char.ofNat o.toNat := mem
    rw [← whole] at mem
    obtain ⟨o, inside, rfl⟩ := List.mem_map.1 mem
    exact not_isAscii_ofNat (le_of_mem_utf8EncodeChar wide inside)

theorem take_octetChars_append (front rest : Text) :
    (octetChars (front ++ rest)).take front.octets = octetChars front := by
  rw [octetChars_append, ← length_octetChars, List.take_left]

theorem head?_octetChars {d : Char} (ascii : IsAscii d) (t : Text) :
    (octetChars t).head? = some d ↔ t.head? = some d := by
  cases t with
  | nil => exact Iff.rfl
  | cons c t =>
    by_cases narrow : IsAscii c
    · rw [octetChars_cons_of_isAscii narrow]
      exact Iff.rfl
    · obtain ⟨e, es, whole, -, wide⟩ := exists_octetChars_of_wide narrow t
      rw [whole, List.cons_append, List.head?_cons, List.head?_cons, Option.some_inj,
        Option.some_inj]
      refine iff_of_false ?_ ?_
      · rintro rfl
        exact wide e List.mem_cons_self ascii
      · rintro rfl
        exact narrow ascii

/-! ### Runs -/

/-- A class of characters on octets: an octet of ASCII is in it as its character is, and no other
octet is. -/
def octetClass (p : Char → Bool) (o : UInt8) : Bool :=
  o.toNat < 0x80 && p (Char.ofNat o.toNat)

/-- The offset behind the octets of a class that stand at an offset. -/
def skipOctets (p : Char → Bool) (t : Text) (start : Nat) : Nat :=
  start + (((utf8 t).drop start).takeWhile (octetClass p)).length

theorem octetClass_toUInt8 {p : Char → Bool} {c : Char} (ascii : IsAscii c) :
    octetClass p c.toUInt8 = p c := by
  rw [octetClass, toNat_toUInt8 ascii, Char.ofNat_toNat,
    decide_eq_true (show c.toNat < 0x80 from ascii), Bool.true_and]

theorem octetClass_of_le {p : Char → Bool} {o : UInt8} (high : 0x80 ≤ o.toNat) :
    octetClass p o = false := by
  rw [octetClass, decide_eq_false (Nat.not_lt.2 high), Bool.false_and]

/-- For a class within ASCII a run of octets is a run of characters. -/
theorem skipOctets_append {p : Char → Bool} (narrow : ∀ c, p c = true → IsAscii c)
    (front rest : Text) :
    skipOctets p (front ++ rest) front.octets = (front ++ rest.takeWhile p).octets := by
  rw [skipOctets, drop_utf8_append, octets_append]
  congr 1
  induction rest with
  | nil => rfl
  | cons c rest ih =>
    by_cases ascii : IsAscii c
    · rw [utf8_cons_of_isAscii ascii, List.takeWhile_cons, List.takeWhile_cons,
        octetClass_toUInt8 ascii]
      cases p c with
      | false => rfl
      | true => rw [if_pos rfl, if_pos rfl, List.length_cons, octets_cons, ih,
        utf8Size_of_isAscii ascii, Nat.add_comm]
    · obtain ⟨o, os, whole⟩ := List.exists_cons_of_ne_nil (String.utf8EncodeChar_ne_nil (c := c))
      have high := le_of_mem_utf8EncodeChar ascii (whole ▸ List.mem_cons_self)
      have other : ¬ p c = true := fun inside => ascii (narrow c inside)
      rw [utf8_cons, whole, List.cons_append, List.takeWhile_cons_of_neg (by
        rw [octetClass_of_le high]; exact Bool.false_ne_true), List.takeWhile_cons_of_neg other]
      rfl

end Text

end HarnessSynthesis
