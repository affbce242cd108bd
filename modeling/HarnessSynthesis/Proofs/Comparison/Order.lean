/-
# The order of elements

Elements whose order does not count are sorted by `Value.compare`, which takes two numbers by their
nearest doubles and anything else by text. The two ways fit together because the texts of numbers
stand apart: behind those of strings and in front of those of every other kind of value. On values
whose numbers are integers the comparison therefore goes by three keys, one after the other: the
kind of the value, the size of a number, and the text of anything else. That is a total order up to
ties, and only numbers with the same nearest double tie.
-/

import HarnessSynthesis.Json.Canonical
import HarnessSynthesis.Proofs.Json.RoundTrip

namespace HarnessSynthesis

namespace Text

theorem lt_iff_not_lt_and_ne (a b : Text) : a < b ↔ ¬ b < a ∧ a ≠ b := by
  constructor
  · intro below
    refine ⟨List.lt_asymm below, ?_⟩
    rintro rfl
    exact List.lt_irrefl a below
  · rintro ⟨above, other⟩
    by_cases below : a < b
    · exact below
    · exact absurd (List.le_antisymm (List.not_lt.1 above) (List.not_lt.1 below)) other

instance : Std.TransCmp compare :=
  Std.TransOrd.compareOfLessAndEq_of_lt_trans_of_lt_iff List.lt_trans lt_iff_not_lt_and_ne

theorem compare_eq_lt {a b : Text} : compare a b = .lt ↔ a < b := by
  rw [compare]
  split
  · exact iff_of_true rfl ‹_›
  · split
    · exact iff_of_false nofun ‹_›
    · exact iff_of_false nofun ‹_›

theorem compare_eq_eq {a b : Text} : compare a b = .eq ↔ a = b := by
  rw [compare]
  split
  · rename_i below
    exact iff_of_false nofun ((lt_iff_not_lt_and_ne a b).1 below).2
  · split
    · exact iff_of_true rfl ‹_›
    · exact iff_of_false nofun ‹_›

end Text

namespace Json.Value

/-! ## The three keys -/

/-- The kind of a value, in the order in which the texts of the kinds stand. -/
def rank : Value → Nat
  | .string _ => 0
  | .number _ => 1
  | _ => 2

/-- The size of a number. -/
def units : Value → Int
  | .number n => n.toBinary64.units
  | _ => 0

/-- The text of what is no number. -/
def label : Value → Text
  | .number _ => []
  | v => v.canonicalText

/-- The order by kind, then by size, then by text. -/
def keyOrder : Value → Value → Ordering :=
  compareLex (compareOn rank) (compareLex (compareOn units) fun a b => Text.compare a.label b.label)

instance : Std.TransCmp fun a b : Value => Text.compare a.label b.label where
  eq_swap := Std.OrientedCmp.eq_swap
  isLE_trans := Std.TransCmp.isLE_trans

instance : Std.TransCmp keyOrder :=
  inferInstanceAs (Std.TransCmp (compareLex _ (compareLex _ _)))

theorem keyOrder_def (a b : Value) :
    keyOrder a b = (Ord.compare a.rank b.rank).then
      ((Ord.compare a.units b.units).then (Text.compare a.label b.label)) := rfl

/-! ## Texts of different kinds -/

/-- The first character of a text tells the kind of the value. -/
theorem canonicalText_eq_cons {v : Value} (integral : v.isIntegral = true) :
    ∃ c t, v.canonicalText = c :: t ∧ (v.rank = 0 ∧ c.toNat = 34 ∨
      v.rank = 1 ∧ 34 < c.toNat ∧ c.toNat ≤ 57 ∨ v.rank = 2 ∧ 57 < c.toNat) := by
  rw [canonicalText_of_isIntegral integral]
  cases v with
  | null => exact ⟨'n', _, rfl, by decide⟩
  | bool b => cases b <;> exact ⟨_, _, rfl, by decide⟩
  | string s => exact ⟨'"', _, rfl, Or.inl ⟨rfl, rfl⟩⟩
  | array items => exact ⟨'[', _, rfl, Or.inr (Or.inr ⟨rfl, by decide⟩)⟩
  | object members => exact ⟨'{', _, rfl, Or.inr (Or.inr ⟨rfl, by decide⟩)⟩
  | number n =>
    obtain ⟨i, rfl, -⟩ := Number.exists_of_isWord integral
    obtain ⟨c, t, written, digit⟩ := Node.ofInt_eq_cons i
    refine ⟨c, t, written, Or.inr (Or.inl ⟨rfl, ?_⟩)⟩
    rcases digit with rfl | digit
    · decide
    · rw [Text.isAsciiDigit, Bool.and_eq_true, decide_eq_true_eq, decide_eq_true_eq] at digit
      have low : 48 ≤ c.toNat := digit.1
      have high : c.toNat ≤ 57 := digit.2
      omega

theorem canonicalText_lt_of_rank_lt {a b : Value} (ha : a.isIntegral = true)
    (hb : b.isIntegral = true) (below : a.rank < b.rank) : a.canonicalText < b.canonicalText := by
  obtain ⟨c, s, first, kind⟩ := canonicalText_eq_cons ha
  obtain ⟨d, t, second, kind'⟩ := canonicalText_eq_cons hb
  have front : c.toNat < d.toNat := by omega
  rw [first, second]
  exact List.cons_lt_cons_iff.2 (Or.inl front)

/-! ## Comparing by keys -/

theorem compare_of_rank_ne {a b : Value} (other : a.rank ≠ b.rank) :
    a.compare b = Text.compare a.canonicalText b.canonicalText := by
  cases a <;> cases b <;> first | rfl | exact absurd rfl other

theorem compare_of_rank_eq {a b : Value} (same : a.rank = b.rank) :
    a.compare b = (Ord.compare a.units b.units).then (Text.compare a.label b.label) := by
  cases a with
  | number x =>
    cases b with
    | number y =>
      have labels : Text.compare (number x).label (number y).label = .eq := rfl
      rw [labels, Ordering.then_eq]
      rfl
    | _ => cases same
  | string s =>
    cases b with
    | string s' => rfl
    | _ => cases same
  | _ =>
    cases b with
    | number y => cases same
    | string s' => cases same
    | _ => rfl

/-- On integral values the comparison is by the three keys. -/
theorem compare_eq_keyOrder {a b : Value} (ha : a.isIntegral = true) (hb : b.isIntegral = true) :
    a.compare b = keyOrder a b := by
  rw [keyOrder_def]
  rcases Nat.lt_trichotomy a.rank b.rank with below | same | above
  · rw [compare_of_rank_ne (Nat.ne_of_lt below), Nat.compare_eq_lt.2 below, Ordering.lt_then,
      Text.compare_eq_lt.2 (canonicalText_lt_of_rank_lt ha hb below)]
  · rw [compare_of_rank_eq same, Nat.compare_eq_eq.2 same, Ordering.eq_then]
  · have texts := Text.compare_eq_lt.2 (canonicalText_lt_of_rank_lt hb ha above)
    rw [compare_of_rank_ne (Nat.ne_of_gt above), Nat.compare_eq_gt.2 above, Ordering.gt_then,
      Std.OrientedCmp.gt_of_lt texts]

/-- Only numbers of one size tie. -/
theorem keyOrder_eq_iff {a b : Value} (ha : a.isIntegral = true) (hb : b.isIntegral = true) :
    keyOrder a b = .eq ↔
      a = b ∨ ∃ x y, a = .number x ∧ b = .number y ∧ x.toBinary64.compare y.toBinary64 = .eq := by
  constructor
  · intro tied
    rw [← compare_eq_keyOrder ha hb] at tied
    by_cases numbers : ∃ x y, a = .number x ∧ b = .number y
    · obtain ⟨x, y, rfl, rfl⟩ := numbers
      exact Or.inr ⟨x, y, rfl, rfl, tied⟩
    · have texts : a.compare b = Text.compare a.canonicalText b.canonicalText := by
        cases a <;> cases b <;> first | rfl | exact absurd ⟨_, _, rfl, rfl⟩ numbers
      rw [texts, Text.compare_eq_eq, canonicalText_of_isIntegral ha,
        canonicalText_of_isIntegral hb] at tied
      exact Or.inl (eq_of_write_eq ha hb tied)
  · rintro (rfl | ⟨x, y, rfl, rfl, tied⟩)
    · exact Std.ReflCmp.compare_self
    · rw [← compare_eq_keyOrder ha hb]
      exact tied

/-! ## Sorting -/

theorem sortItems_perm (items : List Value) : (sortItems items).Perm items :=
  List.mergeSort_perm items _

theorem sortItems_eq_mergeSort {items : List Value} (integral : ∀ v ∈ items, v.isIntegral = true) :
    sortItems items = items.mergeSort fun a b => (keyOrder a b).isLE := by
  have same := List.map_mergeSort (r := fun a b : Value => a.compare b != .gt)
    (s := fun a b => (keyOrder a b).isLE) (f := id) (l := items) fun a ha b hb => by
      rw [compare_eq_keyOrder (integral a ha) (integral b hb), id, id]
      cases keyOrder a b <;> rfl
  rw [List.map_id, List.map_id] at same
  exact same

theorem keyOrder_swap (a b : Value) : (keyOrder a b).swap = keyOrder b a :=
  Std.OrientedCmp.eq_swap.symm

theorem keyOrder_isLE_total (a b : Value) :
    ((keyOrder a b).isLE || (keyOrder b a).isLE) = true := by
  rw [← keyOrder_swap a b]
  cases keyOrder a b <;> rfl

theorem pairwise_sortItems {items : List Value} (integral : ∀ v ∈ items, v.isIntegral = true) :
    (sortItems items).Pairwise fun a b => (keyOrder a b).isLE = true := by
  rw [sortItems_eq_mergeSort integral]
  exact List.pairwise_mergeSort (fun _ _ _ => Std.TransCmp.isLE_trans) keyOrder_isLE_total items

/-- Where equal keys mean equal elements, the order of the elements does not matter. -/
theorem sortItems_eq_of_perm {items items' : List Value} (p : items.Perm items')
    (integral : ∀ v ∈ items, v.isIntegral = true)
    (told : ∀ v ∈ items, ∀ w ∈ items, keyOrder v w = .eq → v = w) :
    sortItems items = sortItems items' := by
  have integral' : ∀ v ∈ items', v.isIntegral = true := fun v found =>
    integral v (p.mem_iff.2 found)
  have sorted : (sortItems items).Perm (sortItems items') :=
    (sortItems_perm items).trans (p.trans (sortItems_perm items').symm)
  refine List.Perm.eq_of_pairwise ?_ (pairwise_sortItems integral) (pairwise_sortItems integral')
    sorted
  intro v w found found' below above
  rw [← keyOrder_swap, Ordering.isLE_swap] at above
  refine told v ((sortItems_perm items).mem_iff.1 found) w
    (p.mem_iff.2 ((sortItems_perm items').mem_iff.1 found')) ?_
  exact Ordering.eq_eq_of_isLE_of_isGE below above

/-- Elements of equal keys keep their order. -/
theorem filter_sortItems {items : List Value} (integral : ∀ v ∈ items, v.isIntegral = true)
    (v : Value) :
    (sortItems items).filter (fun w => keyOrder w v == .eq) =
      items.filter fun w => keyOrder w v == .eq := by
  have tied : (items.filter fun w => keyOrder w v == .eq).Pairwise
      fun a b => (keyOrder a b).isLE = true := by
    refine List.pairwise_of_forall_mem_list fun a ha b hb => ?_
    have here := eq_of_beq (List.mem_filter.1 ha).2
    have there := eq_of_beq (List.mem_filter.1 hb).2
    rw [Std.TransCmp.congr_left here, ← keyOrder_swap, there]
    rfl
  have kept : (items.filter fun w => keyOrder w v == .eq).Sublist (sortItems items) := by
    rw [sortItems_eq_mergeSort integral]
    exact List.sublist_mergeSort (fun _ _ _ => Std.TransCmp.isLE_trans) keyOrder_isLE_total tied
      List.filter_sublist
  have again := kept.filter fun w => keyOrder w v == .eq
  rw [List.filter_filter] at again
  simp only [Bool.and_self] at again
  exact (again.eq_of_length ((sortItems_perm items).filter _).length_eq.symm).symm

end Json.Value

end HarnessSynthesis
