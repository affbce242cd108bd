/-
# Rearranged elements

A value is rearranged by permuting the elements of arrays at any depth, and unordered comparison is
meant to overlook that. Sorting overlooks it as far as the order tells elements apart. It compares
numbers by their nearest doubles, so two integers beyond the reach of a double may tie, and elements
that tie keep the order in which they came. A value is free of ties when no array in it holds two
such integers, and this is exactly when no rearrangement of it is told apart from it.
-/

import HarnessSynthesis.Proofs.Comparison.Exact
import HarnessSynthesis.Proofs.Comparison.Order
import HarnessSynthesis.Proofs.Number.Exact

namespace HarnessSynthesis.Json.Value

/-! ## Rearrangement -/

/-- The second value comes from the first by permuting elements of arrays, at any depth and any
number of times. -/
inductive Rearranged : Value → Value → Prop where
  | refl (v : Value) : Rearranged v v
  | trans {u v w : Value} : Rearranged u v → Rearranged v w → Rearranged u w
  | permuted {items items' : List Value} :
      items.Perm items' → Rearranged (.array items) (.array items')
  | inside {v w : Value} (front back : List Value) :
      Rearranged v w → Rearranged (.array (front ++ v :: back)) (.array (front ++ w :: back))
  | member {v w : Value} (name : Text) (front back : List (Text × Value)) :
      Rearranged v w →
        Rearranged (.object (front ++ (name, v) :: back)) (.object (front ++ (name, w) :: back))

namespace Rearranged

/-- Rearranging leaves the numbers alone. -/
theorem isIntegral {v w : Value} (h : Rearranged v w) : v.isIntegral = w.isIntegral := by
  rw [Bool.eq_iff_iff]
  induction h with
  | refl v => exact Iff.rfl
  | trans _ _ ih ih' => exact ih.trans ih'
  | permuted p =>
    rw [isIntegral_array, isIntegral_array]
    exact forall_congr' fun v => imp_congr_left p.mem_iff
  | inside front back _ ih =>
    simp only [isIntegral_array, List.forall_mem_append, List.forall_mem_cons, ih]
  | member name front back _ ih =>
    simp only [isIntegral_object, List.forall_mem_append, List.forall_mem_cons, ih]

end Rearranged

/-! ## Ties -/

/-- Whether two values are different numbers with the same nearest double. -/
def tie : Value → Value → Bool
  | .number x, .number y => x ≠ y && x.toBinary64.compare y.toBinary64 == .eq
  | _, _ => false

mutual

/-- Whether no array at any depth holds a tie. -/
def isTieFree : Value → Bool
  | .null => true
  | .bool _ => true
  | .number _ => true
  | .string _ => true
  | .array items => (items.all fun v => items.all fun w => !tie v w) && itemsTieFree items
  | .object members => membersTieFree members
  termination_by structural v => v

def itemsTieFree : List Value → Bool
  | [] => true
  | item :: rest => isTieFree item && itemsTieFree rest
  termination_by structural items => items

def membersTieFree : List (Text × Value) → Bool
  | [] => true
  | (_, v) :: rest => isTieFree v && membersTieFree rest
  termination_by structural members => members

end

theorem itemsTieFree_iff {items : List Value} :
    itemsTieFree items = true ↔ ∀ v ∈ items, v.isTieFree = true := by
  induction items with
  | nil => simp [itemsTieFree]
  | cons item rest ih => rw [itemsTieFree, Bool.and_eq_true, ih, List.forall_mem_cons]

theorem isTieFree_object {members : List (Text × Value)} :
    (object members).isTieFree = true ↔ ∀ m ∈ members, m.2.isTieFree = true := by
  rw [isTieFree]
  induction members with
  | nil => simp [membersTieFree]
  | cons m rest ih => rw [membersTieFree, Bool.and_eq_true, ih, List.forall_mem_cons]

/-- Integers of at most 53 binary digits do not tie. -/
theorem tie_int_eq_false {i j : Int} (hi : i.natAbs < Nat.pow 2 53) (hj : j.natAbs < Nat.pow 2 53) :
    tie (.int i) (.int j) = false := by
  rw [Bool.eq_false_iff]
  intro tied
  rw [int, int, tie, Bool.and_eq_true, decide_eq_true_eq, beq_iff_eq] at tied
  exact tied.1 (by rw [Binary64.eq_of_compare_ofInt hi hj tied.2])

/-- Sorting what is inside two values neither makes nor breaks a tie. -/
theorem tie_unordered (v w : Value) : tie v.unordered w.unordered = tie v w := by
  cases v <;> cases w <;> rfl

/-- An array is free of ties when its sorted elements do not tie and each is free of ties. -/
theorem isTieFree_array {items : List Value} :
    (array items).isTieFree = true ↔
      (∀ v ∈ unorderedItems items, ∀ w ∈ unorderedItems items, tie v w = false) ∧
        ∀ v ∈ items, v.isTieFree = true := by
  rw [isTieFree, Bool.and_eq_true, itemsTieFree_iff, unorderedItems_eq_map]
  simp only [List.all_eq_true, Bool.not_eq_true', List.forall_mem_map, tie_unordered]

/-! ## Sorted values -/

mutual

theorem isIntegral_unordered : ∀ {v : Value}, v.isIntegral = true → v.unordered.isIntegral = true
  | .null, h => h
  | .bool _, h => h
  | .number _, h => h
  | .string _, h => h
  | .array items, h => by
    rw [unordered, isIntegral_array]
    intro v found
    exact isIntegral_unorderedItems (isIntegral_array.1 h) v
      ((sortItems_perm _).mem_iff.1 found)
  | .object members, h => by
    rw [unordered, isIntegral_object]
    exact isIntegral_unorderedMembers (isIntegral_object.1 h)

theorem isIntegral_unorderedItems : ∀ {items : List Value}, (∀ v ∈ items, v.isIntegral = true) →
    ∀ v ∈ unorderedItems items, v.isIntegral = true
  | [], _ => nofun
  | item :: rest, h => by
    rw [List.forall_mem_cons] at h
    rw [unorderedItems, List.forall_mem_cons]
    exact ⟨isIntegral_unordered h.1, isIntegral_unorderedItems h.2⟩

theorem isIntegral_unorderedMembers : ∀ {members : List (Text × Value)},
    (∀ m ∈ members, m.2.isIntegral = true) →
      ∀ m ∈ unorderedMembers members, m.2.isIntegral = true
  | [], _ => nofun
  | (name, v) :: rest, h => by
    rw [List.forall_mem_cons] at h
    rw [unorderedMembers, List.forall_mem_cons]
    exact ⟨isIntegral_unordered h.1, isIntegral_unorderedMembers h.2⟩

end

/-- Integral elements that do not tie are told apart by their keys. -/
theorem eq_of_keyOrder_eq {v w : Value} (hv : v.isIntegral = true) (hw : w.isIntegral = true)
    (told : tie v w = false) (tied : keyOrder v w = .eq) : v = w := by
  rcases (keyOrder_eq_iff hv hw).1 tied with same | ⟨x, y, rfl, rfl, size⟩
  · exact same
  · rw [tie, size, beq_self_eq_true, Bool.and_true, decide_eq_false_iff_not,
      Decidable.not_not] at told
    rw [told]

/-- Rearranging a value without ties gives a value without ties that is sorted to the same. -/
theorem Rearranged.unordered_eq {v w : Value} (h : Rearranged v w)
    (integral : v.isIntegral = true) (free : v.isTieFree = true) :
    w.isTieFree = true ∧ v.unordered = w.unordered := by
  induction h with
  | refl v => exact ⟨free, rfl⟩
  | trans first _ ih ih' =>
    obtain ⟨free', same⟩ := ih integral free
    rw [first.isIntegral] at integral
    rw [same]
    exact ih' integral free'
  | @permuted items items' p =>
    have sorted : (unorderedItems items).Perm (unorderedItems items') := by
      rw [unorderedItems_eq_map, unorderedItems_eq_map]
      exact p.map unordered
    have each := isIntegral_unorderedItems (isIntegral_array.1 integral)
    rw [isTieFree_array] at free ⊢
    refine ⟨⟨?_, fun v found => free.2 v (p.mem_iff.2 found)⟩, ?_⟩
    · intro v hv w hw
      exact free.1 v (sorted.mem_iff.2 hv) w (sorted.mem_iff.2 hw)
    · rw [unordered, unordered, sortItems_eq_of_perm sorted each]
      intro v hv w hw tied
      exact eq_of_keyOrder_eq (each v hv) (each w hw) (free.1 v hv w hw) tied
  | inside front back _ ih =>
    rw [isTieFree_array, List.forall_mem_append, List.forall_mem_cons] at free
    rw [isIntegral_array, List.forall_mem_append, List.forall_mem_cons] at integral
    obtain ⟨free', same⟩ := ih integral.2.1 free.2.2.1
    rw [isTieFree_array, List.forall_mem_append, List.forall_mem_cons, unordered, unordered]
    simp only [unorderedItems_eq_map, List.map_append, List.map_cons, same] at free ⊢
    exact ⟨⟨free.1, free.2.1, free', free.2.2.2⟩, trivial⟩
  | member name front back _ ih =>
    rw [isTieFree_object, List.forall_mem_append, List.forall_mem_cons] at free
    rw [isIntegral_object, List.forall_mem_append, List.forall_mem_cons] at integral
    obtain ⟨free', same⟩ := ih integral.2.1 free.2.1
    rw [isTieFree_object, List.forall_mem_append, List.forall_mem_cons, unordered, unordered]
    simp only [unorderedMembers_eq_map, List.map_append, List.map_cons, same]
    exact ⟨⟨free.1, free', free.2.2⟩, trivial⟩

/-! ## What a tie does -/

theorem tie_iff {v w : Value} :
    tie v w = true ↔ ∃ x y, v = .number x ∧ w = .number y ∧ x ≠ y ∧
      x.toBinary64.compare y.toBinary64 = .eq := by
  constructor
  · intro tied
    cases v with
    | number x =>
      cases w with
      | number y =>
        rw [tie, Bool.and_eq_true, decide_eq_true_eq, beq_iff_eq] at tied
        exact ⟨x, y, rfl, rfl, tied⟩
      | _ => cases tied
    | _ => cases tied
  · rintro ⟨x, y, rfl, rfl, other, same⟩
    rw [tie, Bool.and_eq_true, decide_eq_true_eq, beq_iff_eq]
    exact ⟨other, same⟩

/-- Of elements with equal keys the first one comes first, sorted or not. -/
theorem head?_filter_sortItems {v u : Value} {rest : List Value}
    (integral : ∀ w ∈ v :: rest, w.isIntegral = true) (tied : keyOrder v u = .eq) :
    ((sortItems (v :: rest)).filter fun w => keyOrder w u == .eq).head? = some v := by
  rw [filter_sortItems integral, List.filter_cons, tied, if_pos (beq_self_eq_true _),
    List.head?_cons]

/-- With the one or the other of two tying numbers in front, an array is sorted differently. -/
theorem unordered_ne_of_tie {v w : Value} {rest rest' : List Value}
    (integral : (array (v :: rest)).isIntegral = true)
    (integral' : (array (w :: rest')).isIntegral = true) (tied : tie v w = true) :
    (array (v :: rest)).unordered ≠ (array (w :: rest')).unordered := by
  obtain ⟨x, y, rfl, rfl, other, size⟩ := tie_iff.1 tied
  rw [isIntegral_array] at integral integral'
  have keys : keyOrder (.number y) (.number x) = .eq := by
    rw [keyOrder_eq_iff (integral' _ List.mem_cons_self) (integral _ List.mem_cons_self)]
    refine Or.inr ⟨y, x, rfl, rfl, ?_⟩
    rw [Binary64.compare, Int.compare_eq_eq] at size ⊢
    exact size.symm
  have first : ((sortItems (unorderedItems (number x :: rest))).filter
      fun u => keyOrder u (.number x) == .eq).head? = some (.number x) :=
    head?_filter_sortItems (isIntegral_unorderedItems integral) Std.ReflCmp.compare_self
  have second : ((sortItems (unorderedItems (number y :: rest'))).filter
      fun u => keyOrder u (.number x) == .eq).head? = some (.number y) :=
    head?_filter_sortItems (isIntegral_unorderedItems integral') keys
  intro same
  rw [unordered, unordered, array.injEq] at same
  rw [same, second, Option.some.injEq, number.injEq] at first
  exact other first.symm

theorem exists_perm_cons {v : Value} {items : List Value} (found : v ∈ items) :
    ∃ rest, items.Perm (v :: rest) := by
  obtain ⟨front, back, rfl⟩ := List.append_of_mem found
  exact ⟨front ++ back, List.perm_middle⟩

/-- An array with a tie has a rearrangement that is sorted to something else: the array itself
cannot be sorted like both of those with one of the tying numbers in front. -/
theorem exists_permuted_of_tie {items : List Value} (integral : (array items).isIntegral = true)
    {v w : Value} (hv : v ∈ items) (hw : w ∈ items) (tied : tie v w = true) :
    ∃ u, Rearranged (.array items) u ∧ (array items).unordered ≠ u.unordered := by
  obtain ⟨rest, first⟩ := exists_perm_cons hv
  obtain ⟨rest', second⟩ := exists_perm_cons hw
  have integral' := (Rearranged.permuted first).isIntegral.symm.trans integral
  have integral'' := (Rearranged.permuted second).isIntegral.symm.trans integral
  by_cases same : (array items).unordered = (array (v :: rest)).unordered
  · refine ⟨_, .permuted second, ?_⟩
    intro same'
    exact unordered_ne_of_tie integral' integral'' tied (same.symm.trans same')
  · exact ⟨_, .permuted first, same⟩

/-- Elements around which nothing changes are told apart by what their arrays are sorted to. -/
theorem unordered_eq_of_inside {v w : Value} {front back : List Value}
    (h : (array (front ++ v :: back)).unordered = (array (front ++ w :: back)).unordered) :
    v.unordered = w.unordered := by
  rw [unordered, unordered, array.injEq] at h
  have p : (unorderedItems (front ++ v :: back)).Perm (unorderedItems (front ++ w :: back)) :=
    (sortItems_perm _).symm.trans (h ▸ sortItems_perm _)
  simp only [unorderedItems_eq_map, List.map_append, List.map_cons, List.perm_append_left_iff] at p
  have single : [v.unordered].Perm [w.unordered] :=
    (List.perm_append_right_iff (back.map unordered)).1 p
  exact List.singleton_perm_singleton.1 single

mutual

/-- A value with a tie has a rearrangement that is sorted to something else. -/
theorem exists_rearranged_of_tie : ∀ {v : Value}, v.isIntegral = true → v.isTieFree = false →
    ∃ w, Rearranged v w ∧ v.unordered ≠ w.unordered
  | .null, _, tied => Bool.noConfusion tied
  | .bool _, _, tied => Bool.noConfusion tied
  | .number _, _, tied => Bool.noConfusion tied
  | .string _, _, tied => Bool.noConfusion tied
  | .array items, integral, tied => by
    rw [isTieFree, Bool.and_eq_false_iff] at tied
    rcases tied with here | deeper
    · obtain ⟨v, hv, here⟩ := List.all_eq_false.1 here
      obtain ⟨w, hw, here⟩ := List.all_eq_false.1 (Bool.eq_false_iff.2 here)
      have tied : tie v w = true := by
        rw [Bool.not_eq_true, Bool.not_eq_false'] at here
        exact here
      exact exists_permuted_of_tie integral hv hw tied
    · obtain ⟨front, v, w, back, rfl, rearranged, other⟩ :=
        exists_inside_of_tie (isIntegral_array.1 integral) deeper
      exact ⟨_, .inside front back rearranged, fun same => other (unordered_eq_of_inside same)⟩
  | .object members, integral, tied => by
    obtain ⟨front, name, v, w, back, rfl, rearranged, other⟩ :=
      exists_member_of_tie (isIntegral_object.1 integral) tied
    refine ⟨_, .member name front back rearranged, fun same => other ?_⟩
    rw [unordered, unordered, object.injEq] at same
    simp only [unorderedMembers_eq_map, List.map_append, List.map_cons, List.append_cancel_left_eq,
      List.cons.injEq, Prod.mk.injEq, true_and, and_true] at same
    exact same

theorem exists_inside_of_tie : ∀ {items : List Value}, (∀ v ∈ items, v.isIntegral = true) →
    itemsTieFree items = false →
      ∃ front v w back, items = front ++ v :: back ∧ Rearranged v w ∧ v.unordered ≠ w.unordered
  | [], _, tied => Bool.noConfusion tied
  | item :: rest, integral, tied => by
    rw [itemsTieFree, Bool.and_eq_false_iff] at tied
    rw [List.forall_mem_cons] at integral
    rcases tied with here | later
    · obtain ⟨w, rearranged, other⟩ := exists_rearranged_of_tie integral.1 here
      exact ⟨[], item, w, rest, rfl, rearranged, other⟩
    · obtain ⟨front, v, w, back, rfl, found⟩ := exists_inside_of_tie integral.2 later
      exact ⟨item :: front, v, w, back, rfl, found⟩

theorem exists_member_of_tie : ∀ {members : List (Text × Value)},
    (∀ m ∈ members, m.2.isIntegral = true) → membersTieFree members = false →
      ∃ front name v w back, members = front ++ (name, v) :: back ∧ Rearranged v w ∧
        v.unordered ≠ w.unordered
  | [], _, tied => Bool.noConfusion tied
  | (name, v) :: rest, integral, tied => by
    rw [membersTieFree, Bool.and_eq_false_iff] at tied
    rw [List.forall_mem_cons] at integral
    rcases tied with here | later
    · obtain ⟨w, rearranged, other⟩ := exists_rearranged_of_tie integral.1 here
      exact ⟨[], name, v, w, rest, rfl, rearranged, other⟩
    · obtain ⟨front, name', v', w, back, rfl, found⟩ := exists_member_of_tie integral.2 later
      exact ⟨(name, v) :: front, name', v', w, back, rfl, found⟩

end

/-! ## Acceptance -/

/-- An expectation whose order does not count accepts one text. -/
theorem acceptedTexts_unordered {e : Value} (integral : e.isIntegral = true) :
    acceptedTexts e true false = [e.unordered.canonicalText] := by
  have itself : alternatives false e = [e] := by cases e <;> rfl
  rw [acceptedTexts, itself, List.map_singleton, if_pos rfl, canonical_of_isIntegral integral]
  rfl

/-- Every rearrangement of a value has its text when sorted, is accepted where the value is expected
and accepts the same, exactly when the value is free of ties. -/
theorem rearranged_accepted_iff {a : Value} (integral : a.isIntegral = true) :
    (∀ b, Rearranged a b →
        a.unordered.canonicalText = b.unordered.canonicalText ∧
          acceptedTexts a true false = acceptedTexts b true false ∧
          b.unordered.canonicalText ∈ acceptedTexts a true false) ↔
      a.isTieFree = true := by
  constructor
  · intro accepted
    rw [← Bool.not_eq_false]
    intro tied
    obtain ⟨b, rearranged, other⟩ := exists_rearranged_of_tie integral tied
    have integral' := rearranged.isIntegral.symm.trans integral
    exact other (canonicalText_injective (isIntegral_unordered integral)
      (isIntegral_unordered integral') (accepted b rearranged).1)
  · intro free b rearranged
    have same := (rearranged.unordered_eq integral free).2
    have integral' := rearranged.isIntegral.symm.trans integral
    rw [acceptedTexts_unordered integral, acceptedTexts_unordered integral', same]
    exact ⟨rfl, rfl, List.mem_singleton_self _⟩

theorem rearranged_accepted_nested :
    acceptedTexts (.array [.array [.int 3, .int 1], .array [.int 2]]) true false =
      acceptedTexts (.array [.array [.int 2], .array [.int 1, .int 3]]) true false := by
  have inner : Rearranged (.array [.array [.int 3, .int 1], .array [.int 2]])
      (.array [.array [.int 1, .int 3], .array [.int 2]]) :=
    .inside [] [.array [.int 2]] (.permuted (List.Perm.swap _ _ []))
  have outer : Rearranged (.array [.array [.int 1, .int 3], .array [.int 2]])
      (.array [.array [.int 2], .array [.int 1, .int 3]]) :=
    .permuted (List.Perm.swap _ _ [])
  exact ((rearranged_accepted_iff (by decide)).2 (by decide +kernel) _ (inner.trans outer)).2.1

/-- The first integer that no double reaches ties with the one below it. The two keep their order,
so of the one order of both the text is not accepted where the other order is expected. -/
theorem rearranged_not_accepted :
    Rearranged (.array [.int 9007199254740993, .int 9007199254740992])
        (.array [.int 9007199254740992, .int 9007199254740993]) ∧
      (array [.int 9007199254740993, .int 9007199254740992]).isIntegral = true ∧
      (array [.int 9007199254740992, .int 9007199254740993]).unordered.canonicalText ∉
        acceptedTexts (.array [.int 9007199254740993, .int 9007199254740992]) true false := by
  have integral : (array [.int 9007199254740993, .int 9007199254740992]).isIntegral = true := by
    decide
  have integral' : (array [.int 9007199254740992, .int 9007199254740993]).isIntegral = true := by
    decide
  refine ⟨.permuted (List.Perm.swap _ _ []), integral, ?_⟩
  rw [acceptedTexts_unordered integral, List.mem_singleton]
  intro same
  exact unordered_ne_of_tie integral' integral (by decide +kernel)
    (canonicalText_injective (isIntegral_unordered integral') (isIntegral_unordered integral) same)

end HarnessSynthesis.Json.Value
