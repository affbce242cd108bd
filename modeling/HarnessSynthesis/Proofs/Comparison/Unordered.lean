/-
# Comparison without order

A result that passes where order does not count is a rearrangement of what was expected. Sorting a
value is itself a rearrangement of it, and a rearrangement can be undone, so two values that are
sorted to the same come from one another by permuting elements. Since texts tell values apart, an
accepted text leaves no other possibility. Unlike its converse this needs no freedom from ties: a
tie can make two rearrangements differ, never two other values agree.

What a rearrangement can do is stated by taking one apart. An array becomes an array of the same
elements in some order, each one rearranged in itself; an object keeps its names in their places,
each with its own value rearranged; and any other value stays what it is.
-/

import Mathlib.Data.List.Perm.Basic
import HarnessSynthesis.Proofs.Comparison.Rearrangement

namespace HarnessSynthesis.Json.Value

/-- Lists related element by element are related so after two steps. -/
theorem forall₂_trans {α : Type} {R : α → α → Prop}
    (trans : ∀ {a b c}, R a b → R b c → R a c) {first second third : List α}
    (h : List.Forall₂ R first second) (h' : List.Forall₂ R second third) :
    List.Forall₂ R first third := by
  induction h generalizing third with
  | nil => exact h'
  | cons head _ ih =>
    cases h' with
    | cons head' rest' => exact .cons (trans head head') (ih rest')

namespace Rearranged

/-! ## Rearranging is undone by rearranging -/

theorem symm {v w : Value} (h : Rearranged v w) : Rearranged w v := by
  induction h with
  | refl v => exact .refl v
  | trans _ _ ih ih' => exact .trans ih' ih
  | permuted p => exact .permuted p.symm
  | inside front back _ ih => exact .inside front back ih
  | member name front back _ ih => exact .member name front back ih

/-! ## Rearranging all elements or members -/

/-- Elements rearranged in place, behind some that stay. -/
theorem array_append {items items' : List Value} (each : List.Forall₂ Rearranged items items')
    (front : List Value) : Rearranged (.array (front ++ items)) (.array (front ++ items')) := by
  induction each generalizing front with
  | nil => exact .refl _
  | @cons v w rest rest' first _ ih =>
    have later := ih (front ++ [w])
    rw [List.append_assoc, List.append_assoc] at later
    exact .trans (.inside front rest first) later

/-- Two members of one name, of which the second has the value of the first rearranged. -/
def Members (m m' : Text × Value) : Prop :=
  m.1 = m'.1 ∧ Rearranged m.2 m'.2

/-- Members with their values rearranged, behind some that stay. -/
theorem object_append {members members' : List (Text × Value)}
    (each : List.Forall₂ Members members members') (front : List (Text × Value)) :
    Rearranged (.object (front ++ members)) (.object (front ++ members')) := by
  induction each generalizing front with
  | nil => exact .refl _
  | @cons m m' rest rest' first _ ih =>
    obtain ⟨name, v⟩ := m
    obtain ⟨name', w⟩ := m'
    obtain ⟨same, value⟩ : name = name' ∧ Rearranged v w := first
    subst same
    have later := ih (front ++ [(name, w)])
    rw [List.append_assoc, List.append_assoc] at later
    exact .trans (.member name front rest value) later

/-! ## Taking a rearrangement apart -/

theorem Members.trans {m m' m'' : Text × Value} (h : Members m m') (h' : Members m' m'') :
    Members m m'' :=
  ⟨h.1.trans h'.1, .trans h.2 h'.2⟩

theorem items_refl (items : List Value) : List.Forall₂ Rearranged items items :=
  List.forall₂_same.2 fun v _ => .refl v

theorem members_refl (members : List (Text × Value)) : List.Forall₂ Members members members :=
  List.forall₂_same.2 fun m _ => ⟨rfl, .refl m.2⟩

theorem exists_of_array {v w : Value} (h : Rearranged v w) {items : List Value}
    (isArray : v = .array items) :
    ∃ moved items', w = .array items' ∧ items.Perm moved ∧
      List.Forall₂ Rearranged moved items' := by
  induction h generalizing items with
  | refl v => exact ⟨items, items, isArray, List.Perm.refl items, items_refl items⟩
  | trans _ _ ih ih' =>
    obtain ⟨middle, items', rfl, p, each⟩ := ih isArray
    obtain ⟨middle', items'', rfl, p', each'⟩ := ih' rfl
    -- elements rearranged and then moved are as well moved first and rearranged then
    have swapped : Relation.Comp List.Perm (List.Forall₂ Rearranged) middle middle' := by
      rw [← List.forall₂_comp_perm_eq_perm_comp_forall₂]
      exact ⟨items', each, p'⟩
    obtain ⟨moved, p'', each''⟩ := swapped
    exact ⟨moved, items'', rfl, p.trans p'', forall₂_trans .trans each'' each'⟩
  | @permuted items items' p =>
    obtain rfl := array.inj isArray
    exact ⟨items', items', rfl, p, items_refl items'⟩
  | inside front back inner _ =>
    obtain rfl := array.inj isArray
    have each := List.rel_append (items_refl front) (List.Forall₂.cons inner (items_refl back))
    exact ⟨_, _, rfl, List.Perm.refl _, each⟩
  | member => cases isArray

theorem exists_of_object {v w : Value} (h : Rearranged v w) {members : List (Text × Value)}
    (isObject : v = .object members) :
    ∃ members', w = .object members' ∧ List.Forall₂ Members members members' := by
  induction h generalizing members with
  | refl v => exact ⟨members, isObject, members_refl members⟩
  | trans _ _ ih ih' =>
    obtain ⟨members', rfl, each⟩ := ih isObject
    obtain ⟨members'', rfl, each'⟩ := ih' rfl
    exact ⟨members'', rfl, forall₂_trans (R := Members) Members.trans each each'⟩
  | permuted => cases isObject
  | inside => cases isObject
  | @member v w name front back inner _ =>
    obtain rfl := object.inj isObject
    have here : Members (name, v) (name, w) := ⟨rfl, inner⟩
    exact ⟨_, rfl, List.rel_append (members_refl front) (.cons here (members_refl back))⟩

/-- The rearrangements of an array are the arrays with its elements in another order, each of them
rearranged: none is gained, lost or doubled. -/
theorem array_iff {items : List Value} {w : Value} :
    Rearranged (.array items) w ↔
      ∃ moved items', w = .array items' ∧ items.Perm moved ∧
        List.Forall₂ Rearranged moved items' := by
  constructor
  · intro h
    exact h.exists_of_array rfl
  · rintro ⟨moved, items', rfl, p, each⟩
    exact .trans (.permuted p) (array_append each [])

/-- The rearrangements of an object are the objects with its names in their places, each with its
own value rearranged. -/
theorem object_iff {members : List (Text × Value)} {w : Value} :
    Rearranged (.object members) w ↔
      ∃ members', w = .object members' ∧ List.Forall₂ Members members members' := by
  constructor
  · intro h
    exact h.exists_of_object rfl
  · rintro ⟨members', rfl, each⟩
    exact object_append each []

/-- What is neither an array nor an object has no other rearrangement. -/
theorem eq_of_ne {v w : Value} (h : Rearranged v w) (noArray : ∀ items, v ≠ .array items)
    (noObject : ∀ members, v ≠ .object members) : w = v := by
  induction h with
  | refl v => rfl
  | trans _ _ ih ih' =>
    obtain rfl := ih noArray noObject
    exact ih' noArray noObject
  | permuted => exact absurd rfl (noArray _)
  | inside => exact absurd rfl (noArray _)
  | member => exact absurd rfl (noObject _)

end Rearranged

/-! ## Sorting rearranges -/

mutual

/-- A value comes to be sorted by a rearrangement. -/
theorem rearranged_unordered : ∀ v : Value, Rearranged v v.unordered
  | .null => .refl _
  | .bool _ => .refl _
  | .number _ => .refl _
  | .string _ => .refl _
  | .array items => by
    rw [unordered, Rearranged.array_iff]
    have inner := Rearranged.array_append (rearranged_unorderedItems items) []
    exact Rearranged.array_iff.1 (.trans inner (.permuted (sortItems_perm _).symm))
  | .object members => by
    rw [unordered, Rearranged.object_iff]
    exact ⟨_, rfl, rearranged_unorderedMembers members⟩
  termination_by structural v => v

theorem rearranged_unorderedItems : ∀ items : List Value,
    List.Forall₂ Rearranged items (unorderedItems items)
  | [] => .nil
  | item :: rest => .cons (rearranged_unordered item) (rearranged_unorderedItems rest)
  termination_by structural items => items

theorem rearranged_unorderedMembers : ∀ members : List (Text × Value),
    List.Forall₂ Rearranged.Members members (unorderedMembers members)
  | [] => .nil
  | (_, v) :: rest => .cons ⟨rfl, rearranged_unordered v⟩ (rearranged_unorderedMembers rest)
  termination_by structural members => members

end

/-- Values that are sorted to the same are rearrangements of one another. -/
theorem rearranged_of_unordered_eq {v w : Value} (same : v.unordered = w.unordered) :
    Rearranged v w := by
  have back : Rearranged v.unordered w := by
    rw [same]
    exact (rearranged_unordered w).symm
  exact .trans (rearranged_unordered v) back

/-! ## Acceptance -/

/-- Where order does not count, a result whose text is accepted is a rearrangement of an element of
the expected array, where several are allowed, or otherwise of the expected value. -/
theorem rearranged_of_mem_acceptedTexts {e w : Value} (several : Bool)
    (he : e.isIntegral = true) (hw : w.isIntegral = true)
    (accepted : w.unordered.canonicalText ∈ acceptedTexts e true several) :
    (∃ items, several = true ∧ e = .array items ∧ ∃ v ∈ items, Rearranged w v) ∨
      ((several = false ∨ ∀ items, e ≠ .array items) ∧ Rearranged w e) := by
  obtain ⟨v, admitted, same⟩ := mem_acceptedTexts_iff.1 accepted
  have hv := isIntegral_of_mem_alternatives he admitted
  rw [if_pos rfl, canonical_of_isIntegral hv] at same
  have sorted : w.unordered = v.unordered :=
    (canonicalText_injective (isIntegral_unordered hv) (isIntegral_unordered hw) same).symm
  have rearranged := rearranged_of_unordered_eq sorted
  rcases mem_alternatives_iff.1 admitted with ⟨items, flag, rfl, found⟩ | ⟨single, rfl⟩
  · exact Or.inl ⟨items, flag, rfl, v, found, rearranged⟩
  · exact Or.inr ⟨single, rearranged⟩

/-- Two elements change places if the first compares greater. -/
theorem sortItems_pair (v w : Value) :
    sortItems [v, w] = if v.compare w = .gt then [w, v] else [v, w] := by
  simp [sortItems, List.mergeSort, List.MergeSort.Internal.splitInTwo, List.merge]

/-- Of two expected lists the result is the second one, with its elements and what stands under the
name in one of them in another order. -/
theorem rearranged_of_mem_acceptedTexts_second :
    ∃ v ∈ [array [.bool true],
        .array [.string ['b'], .object [(['k'], .array [.string ['p'], .string ['q']])]]],
      Rearranged
        (.array [.object [(['k'], .array [.string ['q'], .string ['p']])], .string ['b']]) v := by
  let expected : Value :=
    .array [.string ['b'], .object [(['k'], .array [.string ['p'], .string ['q']])]]
  let result : Value :=
    .array [.object [(['k'], .array [.string ['q'], .string ['p']])], .string ['b']]
  have ordered : expected.unordered = expected := by
    simp only [expected, unordered, unorderedItems, unorderedMembers, sortItems_pair]
    rfl
  have sorted : result.unordered = expected := by
    simp only [expected, result, unordered, unorderedItems, unorderedMembers, sortItems_pair]
    rfl
  have accepted :
      result.unordered.canonicalText ∈ acceptedTexts (.array [array [.bool true], expected])
        true true := by
    refine mem_acceptedTexts_iff.2 ⟨expected, .tail _ (.head _), ?_⟩
    rw [if_pos rfl, canonical_of_isIntegral (by decide), ordered, sorted]
  rcases rearranged_of_mem_acceptedTexts true (by decide) (by decide) accepted with
    ⟨items, -, same, found⟩ | ⟨single, -⟩
  · rw [array.inj same]
    exact found
  · rcases single with flag | other
    · exact absurd flag (by decide)
    · exact absurd rfl (other _)

end HarnessSynthesis.Json.Value
