/-
# Sorted values

The comparison of elements goes by size between numbers and by text otherwise, and which of the two
counts depends on both operands. On values whose numbers are integers it is a total preorder all the
same, because it agrees with an order by keys. A stable sort under such an order can rely on it: it
leaves a sorted list alone. Sorting the arrays of a value from the inside outwards therefore leaves
every array sorted at every depth, and a value that has been sorted is sorted to itself.
-/

import HarnessSynthesis.Proofs.Comparison.Unordered

namespace HarnessSynthesis.Json.Value

/-! ## The preorder -/

section Preorder

variable {a b c : Value}

theorem compare_swap (ha : a.isIntegral = true) (hb : b.isIntegral = true) :
    b.compare a = (a.compare b).swap := by
  rw [compare_eq_keyOrder ha hb, compare_eq_keyOrder hb ha, keyOrder_swap]

theorem isLE_compare_trans (ha : a.isIntegral = true) (hb : b.isIntegral = true)
    (hc : c.isIntegral = true) (first : (a.compare b).isLE = true)
    (second : (b.compare c).isLE = true) : (a.compare c).isLE = true := by
  rw [compare_eq_keyOrder ha hb] at first
  rw [compare_eq_keyOrder hb hc] at second
  rw [compare_eq_keyOrder ha hc]
  exact Std.TransCmp.isLE_trans first second

end Preorder

/-! ## Sorted arrays -/

/-- Elements of which none compares greater than a later one. -/
def Ascending (items : List Value) : Prop :=
  items.Pairwise fun a b => (a.compare b).isLE = true

theorem ascending_sortItems {items : List Value} (integral : ∀ v ∈ items, v.isIntegral = true) :
    Ascending (sortItems items) := by
  apply List.Pairwise.imp_of_mem ?_ (pairwise_sortItems integral)
  intro a b ha hb below
  have member (v : Value) (found : v ∈ sortItems items) : v.isIntegral = true :=
    integral v ((sortItems_perm items).mem_iff.1 found)
  rw [compare_eq_keyOrder (member a ha) (member b hb)]
  exact below

/-- A stable sort has nothing to do where the elements are in order. -/
theorem sortItems_of_ascending {items : List Value} (ascending : Ascending items) :
    sortItems items = items := by
  apply List.mergeSort_of_pairwise
  apply ascending.imp
  intro a b below
  rw [bne, ← Ordering.isLE_eq_not_beq_gt]
  exact below

mutual

/-- Whether the elements of every array, at any depth, are in the order in which they compare. -/
def IsSorted : Value → Prop
  | .null => True
  | .bool _ => True
  | .number _ => True
  | .string _ => True
  | .array items => Ascending items ∧ AllSorted items
  | .object members => MembersSorted members
  termination_by structural v => v

def AllSorted : List Value → Prop
  | [] => True
  | item :: rest => IsSorted item ∧ AllSorted rest
  termination_by structural items => items

def MembersSorted : List (Text × Value) → Prop
  | [] => True
  | (_, v) :: rest => IsSorted v ∧ MembersSorted rest
  termination_by structural members => members

end

theorem allSorted_iff {items : List Value} : AllSorted items ↔ ∀ v ∈ items, v.IsSorted := by
  induction items with
  | nil => simp [AllSorted]
  | cons item rest ih => rw [AllSorted, ih, List.forall_mem_cons]

theorem isSorted_array {items : List Value} :
    (array items).IsSorted ↔ Ascending items ∧ ∀ v ∈ items, v.IsSorted := by
  rw [IsSorted, allSorted_iff]

theorem isSorted_object {members : List (Text × Value)} :
    (object members).IsSorted ↔ ∀ m ∈ members, m.2.IsSorted := by
  rw [IsSorted]
  induction members with
  | nil => simp [MembersSorted]
  | cons m rest ih => rw [MembersSorted, ih, List.forall_mem_cons]

/-! ## Sorting sorts -/

mutual

theorem isSorted_unordered : ∀ {v : Value}, v.isIntegral = true → v.unordered.IsSorted
  | .null, _ => trivial
  | .bool _, _ => trivial
  | .number _, _ => trivial
  | .string _, _ => trivial
  | .array items, integral => by
    rw [isIntegral_array] at integral
    rw [unordered, isSorted_array]
    constructor
    · apply ascending_sortItems
      exact isIntegral_unorderedItems integral
    · intro v found
      apply allSorted_iff.1 (allSorted_unorderedItems integral)
      exact (sortItems_perm _).mem_iff.1 found
  | .object members, integral => by
    rw [isIntegral_object] at integral
    exact membersSorted_unorderedMembers integral

theorem allSorted_unorderedItems : ∀ {items : List Value}, (∀ v ∈ items, v.isIntegral = true) →
    AllSorted (unorderedItems items)
  | [], _ => trivial
  | item :: rest, integral => by
    rw [List.forall_mem_cons] at integral
    exact ⟨isSorted_unordered integral.1, allSorted_unorderedItems integral.2⟩

theorem membersSorted_unorderedMembers : ∀ {members : List (Text × Value)},
    (∀ m ∈ members, m.2.isIntegral = true) → MembersSorted (unorderedMembers members)
  | [], _ => trivial
  | (_, v) :: rest, integral => by
    rw [List.forall_mem_cons] at integral
    exact ⟨isSorted_unordered integral.1, membersSorted_unorderedMembers integral.2⟩

end

mutual

/-- A sorted value has nothing left to sort, whatever its numbers are. -/
theorem unordered_of_isSorted : ∀ {v : Value}, v.IsSorted → v.unordered = v
  | .null, _ => rfl
  | .bool _, _ => rfl
  | .number _, _ => rfl
  | .string _, _ => rfl
  | .array items, sorted => by
    rw [IsSorted] at sorted
    rw [unordered, unorderedItems_of_allSorted sorted.2, sortItems_of_ascending sorted.1]
  | .object members, sorted => by
    rw [IsSorted] at sorted
    rw [unordered, unorderedMembers_of_membersSorted sorted]

theorem unorderedItems_of_allSorted : ∀ {items : List Value}, AllSorted items →
    unorderedItems items = items
  | [], _ => rfl
  | item :: rest, sorted => by
    rw [AllSorted] at sorted
    rw [unorderedItems, unordered_of_isSorted sorted.1, unorderedItems_of_allSorted sorted.2]

theorem unorderedMembers_of_membersSorted : ∀ {members : List (Text × Value)},
    MembersSorted members → unorderedMembers members = members
  | [], _ => rfl
  | (name, v) :: rest, sorted => by
    rw [MembersSorted] at sorted
    rw [unorderedMembers, unordered_of_isSorted sorted.1,
      unorderedMembers_of_membersSorted sorted.2]

end

/-- Between values whose numbers are integers the comparison is a total preorder, so a value comes
out of sorting with every array in that order, and sorting it again changes nothing. -/
theorem preorder_compare_and_isSorted_unordered {a b c v : Value} (ha : a.isIntegral = true)
    (hb : b.isIntegral = true) (hc : c.isIntegral = true) (hv : v.isIntegral = true) :
    b.compare a = (a.compare b).swap ∧
      ((a.compare b).isLE = true → (b.compare c).isLE = true → (a.compare c).isLE = true) ∧
      v.unordered.IsSorted ∧ v.unordered.unordered = v.unordered := by
  have sorted := isSorted_unordered hv
  exact ⟨compare_swap ha hb, isLE_compare_trans ha hb hc, sorted, unordered_of_isSorted sorted⟩

/-- A string stands in front of a number that its digits exceed, and the number in front of an
array; in an array of all three, what is inside is sorted too. -/
theorem preorder_compare_and_isSorted_unordered_mixed :
    ((Value.string ['9']).compare (.array [])).isLE = true ∧
      (array [.array [.int 10, .int 9], .string ['9'], .int 2]).unordered.IsSorted := by
  have law := preorder_compare_and_isSorted_unordered (a := .string ['9']) (b := .int 2)
    (c := .array []) (v := .array [.array [.int 10, .int 9], .string ['9'], .int 2])
    rfl rfl rfl rfl
  have first : ((Value.string ['9']).compare (.int 2)).isLE = true := by
    rw [compare_eq_keyOrder rfl rfl]
    rfl
  have second : ((Value.int 2).compare (.array [])).isLE = true := by
    rw [compare_eq_keyOrder rfl rfl]
    rfl
  exact ⟨law.2.1 first second, law.2.2.1⟩

end HarnessSynthesis.Json.Value
