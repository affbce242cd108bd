/-
# Integral values

Results are exchanged as texts, and a text is read back as the value it was written for when all
its numbers are integers that fit a word of 64 bits. This module names the values of that kind, the
order that members of an object stand in, and how deep a value is nested, and shows what becomes of
such a value when it is written out as a document and taken back.
-/

import HarnessSynthesis.Json.Canonical
import HarnessSynthesis.Proofs.Json.NumberText

namespace HarnessSynthesis.Json

/-! ## Documents without faults and fractions -/

namespace Node

mutual

/-- Whether a document holds no fault and no number but integers that fit a word. -/
def isIntegral : Node → Bool
  | .null => true
  | .bool _ => true
  | .number n => n.any Number.isWord
  | .string s => s.isSome
  | .array items => itemsIntegral items
  | .object members => membersIntegral members
  | .broken => false
  termination_by structural n => n

def itemsIntegral : List Node → Bool
  | [] => true
  | item :: rest => isIntegral item && itemsIntegral rest
  termination_by structural items => items

def membersIntegral : List (Option Text × Node) → Bool
  | [] => true
  | (name, node) :: rest => name.isSome && isIntegral node && membersIntegral rest
  termination_by structural members => members

end

theorem itemsIntegral_cons {item : Node} {rest : List Node} :
    itemsIntegral (item :: rest) = true ↔ item.isIntegral = true ∧ itemsIntegral rest = true := by
  rw [itemsIntegral, Bool.and_eq_true]

theorem membersIntegral_cons {name : Option Text} {node : Node}
    {rest : List (Option Text × Node)} :
    membersIntegral ((name, node) :: rest) = true ↔
      (∃ s, name = some s) ∧ node.isIntegral = true ∧ membersIntegral rest = true := by
  rw [membersIntegral, Bool.and_eq_true, Bool.and_eq_true, Option.isSome_iff_exists, and_assoc]

end Node

namespace Value

/-- Whether every number of a value is an integer that fits a word. -/
def isIntegral (v : Value) : Bool :=
  (Node.ofValue v).isIntegral

theorem isIntegral_array {items : List Value} :
    (Value.array items).isIntegral = true ↔ ∀ v ∈ items, v.isIntegral = true := by
  rw [isIntegral, Node.ofValue, Node.isIntegral]
  induction items with
  | nil => simp [Node.ofItems, Node.itemsIntegral]
  | cons item rest ih =>
    rw [Node.ofItems, Node.itemsIntegral_cons, ih, List.forall_mem_cons, isIntegral]

theorem membersIntegral_ofMembers {members : List (Text × Value)} :
    Node.membersIntegral (Node.ofMembers members) = true ↔
      ∀ m ∈ members, m.2.isIntegral = true := by
  induction members with
  | nil => simp [Node.ofMembers, Node.membersIntegral]
  | cons m rest ih =>
    rw [Node.ofMembers, Node.membersIntegral_cons, ih, List.forall_mem_cons, isIntegral]
    exact and_iff_right ⟨m.1, rfl⟩

theorem isIntegral_object {members : List (Text × Value)} :
    (Value.object members).isIntegral = true ↔ ∀ m ∈ members, m.2.isIntegral = true := by
  rw [isIntegral, Node.ofValue, Node.isIntegral, membersIntegral_ofMembers]

/-! ## The canonical form of integral values -/

mutual

/-- An integral value is its own canonical form. -/
theorem canonical_of_isIntegral : ∀ {v : Value}, v.isIntegral = true → v.canonical = v
  | .null, _ => rfl
  | .bool _, _ => rfl
  | .string _, _ => rfl
  | .number n, h => by
    obtain ⟨i, rfl, -⟩ := Number.exists_of_isWord h
    rfl
  | .array items, h => by rw [canonical, canonicalItems_of_isIntegral (isIntegral_array.1 h)]
  | .object members, h => by
    rw [canonical, canonicalMembers_of_isIntegral (isIntegral_object.1 h)]

theorem canonicalItems_of_isIntegral : ∀ {items : List Value},
    (∀ v ∈ items, v.isIntegral = true) → canonicalItems items = items
  | [], _ => rfl
  | item :: rest, h => by
    rw [canonicalItems, canonical_of_isIntegral (h item List.mem_cons_self),
      canonicalItems_of_isIntegral fun v found => h v (List.mem_cons_of_mem item found)]

theorem canonicalMembers_of_isIntegral : ∀ {members : List (Text × Value)},
    (∀ m ∈ members, m.2.isIntegral = true) → canonicalMembers members = members
  | [], _ => rfl
  | (name, v) :: rest, h => by
    rw [canonicalMembers, canonical_of_isIntegral (h (name, v) List.mem_cons_self),
      canonicalMembers_of_isIntegral fun m found => h m (List.mem_cons_of_mem (name, v) found)]

end

theorem canonicalText_of_isIntegral {v : Value} (h : v.isIntegral = true) :
    v.canonicalText = v.write := by
  rw [canonicalText, canonical_of_isIntegral h]

/-! ## Order of members and nesting -/

mutual

/-- Whether the members of every object stand in ascending order of their names, each name once.
Reading a text gives values of this kind only. -/
def isOrdered : Value → Bool
  | .null => true
  | .bool _ => true
  | .number _ => true
  | .string _ => true
  | .array items => itemsOrdered items
  | .object members => decide ((members.map (·.1)).Pairwise (· < ·)) && membersOrdered members
  termination_by structural v => v

def itemsOrdered : List Value → Bool
  | [] => true
  | item :: rest => isOrdered item && itemsOrdered rest
  termination_by structural items => items

def membersOrdered : List (Text × Value) → Bool
  | [] => true
  | (_, v) :: rest => isOrdered v && membersOrdered rest
  termination_by structural members => members

end

mutual

/-- How many arrays and objects enclose one another in a value. -/
def depth : Value → Nat
  | .null => 0
  | .bool _ => 0
  | .number _ => 0
  | .string _ => 0
  | .array items => itemsDepth items + 1
  | .object members => membersDepth members + 1
  termination_by structural v => v

def itemsDepth : List Value → Nat
  | [] => 0
  | item :: rest => max (depth item) (itemsDepth rest)
  termination_by structural items => items

def membersDepth : List (Text × Value) → Nat
  | [] => 0
  | (_, v) :: rest => max (depth v) (membersDepth rest)
  termination_by structural members => members

end

theorem membersOrdered_iff {members : List (Text × Value)} :
    membersOrdered members = true ↔ ∀ m ∈ members, m.2.isOrdered = true := by
  induction members with
  | nil => simp [membersOrdered]
  | cons m rest ih => rw [membersOrdered, Bool.and_eq_true, ih, List.forall_mem_cons]

theorem membersDepth_le_iff {members : List (Text × Value)} {levels : Nat} :
    membersDepth members ≤ levels ↔ ∀ m ∈ members, m.2.depth ≤ levels := by
  induction members with
  | nil => simp [membersDepth]
  | cons m rest ih => rw [membersDepth, Nat.max_le, ih, List.forall_mem_cons]

theorem insertMember_of_forall_lt {name : Text} {v : Value} {members : List (Text × Value)}
    (last : ∀ m ∈ members, m.1 < name) :
    insertMember name v members = members ++ [(name, v)] := by
  induction members with
  | nil => rfl
  | cons m rest ih =>
    have first : m.1 < name := last m List.mem_cons_self
    have behind : ¬ name < m.1 := fun before => List.lt_irrefl name (List.lt_trans before first)
    rw [insertMember, if_neg behind, if_pos first,
      ih fun m' found => last m' (List.mem_cons_of_mem m found), List.cons_append]

/-- Members in order are an object as they stand. -/
theorem ofMembers_of_pairwise {members : List (Text × Value)}
    (ordered : (members.map (·.1)).Pairwise (· < ·)) : ofMembers members = .object members := by
  have gathered : ∀ sorted : List (Text × Value), ((sorted ++ members).map (·.1)).Pairwise (· < ·) →
      members.foldl (fun sorted m => insertMember m.1 m.2 sorted) sorted =
        sorted ++ members := by
    clear ordered
    induction members with
    | nil => intro sorted _; rw [List.foldl_nil, List.append_nil]
    | cons m rest ih =>
      intro sorted ordered
      obtain ⟨name, v⟩ := m
      have last : ∀ m ∈ sorted, m.1 < name := by
        intro m found
        rw [List.map_append, List.pairwise_append] at ordered
        exact ordered.2.2 m.1 (List.mem_map_of_mem found) name List.mem_cons_self
      have shifted : sorted ++ (name, v) :: rest = sorted ++ [(name, v)] ++ rest := by
        rw [List.append_assoc, List.singleton_append]
      rw [shifted] at ordered ⊢
      rw [List.foldl_cons]
      simp only [insertMember_of_forall_lt last]
      exact ih (sorted ++ [(name, v)]) ordered
  exact congrArg Value.object (gathered [] ordered)

/-! ## Values of documents -/

mutual

/-- An ordered value is the value of the document it is written out as, when the levels allow for
its depth. -/
theorem toValue?_ofValue : ∀ {v : Value} {levels : Nat}, v.isOrdered = true → v.depth ≤ levels →
    (Node.ofValue v).toValue? levels = some v
  | .null, _, _, _ => rfl
  | .bool _, _, _, _ => rfl
  | .number _, _, _, _ => rfl
  | .string _, _, _, _ => rfl
  | .array items, levels, ordered, shallow => by
    rw [depth] at shallow
    rw [isOrdered] at ordered
    rw [Node.ofValue, Node.toValue?, if_neg (by omega),
      toItems?_ofItems ordered (by omega), Option.map_some]
  | .object members, levels, ordered, shallow => by
    rw [depth] at shallow
    rw [isOrdered, Bool.and_eq_true, decide_eq_true_eq] at ordered
    rw [Node.ofValue, Node.toValue?, if_neg (by omega),
      toMembers?_ofMembers ordered.2 (by omega), Option.map_some, ofMembers_of_pairwise ordered.1]

theorem toItems?_ofItems : ∀ {items : List Value} {levels : Nat}, itemsOrdered items = true →
    itemsDepth items ≤ levels → Node.toItems? levels (Node.ofItems items) = some items
  | [], _, _, _ => rfl
  | item :: rest, levels, ordered, shallow => by
    rw [itemsDepth] at shallow
    rw [itemsOrdered, Bool.and_eq_true] at ordered
    rw [Node.ofItems, Node.toItems?, toValue?_ofValue ordered.1 (by omega),
      toItems?_ofItems ordered.2 (by omega)]
    rfl

theorem toMembers?_ofMembers : ∀ {members : List (Text × Value)} {levels : Nat},
    membersOrdered members = true → membersDepth members ≤ levels →
      Node.toMembers? levels (Node.ofMembers members) = some members
  | [], _, _, _ => rfl
  | (name, v) :: rest, levels, ordered, shallow => by
    rw [membersDepth] at shallow
    rw [membersOrdered, Bool.and_eq_true] at ordered
    rw [Node.ofMembers, Node.toMembers?, toValue?_ofValue ordered.1 (by omega),
      toMembers?_ofMembers ordered.2 (by omega)]
    rfl

end

mutual

/-- More levels leave the value of a document alone. -/
theorem toValue?_mono : ∀ {n : Node} {levels levels' : Nat} {v : Value},
    n.toValue? levels = some v → levels ≤ levels' → n.toValue? levels' = some v
  | .null, _, _, _, h, _ => h
  | .bool _, _, _, _, h, _ => h
  | .number _, _, _, _, h, _ => h
  | .string _, _, _, _, h, _ => h
  | .array items, levels, levels', v, h, more => by
    rw [Node.toValue?, Option.ite_none_left_eq_some, Option.map_eq_some_iff] at h
    obtain ⟨positive, vs, values, rfl⟩ := h
    rw [Node.toValue?, if_neg (by omega),
      toItems?_mono values (Nat.sub_le_sub_right more 1), Option.map_some]
  | .object members, levels, levels', v, h, more => by
    rw [Node.toValue?, Option.ite_none_left_eq_some, Option.map_eq_some_iff] at h
    obtain ⟨positive, vs, values, rfl⟩ := h
    rw [Node.toValue?, if_neg (by omega),
      toMembers?_mono values (Nat.sub_le_sub_right more 1), Option.map_some]
  | .broken, _, _, _, h, _ => h

theorem toItems?_mono : ∀ {items : List Node} {levels levels' : Nat} {vs : List Value},
    Node.toItems? levels items = some vs → levels ≤ levels' →
      Node.toItems? levels' items = some vs
  | [], _, _, _, h, _ => h
  | item :: rest, levels, levels', vs, h, more => by
    simp only [Node.toItems?, Option.pure_def, Option.bind_eq_bind,
      Option.bind_eq_some_iff] at h ⊢
    obtain ⟨v, value, vs, values, same⟩ := h
    exact ⟨v, toValue?_mono value more, vs, toItems?_mono values more, same⟩

theorem toMembers?_mono : ∀ {members : List (Option Text × Node)} {levels levels' : Nat}
    {vs : List (Text × Value)}, Node.toMembers? levels members = some vs → levels ≤ levels' →
      Node.toMembers? levels' members = some vs
  | [], _, _, _, h, _ => h
  | (name, node) :: rest, levels, levels', vs, h, more => by
    simp only [Node.toMembers?, Option.pure_def, Option.bind_eq_bind,
      Option.bind_eq_some_iff] at h ⊢
    obtain ⟨s, named, v, value, vs, values, same⟩ := h
    exact ⟨s, named, v, toValue?_mono value more, vs, toMembers?_mono values more, same⟩

end

/-! ## A value is determined by its document
-/

mutual

theorem ofValue_injective : ∀ {v w : Value}, Node.ofValue v = Node.ofValue w → v = w
  | .null, w, h => by cases w <;> cases h; rfl
  | .bool _, w, h => by cases w <;> cases h; rfl
  | .number _, w, h => by cases w <;> cases h; rfl
  | .string _, w, h => by cases w <;> cases h; rfl
  | .array items, w, h => by
    cases w <;> simp only [Node.ofValue, reduceCtorEq, Node.array.injEq] at h
    rw [ofItems_injective h]
  | .object members, w, h => by
    cases w <;> simp only [Node.ofValue, reduceCtorEq, Node.object.injEq] at h
    rw [ofMembers_injective h]

theorem ofItems_injective : ∀ {items items' : List Value},
    Node.ofItems items = Node.ofItems items' → items = items'
  | [], items', h => by cases items' <;> simp_all [Node.ofItems]
  | item :: rest, items', h => by
    cases items' <;> simp only [Node.ofItems, reduceCtorEq, List.cons.injEq] at h
    rw [ofValue_injective h.1, ofItems_injective h.2]

theorem ofMembers_injective : ∀ {members members' : List (Text × Value)},
    Node.ofMembers members = Node.ofMembers members' → members = members'
  | [], members', h => by cases members' <;> simp_all [Node.ofMembers]
  | (name, v) :: rest, members', h => by
    cases members' <;>
      simp only [Node.ofMembers, reduceCtorEq, List.cons.injEq, Prod.mk.injEq,
        Option.some.injEq] at h
    rw [h.1.1, ofValue_injective h.1.2, ofMembers_injective h.2]

end

end Value

/-! ## Documents that have a value -/

namespace Node

mutual

/-- How many arrays and objects enclose one another in a document. -/
def depth : Node → Nat
  | .null => 0
  | .bool _ => 0
  | .number _ => 0
  | .string _ => 0
  | .array items => itemsDepth items + 1
  | .object members => membersDepth members + 1
  | .broken => 0
  termination_by structural n => n

def itemsDepth : List Node → Nat
  | [] => 0
  | item :: rest => max (depth item) (itemsDepth rest)
  termination_by structural items => items

def membersDepth : List (Option Text × Node) → Nat
  | [] => 0
  | (_, node) :: rest => max (depth node) (membersDepth rest)
  termination_by structural members => members

end

mutual

/-- An integral document has a value when the levels allow for its depth, in whatever order its
members stand and however often they are repeated. -/
theorem isSome_toValue? : ∀ {n : Node} {levels : Nat}, n.isIntegral = true → n.depth ≤ levels →
    (n.toValue? levels).isSome = true
  | .null, _, _, _ => rfl
  | .bool _, _, _, _ => rfl
  | .number (some _), _, _, _ => rfl
  | .number none, _, integral, _ => absurd integral Bool.false_ne_true
  | .string (some _), _, _, _ => rfl
  | .string none, _, integral, _ => absurd integral Bool.false_ne_true
  | .array items, levels, integral, shallow => by
    rw [depth] at shallow
    rw [toValue?, if_neg (by omega), Option.isSome_map]
    exact isSome_toItems? integral (by omega)
  | .object members, levels, integral, shallow => by
    rw [depth] at shallow
    rw [toValue?, if_neg (by omega), Option.isSome_map]
    exact isSome_toMembers? integral (by omega)
  | .broken, _, integral, _ => absurd integral Bool.false_ne_true

theorem isSome_toItems? : ∀ {items : List Node} {levels : Nat}, itemsIntegral items = true →
    itemsDepth items ≤ levels → (toItems? levels items).isSome = true
  | [], _, _, _ => rfl
  | item :: rest, levels, integral, shallow => by
    obtain ⟨plain, others⟩ := itemsIntegral_cons.1 integral
    rw [itemsDepth, Nat.max_le] at shallow
    obtain ⟨v, value⟩ := Option.isSome_iff_exists.1 (isSome_toValue? plain shallow.1)
    obtain ⟨vs, values⟩ := Option.isSome_iff_exists.1 (isSome_toItems? others shallow.2)
    rw [toItems?, value, values]
    rfl

theorem isSome_toMembers? : ∀ {members : List (Option Text × Node)} {levels : Nat},
    membersIntegral members = true → membersDepth members ≤ levels →
      (toMembers? levels members).isSome = true
  | [], _, _, _ => rfl
  | (name, node) :: rest, levels, integral, shallow => by
    obtain ⟨⟨s, rfl⟩, plain, others⟩ := membersIntegral_cons.1 integral
    rw [membersDepth, Nat.max_le] at shallow
    obtain ⟨v, value⟩ := Option.isSome_iff_exists.1 (isSome_toValue? plain shallow.1)
    obtain ⟨vs, values⟩ := Option.isSome_iff_exists.1 (isSome_toMembers? others shallow.2)
    rw [toMembers?, value, values]
    rfl

end

end Node

end HarnessSynthesis.Json
