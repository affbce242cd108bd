/-
# Reading records

A record is read from the members of an object in whatever order they stand: each field is decoded
from the member of its name, a field without a member is what it is when absent, and a member of no
field is passed over. `Shape.Reads` says this of the record, field by field, without the slots that
the reader fills on its way.
-/

import HarnessSynthesis.Json.Decoder

namespace HarnessSynthesis.Json.Shape

/-- The names of the fields in order. -/
def names {σ ρ : Type} : Shape σ ρ → List Text
  | .done => []
  | .field name _ _ rest => name :: rest.names

/-- The members of an object as they are written. -/
def written (members : List (Text × Node)) : List (Option Text × Node) :=
  members.map fun m => (some m.1, m.2)

/-- What a field is read as: what its member decodes to, or what it is when it is absent. -/
def ReadsField {α : Type} (levels : Nat) (name : Text) (decode : Decoder α) (absence : Absence α)
    (members : List (Text × Node)) (a : α) : Prop :=
  (∃ node, (name, node) ∈ members ∧ decode levels node = .ok a) ∨
    name ∉ members.map Prod.fst ∧ absence.inObject? = some a

/-- The record that members of different names give. -/
def Reads (levels : Nat) : {σ ρ : Type} → Shape σ ρ → List (Text × Node) → ρ → Prop
  | _, _, .done, _, () => True
  | _, _, .field name decode absence rest, members, (a, r) =>
    ReadsField levels name decode absence members a ∧ rest.Reads levels members r

/-! ## One field -/

section Field

variable {α σ ρ : Type} {name : Text} {decode : Decoder α} {absence : Absence α} {rest : Shape σ ρ}
  {levels : Nat} {members : List (Text × Node)} {slots filled : σ}

theorem ofMembers_cons {s : Shape σ ρ} {m : Text × Node} :
    s.ofMembers levels (written (m :: members)) slots =
      (s.put levels m.1 m.2 slots).bind (s.ofMembers levels (written members)) := rfl

/-- A member fills the empty slot of the field of its name. -/
theorem put_field_own (node : Node) :
    (Shape.field name decode absence rest).put levels name node (none, slots) =
      (decode levels node).map fun a => (some a, slots) := by
  simp only [put, if_true]

theorem put_field_other {own : Text} (other : name ≠ own) (node : Node) (slot : Option α) :
    (Shape.field name decode absence rest).put levels own node (slot, slots) =
      (rest.put levels own node slots).map fun slots => (slot, slots) := by
  simp only [put, if_neg other]

/-- The members that are not of a name. -/
def others (name : Text) (members : List (Text × Node)) : List (Text × Node) :=
  members.filter fun m => m.1 ≠ name

theorem mem_others {m : Text × Node} : m ∈ others name members ↔ m ∈ members ∧ m.1 ≠ name := by
  rw [others, List.mem_filter, decide_eq_true_iff]

theorem others_eq_self (absent : name ∉ members.map Prod.fst) : others name members = members := by
  rw [others, List.filter_eq_self]
  intro m found
  exact decide_eq_true fun same => absent (same ▸ List.mem_map_of_mem found)

/-- Members of other names leave a field's slot alone. -/
theorem ofMembers_field_of_not_mem (absent : name ∉ members.map Prod.fst)
    (read : rest.ofMembers levels (written members) slots = .ok filled) (slot : Option α) :
    (Shape.field name decode absence rest).ofMembers levels (written members) (slot, slots) =
      .ok (slot, filled) := by
  induction members generalizing slots with
  | nil => exact congrArg (Except.map (slot, ·)) read
  | cons m members ih =>
    rw [List.map_cons, List.mem_cons, not_or] at absent
    rw [ofMembers_cons] at read
    rw [ofMembers_cons, put_field_other absent.1]
    cases step : rest.put levels m.1 m.2 slots with
    | error fault => rw [step] at read; cases read
    | ok next =>
      rw [step] at read
      exact ih absent.2 read

/-- The member of its name fills a field's slot, wherever it stands. -/
theorem ofMembers_field_of_mem (distinct : (members.map Prod.fst).Nodup) {node : Node}
    (found : (name, node) ∈ members) {a : α} (decoded : decode levels node = .ok a)
    (read : rest.ofMembers levels (written (others name members)) slots = .ok filled) :
    (Shape.field name decode absence rest).ofMembers levels (written members) (none, slots) =
      .ok (some a, filled) := by
  induction members generalizing slots with
  | nil => cases found
  | cons m members ih =>
    rw [List.map_cons, List.nodup_cons] at distinct
    rcases List.mem_cons.1 found with rfl | later
    · rw [others, List.filter_cons_of_neg (by simp), ← others, others_eq_self distinct.1] at read
      rw [ofMembers_cons, put_field_own, decoded]
      exact ofMembers_field_of_not_mem distinct.1 read (some a)
    · have other : m.1 ≠ name := fun same =>
        distinct.1 (same ▸ List.mem_map_of_mem (f := Prod.fst) later)
      rw [others, List.filter_cons_of_pos (by simpa using other), ← others, ofMembers_cons] at read
      rw [ofMembers_cons, put_field_other other.symm]
      cases step : rest.put levels m.1 m.2 slots with
      | error fault => rw [step] at read; cases read
      | ok next =>
        rw [step] at read
        exact ih distinct.2 later read

theorem ReadsField.without {own : Text} (other : name ≠ own) {a : α}
    (reads : ReadsField levels name decode absence members a) :
    ReadsField levels name decode absence (others own members) a := by
  rcases reads with ⟨node, found, decoded⟩ | ⟨absent, a⟩
  · exact Or.inl ⟨node, mem_others.2 ⟨found, other⟩, decoded⟩
  · exact Or.inr ⟨fun found => absent ((List.filter_sublist.map Prod.fst).subset found), a⟩

/-- Members of a name that no field has make no difference. -/
theorem Reads.without {s : Shape σ ρ} {own : Text} (unknown : own ∉ s.names) {r : ρ}
    (reads : s.Reads levels members r) : s.Reads levels (others own members) r := by
  induction s with
  | done => exact reads
  | field name decode absence rest ih =>
    obtain ⟨a, r⟩ := r
    rw [names, List.mem_cons, not_or] at unknown
    exact ⟨reads.1.without (Ne.symm unknown.1), ih unknown.2 reads.2⟩

end Field

/-! ## Whole records -/

/-- The slots that are filled from members of different names give the record. -/
theorem Reads.exists_slots {σ ρ : Type} {s : Shape σ ρ} {levels : Nat}
    {members : List (Text × Node)} {r : ρ} (reads : s.Reads levels members r)
    (fields : s.names.Nodup) (distinct : (members.map Prod.fst).Nodup)
    (known : ∀ m ∈ members, m.1 ∈ s.names ∨ m.2.isPassable = true) :
    ∃ slots, s.ofMembers levels (written members) s.empty = .ok slots ∧ s.finish slots = .ok r := by
  induction s generalizing members with
  | done =>
    refine ⟨(), ?_, rfl⟩
    induction members with
    | nil => rfl
    | cons m members ih =>
      obtain ⟨passable, others⟩ := List.forall_mem_cons.1 known
      rw [ofMembers_cons, put, if_pos (passable.resolve_left List.not_mem_nil)]
      exact ih trivial (List.nodup_cons.1 distinct).2 others
  | field name decode absence rest ih =>
    obtain ⟨a, r⟩ := r
    rw [names, List.nodup_cons] at fields
    have fewer : ∀ m ∈ others name members, m.1 ∈ rest.names ∨ m.2.isPassable = true := by
      intro m found
      obtain ⟨found, other⟩ := mem_others.1 found
      exact (known m found).imp_left fun named => (List.mem_cons.1 named).resolve_left other
    obtain ⟨slots, read, finished⟩ := ih (reads.2.without fields.1) fields.2
      (distinct.sublist (List.filter_sublist.map Prod.fst)) fewer
    rcases reads.1 with ⟨node, found, decoded⟩ | ⟨absent, default⟩
    · refine ⟨(some a, slots), ofMembers_field_of_mem distinct found decoded read, ?_⟩
      exact congrArg (Except.map (a, ·)) finished
    · rw [others_eq_self absent] at read
      refine ⟨(none, slots), ofMembers_field_of_not_mem absent read none, ?_⟩
      simp only [finish, default, finished]
      rfl

/-- An object decodes to the record that its members give, in whatever order they stand. -/
theorem Reads.decoder_object {σ ρ : Type} {s : Shape σ ρ} {levels : Nat}
    {members : List (Text × Node)} {r : ρ} (reads : s.Reads levels members r)
    (fields : s.names.Nodup) (distinct : (members.map Prod.fst).Nodup)
    (known : ∀ m ∈ members, m.1 ∈ s.names ∨ m.2.isPassable = true) :
    s.decoder (levels + 1) (.object (written members)) = .ok r := by
  obtain ⟨slots, read, finished⟩ := reads.exists_slots fields distinct known
  have whole : s.decoder (levels + 1) (.object (written members)) =
      (s.ofMembers levels (written members) s.empty).bind s.finish := rfl
  rw [whole, read]
  exact finished

end HarnessSynthesis.Json.Shape
