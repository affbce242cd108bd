/-
# Printed verdicts

What a harness prints for its verdicts: one object each, the status first, in one list between the
two marks. The values that a verdict carries are those that survive printing, which the record
states of its own fields. A framed list is described by the text of its verdicts alone, so
everything here holds whatever the strings in them say.
-/

import HarnessSynthesis.Proofs.Recovery.Embedded

namespace HarnessSynthesis

open Json Recovery

/-- A value that is read back from its text inside a verdict: its numbers are integers, its members
are in order, and it leaves one level of nesting to the verdict. -/
structure Json.Value.IsPrintable (v : Value) : Prop where
  integral : v.isIntegral = true
  ordered : v.isOrdered = true
  shallow : v.depth + 1 ≤ maxLevels

/-- A verdict as a harness prints it, timed in whole units. -/
structure PrintedVerdict where
  status : Status
  expected : Value
  actual : Value
  time : Int
  logs : Option Text
  error : Option Text
  expected_isPrintable : expected.IsPrintable
  actual_isPrintable : actual.IsPrintable
  time_isWord : (Number.integer time).isWord = true

namespace PrintedVerdict

variable (v : PrintedVerdict)

/-- The members of a verdict in the order in which they are printed. -/
def members : List (Text × Value) :=
  [(("status" : Text), Value.string v.status.name), (("expected" : Text), v.expected),
    (("actual" : Text), v.actual), (("time" : Text), Value.int v.time)] ++
      (v.logs.map fun s => (("logs" : Text), Value.string s)).toList ++
        (v.error.map fun s => (("error" : Text), Value.string s)).toList

/-- The document of a verdict. -/
def node : Node := .object (Node.ofMembers v.members)

/-- What is printed for a verdict. -/
def text : Text := v.node.write

/-- The JSON value that a verdict stands for. -/
def value : Value := .ofMembers v.members

/-- A statement about every member of a verdict is one about its values, its time and its texts. -/
theorem forall_mem_members {P : Value → Prop} (strings : ∀ s, P (.string s))
    (expected : P v.expected) (actual : P v.actual) (time : P (.int v.time)) :
    ∀ m ∈ v.members, P m.2 := by
  intro m found
  simp only [members, List.mem_append, List.mem_cons, List.not_mem_nil, or_false,
    Option.mem_toList, Option.map_eq_some_iff] at found
  rcases found with ((rfl | rfl | rfl | rfl) | ⟨s, -, rfl⟩) | ⟨s, -, rfl⟩
  · exact strings _
  · exact expected
  · exact actual
  · exact time
  · exact strings s
  · exact strings s

theorem membersIntegral_node : Node.membersIntegral (Node.ofMembers v.members) = true :=
  Value.membersIntegral_ofMembers.2 <|
    v.forall_mem_members (P := fun w => w.isIntegral = true) (fun _ => rfl)
      v.expected_isPrintable.integral v.actual_isPrintable.integral v.time_isWord

theorem itemsIntegral_nodes (vs : List PrintedVerdict) :
    Node.itemsIntegral (vs.map node) = true := by
  induction vs with
  | nil => rfl
  | cons v vs ih => exact Node.itemsIntegral_cons.2 ⟨v.membersIntegral_node, ih⟩

theorem startsLikeVerdict_node : Node.startsLikeVerdict (Node.ofMembers v.members) = true := rfl

/-- A verdict stands for its value, and its levels suffice. -/
theorem toValue?_node : v.node.toValue? maxLevels = some v.value := by
  have ordered : Value.membersOrdered v.members = true :=
    Value.membersOrdered_iff.2 <|
      v.forall_mem_members (P := fun w => w.isOrdered = true) (fun _ => rfl)
        v.expected_isPrintable.ordered v.actual_isPrintable.ordered rfl
  have shallow : Value.membersDepth v.members ≤ maxLevels - 1 :=
    Value.membersDepth_le_iff.2 <|
      v.forall_mem_members (P := fun w => w.depth ≤ maxLevels - 1) (fun _ => Nat.zero_le _)
        (Nat.le_sub_one_of_lt v.expected_isPrintable.shallow)
        (Nat.le_sub_one_of_lt v.actual_isPrintable.shallow) (Nat.zero_le _)
  rw [node, Node.toValue?, if_neg (by decide), Value.toMembers?_ofMembers ordered shallow,
    Option.map_some, value]

theorem toItems?_nodes (vs : List PrintedVerdict) :
    Node.toItems? maxLevels (vs.map node) = some (vs.map value) := by
  induction vs with
  | nil => rfl
  | cons v vs ih => rw [List.map_cons, Node.toItems?, v.toValue?_node, ih]; rfl

/-! ## Framed lists -/

/-- The output of a harness: its verdicts as a list between the marks, which stand on lines of
their own. -/
def framed (vs : List PrintedVerdict) : Text :=
  startMark ++ ['\n', '['] ++ Text.join [','] (vs.map text) ++ [']', '\n'] ++ endMark

/-- The text of the list alone. -/
def listText (vs : List PrintedVerdict) : Text :=
  (Node.array (vs.map node)).write

theorem join_text_eq_writeItems (vs : List PrintedVerdict) :
    Text.join [','] (vs.map text) = Node.writeItems (vs.map node) := by
  induction vs with
  | nil => rfl
  | cons v vs ih =>
    cases vs with
    | nil =>
      rw [List.map_cons, List.map_nil, Text.join, List.map_cons, List.map_nil,
        Node.writeItems_cons, Node.writeFurtherItems_nil, List.append_nil, text]
    | cons w vs =>
      have further : Text.join [','] ((v :: w :: vs).map text) =
          v.text ++ [','] ++ Text.join [','] ((w :: vs).map text) := rfl
      rw [further, ih, List.map_cons (l := w :: vs), Node.writeItems_cons, List.map_cons,
        Node.writeFurtherItems_cons, text, List.append_assoc, List.singleton_append]

theorem listText_eq (vs : List PrintedVerdict) :
    listText vs = '[' :: (Node.writeItems (vs.map node) ++ [']']) := by
  rw [listText, Node.write, List.cons_append]

theorem framed_eq (vs : List PrintedVerdict) :
    framed vs = startMark ++ '\n' :: (listText vs ++ '\n' :: endMark) := by
  rw [framed, join_text_eq_writeItems, listText_eq]
  simp only [List.append_assoc, List.cons_append, List.nil_append]

/-- A framed list is its verdicts between two texts in which no object starts. -/
theorem framed_eq_writeItems (vs : List PrintedVerdict) :
    framed vs =
      startMark ++ ['\n', '['] ++ (Node.writeItems (vs.map node) ++ (']' :: '\n' :: endMark)) := by
  rw [framed_eq, listText_eq]
  simp only [List.append_assoc, List.cons_append, List.nil_append]

/-- The scan takes printed verdicts one after the other. -/
theorem scan_writeItems (vs : List PrintedVerdict) (t : Text) :
    scan (Node.writeItems (vs.map node) ++ t) = vs.map value ++ scan t := by
  induction vs with
  | nil => rfl
  | cons v vs ih =>
    have taken := fun behind => scan_write_object v.membersIntegral_node v.startsLikeVerdict_node
      behind
    have further : scan (Node.writeFurtherItems (vs.map node) ++ t) =
        scan (Node.writeItems (vs.map node) ++ t) := by
      cases vs with
      | nil => rfl
      | cons w vs =>
        rw [List.map_cons, Node.writeFurtherItems_cons, List.cons_append,
          scan_cons_of_ne (by decide)]
    rw [List.map_cons, Node.writeItems_cons, List.append_assoc, node, taken, ← node,
      v.toValue?_node, Option.toList_some, further, ih]
    rfl

end PrintedVerdict

end HarnessSynthesis
