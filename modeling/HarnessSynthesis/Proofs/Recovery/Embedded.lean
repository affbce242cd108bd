/-
# Scanning documents

What the scan finds in the text of a document, also when the text is cut. An object that starts like
a verdict is taken when its text is complete, and what lies inside it is passed over with it. Where
such an object is cut, the scan goes on inside it: complete objects among its data that start like a
verdict are then taken as well. `Node.embedded` says which they are, given how many characters of
the document's text are left.

Only objects are found. A signature inside a string would need a quote that no backslash precedes,
and that quote ends the string.
-/

import HarnessSynthesis.Proofs.Recovery.Braces
import HarnessSynthesis.Proofs.Text.Search

namespace HarnessSynthesis

open Json Recovery

namespace Json.Node

/-- Whether an object with these members starts like a verdict. -/
def startsLikeVerdict : List (Option Text × Node) → Bool
  | (some name, _) :: _ => name == "status".toList
  | _ => false

mutual

/-- The values of the objects in a document that start like a verdict and lie within the first
`room` characters of its text, without those inside another one. -/
def embedded : (room : Nat) → Node → List Value
  | _, .null => []
  | _, .bool _ => []
  | _, .number _ => []
  | _, .string _ => []
  | room, .array items => embeddedItems (room - 1) items
  | room, .object members =>
    if startsLikeVerdict members && (Node.object members).write.length ≤ room then
      ((Node.object members).toValue? maxLevels).toList
    else embeddedMembers (room - 1) members
  | _, .broken => []
  termination_by structural _ n => n

def embeddedItems : (room : Nat) → List Node → List Value
  | _, [] => []
  | room, item :: rest =>
    embedded room item ++ embeddedItems (room - (item.write.length + 1)) rest
  termination_by structural _ items => items

def embeddedMembers : (room : Nat) → List (Option Text × Node) → List Value
  | _, [] => []
  | room, (name, node) :: rest =>
    let behindName := room - ((quote (name.getD [])).length + 1)
    embedded behindName node ++ embeddedMembers (behindName - (node.write.length + 1)) rest
  termination_by structural _ members => members

end

mutual

/-- Whether an object that starts like a verdict is anywhere in a document. -/
def holdsVerdictStart : Node → Bool
  | .null => false
  | .bool _ => false
  | .number _ => false
  | .string _ => false
  | .array items => itemsHoldVerdictStart items
  | .object members => startsLikeVerdict members || membersHoldVerdictStart members
  | .broken => false
  termination_by structural n => n

def itemsHoldVerdictStart : List Node → Bool
  | [] => false
  | item :: rest => holdsVerdictStart item || itemsHoldVerdictStart rest
  termination_by structural items => items

def membersHoldVerdictStart : List (Option Text × Node) → Bool
  | [] => false
  | (_, node) :: rest => holdsVerdictStart node || membersHoldVerdictStart rest
  termination_by structural members => members

end

mutual

theorem embedded_eq_nil : ∀ (n : Node) (room : Nat), n.holdsVerdictStart = false →
    n.embedded room = []
  | .null, _, _ => rfl
  | .bool _, _, _ => rfl
  | .number _, _, _ => rfl
  | .string _, _, _ => rfl
  | .array items, room, h => embeddedItems_eq_nil items (room - 1) h
  | .object members, room, h => by
    rw [holdsVerdictStart, Bool.or_eq_false_iff] at h
    rw [embedded, h.1, Bool.false_and, if_neg Bool.false_ne_true,
      embeddedMembers_eq_nil members _ h.2]
  | .broken, _, _ => rfl

theorem embeddedItems_eq_nil : ∀ (items : List Node) (room : Nat),
    itemsHoldVerdictStart items = false → embeddedItems room items = []
  | [], _, _ => rfl
  | item :: rest, room, h => by
    rw [itemsHoldVerdictStart, Bool.or_eq_false_iff] at h
    rw [embeddedItems, embedded_eq_nil item _ h.1, embeddedItems_eq_nil rest _ h.2,
      List.append_nil]

theorem embeddedMembers_eq_nil : ∀ (members : List (Option Text × Node)) (room : Nat),
    membersHoldVerdictStart members = false → embeddedMembers room members = []
  | [], _, _ => rfl
  | (name, node) :: rest, room, h => by
    rw [membersHoldVerdictStart, Bool.or_eq_false_iff] at h
    rw [embeddedMembers, embedded_eq_nil node _ h.1, embeddedMembers_eq_nil rest _ h.2,
      List.append_nil]

end

end Json.Node

namespace Recovery

/-! ## Steps of the scan -/

theorem signature_eq : signature = '{' :: (Node.quote "status".toList ++ [':']) := by decide

theorem scan_nil : scan [] = [] := by rw [scan]

theorem scan_cons_of_not_isPrefix {c : Char} {t : Text} (h : ¬ signature <+: c :: t) :
    scan (c :: t) = scan t := by
  rw [scan, Text.startsWith_eq_false h, if_neg Bool.false_ne_true]

theorem scan_cons_of_ne {c : Char} (h : c ≠ '{') (t : Text) : scan (c :: t) = scan t := by
  refine scan_cons_of_not_isPrefix ?_
  rw [signature_eq, List.cons_prefix_cons]
  exact fun front => h front.1.symm

/-- The scan steps into an object that has no end. -/
theorem scan_cons_of_split_none {c : Char} {t : Text}
    (h : splitObject? 0 .code (c :: t) = none) : scan (c :: t) = scan t := by
  rw [scan]
  split
  · split
    · rename_i found
      rw [h] at found
      cases found
    · rfl
  · rfl

/-- The scan takes an object with its end and goes on behind it. -/
theorem scan_of_split_some {t object behind : Text} (front : signature <+: t)
    (h : splitObject? 0 .code t = some (object, behind)) :
    scan t = (item? object).toList ++ scan behind := by
  cases t with
  | nil => cases h
  | cons c t =>
    rw [scan, if_pos (Text.startsWith_iff.2 front)]
    split
    · rename_i found
      rw [h] at found
      cases found
      rfl
    · rename_i found
      rw [h] at found
      cases found

/-! ## Text without objects -/

theorem scan_append_of_not_mem {s : Text} (h : '{' ∉ s) (t : Text) : scan (s ++ t) = scan t := by
  induction s with
  | nil => rfl
  | cons c s ih =>
    have other : c ≠ '{' := fun same => h (same ▸ List.mem_cons_self)
    have others : '{' ∉ s := fun found => h (List.mem_cons_of_mem c found)
    rw [List.cons_append, scan_cons_of_ne other, ih others]

theorem scan_take_append_of_not_mem {s : Text} (h : '{' ∉ s) (t : Text) (k : Nat) :
    scan ((s ++ t).take k) = scan (t.take (k - s.length)) := by
  rw [List.take_append, scan_append_of_not_mem fun found => h (List.mem_of_mem_take found)]

theorem scan_take_cons_of_ne {c : Char} (h : c ≠ '{') (t : Text) (k : Nat) :
    scan ((c :: t).take k) = scan (t.take (k - 1)) := by
  cases k with
  | zero => rfl
  | succ k => rw [List.take_succ_cons, scan_cons_of_ne h, Nat.add_sub_cancel]

/-- A character is written without a brace unless it is one. -/
theorem not_mem_escape {c : Char} (h : c ≠ '{') : '{' ∉ Node.escape c := by
  rcases Node.escape_cases c with ⟨letter, known, written⟩ | ⟨control, written⟩ | ⟨-, -, -, written⟩
  · have other : '{' ≠ letter := by
      rintro rfl
      cases known
    rw [written]
    simp [other]
  · have digits : ∀ d < 16, '{' ≠ Node.hexDigit d := by decide
    have high := digits (c.toNat / 16) (by omega)
    have low := digits (c.toNat % 16) (by omega)
    rw [written]
    simp [high, low]
  · rw [written, List.mem_singleton]
    exact h.symm

/-- No character is written with a quote in front. -/
theorem escape_eq_cons (c : Char) : ∃ d t, Node.escape c = d :: t ∧ d ≠ '"' := by
  rcases Node.escape_cases c with ⟨letter, -, written⟩ | ⟨-, written⟩ | ⟨quote, -, -, written⟩
  · exact ⟨'\\', _, written, by decide⟩
  · exact ⟨'\\', _, written, by decide⟩
  · exact ⟨c, [], written, quote⟩

/-- No signature starts inside a string: behind a brace stands neither a quote, nor the closing
quote with the name of a member behind it. -/
theorem not_signature_in_string {s t : Text} (behind : t.head? ≠ some 's') :
    ¬ signature <+: '{' :: (s.flatMap Node.escape ++ '"' :: t) := by
  intro front
  rw [signature_eq, List.cons_prefix_cons] at front
  obtain ⟨rest, whole⟩ := front.2
  rw [List.append_assoc, Node.quote_append] at whole
  cases s with
  | nil =>
    rw [List.flatMap_nil, List.nil_append] at whole
    rw [← (List.cons.inj whole).2] at behind
    exact behind rfl
  | cons c s =>
    obtain ⟨d, written, escaped, other⟩ := escape_eq_cons c
    rw [List.flatMap_cons, escaped, List.cons_append, List.cons_append] at whole
    exact other (List.cons.inj whole).1.symm

theorem scan_take_flatMap_escape (s : Text) {t : Text} (behind : t.head? ≠ some 's') (k : Nat) :
    scan ((s.flatMap Node.escape ++ '"' :: t).take k) =
      scan (t.take (k - ((s.flatMap Node.escape).length + 1))) := by
  induction s generalizing k with
  | nil => exact scan_take_cons_of_ne (by decide) t k
  | cons c s ih =>
    by_cases brace : c = '{'
    · subst brace
      have written : Node.escape '{' = ['{'] := by decide
      rw [List.flatMap_cons, written, List.append_assoc, List.singleton_append, List.length_append,
        List.length_singleton]
      cases k with
      | zero => rw [List.take_zero, Nat.zero_sub, List.take_zero]
      | succ k =>
        have plain : ¬ signature <+: '{' :: (s.flatMap Node.escape ++ '"' :: t).take k := by
          rw [← List.take_succ_cons]
          exact fun front => not_signature_in_string behind (front.trans (List.take_prefix _ _))
        rw [List.take_succ_cons, scan_cons_of_not_isPrefix plain, ih]
        congr 2
        omega
    · rw [List.flatMap_cons, List.append_assoc, scan_take_append_of_not_mem (not_mem_escape brace),
        ih, List.length_append, Nat.sub_sub, Nat.add_assoc]

theorem scan_take_quote (s : Text) {t : Text} (behind : t.head? ≠ some 's') (k : Nat) :
    scan ((Node.quote s ++ t).take k) = scan (t.take (k - (Node.quote s).length)) := by
  rw [Node.quote_append, scan_take_cons_of_ne (by decide), scan_take_flatMap_escape s behind,
    Node.length_quote, Nat.sub_sub]
  congr 2
  omega

/-! ## Objects -/

/-- The text of an object starts with the signature exactly when its first member is a status. -/
theorem signature_isPrefix_iff {members : List (Option Text × Node)}
    (integral : Node.membersIntegral members = true) (t : Text) :
    signature <+: (Node.object members).write ++ t ↔ Node.startsLikeVerdict members = true := by
  rw [Node.write, List.append_assoc, List.cons_append, signature_eq, List.cons_prefix_cons,
    and_iff_right rfl]
  match members with
  | [] =>
    constructor
    · rintro ⟨more, same⟩
      cases same
    · intro front
      cases front
  | (none, node) :: rest =>
    obtain ⟨⟨s, named⟩, -⟩ := Node.membersIntegral_cons.1 integral
    cases named
  | (some name, node) :: rest =>
    rw [Node.writeMembers_cons, Node.startsLikeVerdict, beq_iff_eq, List.append_assoc,
      List.cons_append]
    constructor
    · rintro ⟨more, same⟩
      rw [List.append_assoc] at same
      exact (Node.eq_of_quote_append same).1.symm
    · rintro rfl
      rw [← List.singleton_append, ← List.append_assoc]
      exact List.prefix_append _ _

/-- The text of an object is taken as the value of the object. -/
theorem item?_write {members : List (Option Text × Node)}
    (integral : Node.membersIntegral members = true) :
    item? (Node.object members).write = (Node.object members).toValue? maxLevels := by
  rw [item?, Value.parse?_write (n := .object members) integral, Node.toValue?]
  cases Node.toMembers? (maxLevels - 1) members <;> rfl

/-- A complete object that starts like a verdict is taken. -/
theorem scan_write_object {members : List (Option Text × Node)}
    (integral : Node.membersIntegral members = true)
    (front : Node.startsLikeVerdict members = true) (t : Text) :
    scan ((Node.object members).write ++ t) =
      ((Node.object members).toValue? maxLevels).toList ++ scan t := by
  rw [scan_of_split_some ((signature_isPrefix_iff integral t).2 front)
    (splitObject?_write_object integral t), item?_write integral]

/-- Into every other object the scan steps: into one that starts differently, and into one that is
cut. -/
theorem scan_take_write_object {members : List (Option Text × Node)}
    (integral : Node.membersIntegral members = true) (t : Text) {k : Nat}
    (other : Node.startsLikeVerdict members = false ∨ k < (Node.object members).write.length) :
    scan (((Node.object members).write ++ t).take k) =
      scan ((Node.writeMembers members ++ '}' :: t).take (k - 1)) := by
  have opening : (Node.object members).write ++ t =
      '{' :: (Node.writeMembers members ++ '}' :: t) := by
    rw [Node.write, List.append_assoc, List.cons_append, List.singleton_append]
  cases k with
  | zero => rfl
  | succ k =>
    rcases other with plain | short
    · have unsigned : ¬ signature <+: '{' :: (Node.writeMembers members ++ '}' :: t).take k := by
        rw [← List.take_succ_cons, ← opening]
        intro front
        have signed := (signature_isPrefix_iff integral t).1 (front.trans (List.take_prefix _ _))
        rw [plain] at signed
        cases signed
      rw [opening, List.take_succ_cons, scan_cons_of_not_isPrefix unsigned, Nat.add_sub_cancel]
    · have cut : '{' :: (Node.writeMembers members ++ '}' :: t).take k =
          (Node.object members).write.take (k + 1) := by
        rw [← List.take_succ_cons, ← opening, List.take_append_of_le_length (Nat.le_of_lt short)]
      have endless : splitObject? 0 .code
          ('{' :: (Node.writeMembers members ++ '}' :: t).take k) = none := by
        rw [cut]
        refine splitObject?_eq_none_of_cut integral (List.take_prefix _ _) fun same => ?_
        have lengths := congrArg List.length same
        rw [List.length_take] at lengths
        omega
      rw [opening, List.take_succ_cons, scan_cons_of_split_none endless, Nat.add_sub_cancel]

/-! ## Documents -/

theorem head?_writeFurtherItems (rest : List Node) {t : Text} (behind : t.head? ≠ some 's') :
    (Node.writeFurtherItems rest ++ t).head? ≠ some 's' := by
  cases rest with
  | nil => exact behind
  | cons item rest => simp [Node.writeFurtherItems_cons]

theorem head?_writeFurtherMembers (rest : List (Option Text × Node)) {t : Text}
    (behind : t.head? ≠ some 's') : (Node.writeFurtherMembers rest ++ t).head? ≠ some 's' := by
  cases rest with
  | nil => exact behind
  | cons m rest => simp [Node.writeFurtherMembers_cons]

mutual

/-- In the text of an integral document, cut or not, the scan finds the embedded objects. -/
theorem scan_take_write : ∀ (n : Node) {t : Text} (k : Nat), n.isIntegral = true →
    t.head? ≠ some 's' →
      scan ((n.write ++ t).take k) = n.embedded k ++ scan (t.take (k - n.write.length))
  | .null, t, k, _, _ => scan_take_append_of_not_mem (by decide) t k
  | .bool true, t, k, _, _ => scan_take_append_of_not_mem (by decide) t k
  | .bool false, t, k, _, _ => scan_take_append_of_not_mem (by decide) t k
  | .number none, _, _, integral, _ => absurd integral Bool.false_ne_true
  | .number (some n), t, k, integral, _ => by
    obtain ⟨i, rfl, -⟩ := Number.exists_of_isWord integral
    exact scan_take_append_of_not_mem (fun found => (isInert_of_mem_ofInt found).2.1 rfl) t k
  | .string none, _, _, integral, _ => absurd integral Bool.false_ne_true
  | .string (some s), t, k, _, behind => scan_take_quote s behind k
  | .array items, t, k, integral, _ => by
    rw [Node.write, List.append_assoc, List.cons_append, List.singleton_append,
      scan_take_cons_of_ne (by decide), scan_take_writeItems items (k - 1) integral (by simp),
      scan_take_cons_of_ne (by decide), Node.embedded]
    congr 3
    simp only [List.length_append, List.length_cons, List.length_nil]
    omega
  | .object members, t, k, integral, _ => by
    rw [Node.embedded]
    split
    · rename_i whole
      rw [Bool.and_eq_true, decide_eq_true_eq] at whole
      rw [List.take_append, List.take_of_length_le whole.2,
        scan_write_object integral whole.1]
    · rename_i other
      rw [Bool.and_eq_true, decide_eq_true_eq, Decidable.not_and_iff_not_or_not,
        Bool.not_eq_true, Nat.not_le] at other
      rw [scan_take_write_object integral t other,
        scan_take_writeMembers members (k - 1) integral (by simp),
        scan_take_cons_of_ne (by decide), Node.write]
      congr 3
      simp only [List.length_append, List.length_cons, List.length_nil]
      omega
  | .broken, _, _, integral, _ => absurd integral Bool.false_ne_true

theorem scan_take_writeItems : ∀ (items : List Node) {t : Text} (k : Nat),
    Node.itemsIntegral items = true → t.head? ≠ some 's' →
      scan ((Node.writeItems items ++ t).take k) =
        Node.embeddedItems k items ++ scan (t.take (k - (Node.writeItems items).length))
  | [], _, _, _, _ => rfl
  | item :: rest, t, k, integral, behind => by
    obtain ⟨plain, others⟩ := Node.itemsIntegral_cons.1 integral
    rw [Node.writeItems_cons, List.append_assoc,
      scan_take_write item k plain (head?_writeFurtherItems rest behind), Node.embeddedItems,
      List.append_assoc, List.length_append]
    congr 1
    cases rest with
    | nil =>
      rw [Node.writeFurtherItems_nil, List.nil_append, List.length_nil, Nat.add_zero]
      rfl
    | cons next rest =>
      rw [Node.writeFurtherItems_cons, List.cons_append, scan_take_cons_of_ne (by decide),
        Nat.sub_sub, scan_take_writeItems (next :: rest) _ others behind, Nat.sub_sub,
        List.length_cons]
      congr 3
      omega

theorem scan_take_writeMembers : ∀ (members : List (Option Text × Node)) {t : Text} (k : Nat),
    Node.membersIntegral members = true → t.head? ≠ some 's' →
      scan ((Node.writeMembers members ++ t).take k) =
        Node.embeddedMembers k members ++ scan (t.take (k - (Node.writeMembers members).length))
  | [], _, _, _, _ => rfl
  | (none, _) :: _, _, _, integral, _ => by
    obtain ⟨⟨s, named⟩, -⟩ := Node.membersIntegral_cons.1 integral
    cases named
  | (some name, node) :: rest, t, k, integral, behind => by
    obtain ⟨-, plain, others⟩ := Node.membersIntegral_cons.1 integral
    rw [Node.writeMembers_cons, List.append_assoc, List.cons_append, List.append_assoc,
      scan_take_quote name (by simp), scan_take_cons_of_ne (by decide), Nat.sub_sub,
      scan_take_write node _ plain (head?_writeFurtherMembers rest behind), Node.embeddedMembers,
      Option.getD_some, List.append_assoc]
    congr 1
    cases rest with
    | nil =>
      rw [Node.writeFurtherMembers_nil, List.nil_append, List.append_nil, Nat.sub_sub]
      congr 3
      simp only [List.length_append, List.length_cons]
      omega
    | cons next rest =>
      rw [Node.writeFurtherMembers_cons, List.cons_append, scan_take_cons_of_ne (by decide),
        Nat.sub_sub (_ - _) _ 1, scan_take_writeMembers (next :: rest) _ others behind]
      congr 3
      simp only [List.length_append, List.length_cons]
      omega

end

/-! ## Noise -/

/-- Text in which no signature starts is passed over, up to a character that no signature has
behind its brace. -/
theorem scan_append_cons {p t : Text} {c : Char} (absent : ¬ signature <:+: p)
    (unused : c ∉ signature.tail) : scan (p ++ c :: t) = scan (c :: t) := by
  induction p with
  | nil => rfl
  | cons d p ih =>
    have front : ¬ signature <+: d :: (p ++ c :: t) := by
      intro h
      rw [signature_eq, List.cons_prefix_cons] at h
      have within := Text.isPrefix_of_isPrefix_append_cons unused h.2
      exact absent (List.cons_prefix_cons.2 ⟨h.1, within⟩).isInfix
    have later : ¬ signature <:+: p := fun h => absent (h.trans (List.suffix_cons d p).isInfix)
    rw [List.cons_append, scan_cons_of_not_isPrefix front, ih later]

theorem scan_eq_nil {p : Text} (absent : ¬ signature <:+: p) : scan p = [] := by
  induction p with
  | nil => exact scan_nil
  | cons d p ih =>
    rw [scan_cons_of_not_isPrefix fun h => absent h.isInfix]
    exact ih fun h => absent (h.trans (List.suffix_cons d p).isInfix)

end Recovery

end HarnessSynthesis
