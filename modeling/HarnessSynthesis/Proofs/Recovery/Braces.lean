/-
# Finding the end of an object

The brace that closes an object is found without reading the object: strings are passed over, and
braces outside them are counted. On the text of an integral document this finds exactly its end.
Every part of a document leaves the count and the state as they were, so the proof follows the
document; what the count stands at in front does not matter, as long as an object is open.
-/

import HarnessSynthesis.Proofs.Json.RoundTrip
import HarnessSynthesis.Recovery

namespace HarnessSynthesis.Recovery

open Json
open Text (extend extend_eq_some_iff)

/-- A split with more text in front of its first part. -/
def prepend (t : Text) (split : Option (Text × Text)) : Option (Text × Text) :=
  split.map fun (object, rest) => (t ++ object, rest)

theorem prepend_prepend (s t : Text) (split : Option (Text × Text)) :
    prepend s (prepend t split) = prepend (s ++ t) split := by
  cases split with
  | none => rfl
  | some p => simp only [prepend, Option.map_some, List.append_assoc]

theorem prepend_nil (split : Option (Text × Text)) : prepend [] split = split := by
  cases split <;> rfl

theorem extend_eq_prepend (c : Char) (split : Option (Text × Text)) :
    extend c split = prepend [c] split := by
  cases split <;> rfl

/-! ## Outside strings -/

/-- A character that changes neither the count of braces nor the state outside strings. -/
def IsInert (c : Char) : Prop :=
  c ≠ '"' ∧ c ≠ '{' ∧ c ≠ '}'

instance : DecidablePred IsInert := fun c =>
  inferInstanceAs (Decidable (c ≠ '"' ∧ c ≠ '{' ∧ c ≠ '}'))

theorem isInert_of_all {s : Text} (h : (s.all fun c => decide (IsInert c)) = true) :
    ∀ c ∈ s, IsInert c :=
  fun c found => of_decide_eq_true (List.all_eq_true.1 h c found)

theorem splitObject?_cons_of_isInert {c : Char} (h : IsInert c) (depth : Nat) (t : Text) :
    splitObject? depth .code (c :: t) = prepend [c] (splitObject? depth .code t) := by
  obtain ⟨quote, opening, closing⟩ := h
  rw [splitObject?, if_neg quote, if_neg opening, if_neg closing, extend_eq_prepend]

theorem splitObject?_append_of_isInert {s : Text} (h : ∀ c ∈ s, IsInert c) (depth : Nat)
    (t : Text) : splitObject? depth .code (s ++ t) = prepend s (splitObject? depth .code t) := by
  induction s with
  | nil => rw [List.nil_append, prepend_nil]
  | cons c s ih =>
    have others := fun d found => h d (List.mem_cons_of_mem c found)
    rw [List.cons_append, splitObject?_cons_of_isInert (h c List.mem_cons_self), ih others,
      prepend_prepend, List.singleton_append]

theorem splitObject?_opening (depth : Nat) (t : Text) :
    splitObject? depth .code ('{' :: t) = prepend ['{'] (splitObject? (depth + 1) .code t) := by
  rw [splitObject?, if_neg (by decide), if_pos rfl, extend_eq_prepend]

theorem splitObject?_closing (depth : Nat) (t : Text) :
    splitObject? (depth + 2) .code ('}' :: t) =
      prepend ['}'] (splitObject? (depth + 1) .code t) := by
  rw [splitObject?, if_neg (by decide), if_neg (by decide), if_pos rfl, if_neg (by omega),
    extend_eq_prepend]
  rfl

theorem splitObject?_end (t : Text) : splitObject? 1 .code ('}' :: t) = some (['}'], t) := by
  rw [splitObject?, if_neg (by decide), if_neg (by decide), if_pos rfl, if_pos (by decide)]

/-! ## Inside strings -/

theorem splitObject?_quoted_of_ne {c : Char} (backslash : c ≠ '\\') (quote : c ≠ '"') (depth : Nat)
    (t : Text) :
    splitObject? depth .quoted (c :: t) = prepend [c] (splitObject? depth .quoted t) := by
  rw [splitObject?, if_neg backslash, if_neg quote, extend_eq_prepend]

theorem splitObject?_quoted_backslash (c : Char) (depth : Nat) (t : Text) :
    splitObject? depth .quoted ('\\' :: c :: t) =
      prepend ['\\', c] (splitObject? depth .quoted t) := by
  rw [splitObject?, if_pos rfl, splitObject?, extend_eq_prepend, extend_eq_prepend,
    prepend_prepend, List.singleton_append]

theorem hexDigit_ne {d : Nat} (h : d < 16) : Node.hexDigit d ≠ '\\' ∧ Node.hexDigit d ≠ '"' := by
  have all : ∀ d < 16, Node.hexDigit d ≠ '\\' ∧ Node.hexDigit d ≠ '"' := by decide
  exact all d h

/-- Inside a string, a character is passed over as it is written. -/
theorem splitObject?_escape (c : Char) (depth : Nat) (t : Text) :
    splitObject? depth .quoted (Node.escape c ++ t) =
      prepend (Node.escape c) (splitObject? depth .quoted t) := by
  rcases Node.escape_cases c with ⟨letter, -, written⟩ | ⟨control, written⟩ |
    ⟨quote, backslash, -, written⟩
  · rw [written]
    exact splitObject?_quoted_backslash letter depth t
  · obtain ⟨high, high'⟩ := hexDigit_ne (d := c.toNat / 16) (by omega)
    obtain ⟨low, low'⟩ := hexDigit_ne (d := c.toNat % 16) (by omega)
    rw [written]
    simp only [List.cons_append, List.nil_append]
    rw [splitObject?_quoted_backslash, splitObject?_quoted_of_ne (by decide) (by decide),
      splitObject?_quoted_of_ne (by decide) (by decide), splitObject?_quoted_of_ne high high',
      splitObject?_quoted_of_ne low low']
    simp only [prepend_prepend, List.cons_append, List.nil_append]
  · rw [written, List.singleton_append, splitObject?_quoted_of_ne backslash quote]

theorem splitObject?_flatMap_escape (s : Text) (depth : Nat) (t : Text) :
    splitObject? depth .quoted (s.flatMap Node.escape ++ '"' :: t) =
      prepend (s.flatMap Node.escape ++ ['"']) (splitObject? depth .code t) := by
  induction s with
  | nil =>
    rw [List.flatMap_nil, List.nil_append, List.nil_append, splitObject?, if_neg (by decide),
      if_pos rfl, extend_eq_prepend]
  | cons c s ih =>
    rw [List.flatMap_cons, List.append_assoc, splitObject?_escape, ih, prepend_prepend,
      List.append_assoc]

theorem splitObject?_quote (s : Text) (depth : Nat) (t : Text) :
    splitObject? depth .code (Node.quote s ++ t) =
      prepend (Node.quote s) (splitObject? depth .code t) := by
  rw [Node.quote_append, splitObject?, if_pos rfl, extend_eq_prepend,
    splitObject?_flatMap_escape, prepend_prepend, List.singleton_append, Node.quote,
    List.cons_append]

/-! ## Documents -/

theorem isInert_of_mem_ofInt {i : Int} {c : Char} (h : c ∈ Text.ofInt i) : IsInert c := by
  have digit : c = '-' ∨ Text.isAsciiDigit c = true := by
    cases i with
    | ofNat n => exact Or.inr (Text.isAsciiDigit_of_mem_ofNat n h)
    | negSucc n =>
      exact (List.mem_cons.1 h).imp id (Text.isAsciiDigit_of_mem_ofNat (n + 1))
  exact ⟨Node.ne_of_digit digit (by decide), Node.ne_of_digit digit (by decide),
    Node.ne_of_digit digit (by decide)⟩

mutual

/-- Inside an object, a document is passed over as it is written. -/
theorem splitObject?_write : ∀ (n : Node) (depth : Nat) (t : Text), n.isIntegral = true →
    splitObject? (depth + 1) .code (n.write ++ t) =
      prepend n.write (splitObject? (depth + 1) .code t)
  | .null, depth, t, _ => splitObject?_append_of_isInert (isInert_of_all (by decide)) _ t
  | .bool true, depth, t, _ => splitObject?_append_of_isInert (isInert_of_all (by decide)) _ t
  | .bool false, depth, t, _ => splitObject?_append_of_isInert (isInert_of_all (by decide)) _ t
  | .number none, _, _, integral => absurd integral Bool.false_ne_true
  | .number (some n), depth, t, integral => by
    obtain ⟨i, rfl, -⟩ := Number.exists_of_isWord integral
    exact splitObject?_append_of_isInert (fun c => isInert_of_mem_ofInt) _ t
  | .string none, _, _, integral => absurd integral Bool.false_ne_true
  | .string (some s), depth, t, _ => splitObject?_quote s (depth + 1) t
  | .array items, depth, t, integral => by
    have bracket : IsInert '[' ∧ IsInert ']' := by unfold IsInert; decide
    rw [Node.write, List.append_assoc, List.cons_append, List.singleton_append,
      splitObject?_cons_of_isInert bracket.1, splitObject?_writeItems items depth _ integral,
      splitObject?_cons_of_isInert bracket.2, prepend_prepend, prepend_prepend]
    simp only [List.cons_append, List.nil_append]
  | .object members, depth, t, integral => by
    rw [Node.write, List.append_assoc, List.cons_append, List.singleton_append,
      splitObject?_opening, splitObject?_writeMembers members (depth + 1) _ integral,
      splitObject?_closing, prepend_prepend, prepend_prepend]
    simp only [List.cons_append, List.nil_append]
  | .broken, _, _, integral => absurd integral Bool.false_ne_true

theorem splitObject?_writeItems : ∀ (items : List Node) (depth : Nat) (t : Text),
    Node.itemsIntegral items = true →
      splitObject? (depth + 1) .code (Node.writeItems items ++ t) =
        prepend (Node.writeItems items) (splitObject? (depth + 1) .code t)
  | [], _, t, _ => by rw [Node.writeItems, List.nil_append, prepend_nil]
  | [item], depth, t, integral => by
    obtain ⟨plain, -⟩ := Node.itemsIntegral_cons.1 integral
    rw [Node.writeItems_cons, Node.writeFurtherItems_nil, List.append_nil]
    exact splitObject?_write item depth t plain
  | item :: next :: rest, depth, t, integral => by
    obtain ⟨plain, others⟩ := Node.itemsIntegral_cons.1 integral
    have comma : IsInert ',' := by unfold IsInert; decide
    rw [Node.writeItems_cons, Node.writeFurtherItems_cons, List.append_assoc, List.cons_append,
      splitObject?_write item depth _ plain, splitObject?_cons_of_isInert comma,
      splitObject?_writeItems (next :: rest) depth t others, prepend_prepend, prepend_prepend]
    simp only [List.append_assoc, List.cons_append, List.nil_append]

theorem splitObject?_writeMembers : ∀ (members : List (Option Text × Node)) (depth : Nat)
    (t : Text), Node.membersIntegral members = true →
      splitObject? (depth + 1) .code (Node.writeMembers members ++ t) =
        prepend (Node.writeMembers members) (splitObject? (depth + 1) .code t)
  | [], _, t, _ => by rw [Node.writeMembers, List.nil_append, prepend_nil]
  | (none, _) :: _, _, _, integral => by
    obtain ⟨⟨s, named⟩, -⟩ := Node.membersIntegral_cons.1 integral
    cases named
  | [(some name, node)], depth, t, integral => by
    obtain ⟨-, plain, -⟩ := Node.membersIntegral_cons.1 integral
    have colon : IsInert ':' := by unfold IsInert; decide
    rw [Node.writeMembers_cons, Node.writeFurtherMembers_nil, List.append_nil, List.append_assoc,
      List.cons_append, splitObject?_quote, splitObject?_cons_of_isInert colon,
      splitObject?_write node depth t plain, prepend_prepend, prepend_prepend]
    simp only [List.append_assoc, List.cons_append, List.nil_append]
  | (some name, node) :: next :: rest, depth, t, integral => by
    obtain ⟨-, plain, others⟩ := Node.membersIntegral_cons.1 integral
    have colon : IsInert ':' := by unfold IsInert; decide
    have comma : IsInert ',' := by unfold IsInert; decide
    rw [Node.writeMembers_cons, Node.writeFurtherMembers_cons, List.append_assoc, List.cons_append,
      List.append_assoc, List.cons_append, splitObject?_quote, splitObject?_cons_of_isInert colon,
      splitObject?_write node depth _ plain, splitObject?_cons_of_isInert comma,
      splitObject?_writeMembers (next :: rest) depth t others]
    simp only [prepend_prepend, List.cons_append, List.nil_append]

end

/-- The brace that closes the text of an object is found. -/
theorem splitObject?_write_object {members : List (Option Text × Node)}
    (integral : Node.membersIntegral members = true) (t : Text) :
    splitObject? 0 .code ((Node.object members).write ++ t) =
      some ((Node.object members).write, t) := by
  rw [Node.write, List.append_assoc, List.cons_append, List.singleton_append, splitObject?_opening,
    splitObject?_writeMembers members 0 _ integral, splitObject?_end, prepend_prepend, prepend,
    Option.map_some, List.singleton_append]

/-! ## Objects cut short -/

/-- What text behind a split leaves alone, it leaves alone with a character in front. -/
theorem extend_append {c : Char} {split split' : Option (Text × Text)} {more : Text}
    (ih : ∀ {object rest}, split = some (object, rest) → split' = some (object, rest ++ more))
    {object rest : Text} (h : extend c split = some (object, rest)) :
    extend c split' = some (object, rest ++ more) := by
  obtain ⟨object', rfl, found⟩ := extend_eq_some_iff.1 h
  rw [ih found]
  rfl

/-- Text behind the closing brace does not change where it is found. -/
theorem splitObject?_append {depth : Nat} {state : BraceState} {t object rest : Text}
    (h : splitObject? depth state t = some (object, rest)) (more : Text) :
    splitObject? depth state (t ++ more) = some (object, rest ++ more) := by
  induction t generalizing depth state object rest with
  | nil => cases state <;> cases h
  | cons c t ih =>
    rw [List.cons_append]
    cases state with
    | escaped => exact extend_append ih h
    | quoted =>
      rw [splitObject?] at h ⊢
      split at h
      · rw [if_pos ‹_›]
        exact extend_append ih h
      · rw [if_neg ‹_›]
        split at h
        · rw [if_pos ‹_›]
          exact extend_append ih h
        · rw [if_neg ‹_›]
          exact extend_append ih h
    | code =>
      rw [splitObject?] at h ⊢
      split at h
      · rw [if_pos ‹_›]
        exact extend_append ih h
      · rw [if_neg ‹_›]
        split at h
        · rw [if_pos ‹_›]
          exact extend_append ih h
        · rw [if_neg ‹_›]
          split at h
          · rw [if_pos ‹_›]
            split at h
            · rw [if_pos ‹_›]
              cases h
              rfl
            · rw [if_neg ‹_›]
              exact extend_append ih h
          · rw [if_neg ‹_›]
            exact extend_append ih h

/-- The text of an object that is cut short has no closing brace. -/
theorem splitObject?_eq_none_of_cut {members : List (Option Text × Node)}
    (integral : Node.membersIntegral members = true) {t : Text}
    (cut : t <+: (Node.object members).write) (short : t ≠ (Node.object members).write) :
    splitObject? 0 .code t = none := by
  cases found : splitObject? 0 .code t with
  | none => rfl
  | some p =>
    exfalso
    obtain ⟨object, rest⟩ := p
    obtain ⟨more, whole⟩ := cut
    have on := splitObject?_append found more
    have full := splitObject?_write_object integral []
    rw [List.append_nil, ← whole, on] at full
    have nothing := (List.append_eq_nil_iff.1 (Prod.mk.inj (Option.some.inj full)).2).2
    rw [nothing, List.append_nil] at whole
    exact short whole

end HarnessSynthesis.Recovery
