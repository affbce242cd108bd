/-
# Reading what was written

The compact text of an integral document is read back as that document, whatever stands behind it
as long as that does not go on a number. The induction is on the document, with fuel of twice the
length of its text. Two things follow: a value is the value of its own text, when it is not nested
too deeply, and values with the same text are the same.
-/

import HarnessSynthesis.Proofs.Json.Integral
import HarnessSynthesis.Proofs.Json.StringText

namespace HarnessSynthesis.Json

namespace Node

/-! ## How documents start -/

theorem skipSpace_cons_of_not_isSpace {c : Char} {t : Text} (h : isSpace c = false) :
    skipSpace (c :: t) = c :: t := by
  rw [skipSpace, List.dropWhile_cons_of_neg (by rw [h]; exact Bool.false_ne_true)]

/-- An integer starts with a digit or a minus sign. -/
theorem ofInt_eq_cons (i : Int) :
    ∃ c t, Text.ofInt i = c :: t ∧ (c = '-' ∨ Text.isAsciiDigit c = true) := by
  cases i with
  | ofNat n =>
    obtain ⟨c, t, digits, -⟩ := Text.ofNat_eq_cons n
    refine ⟨c, t, digits, Or.inr (Text.isAsciiDigit_of_mem_ofNat n ?_)⟩
    rw [digits]
    exact List.mem_cons_self
  | negSucc n => exact ⟨'-', Text.ofNat (n + 1), rfl, Or.inl rfl⟩

theorem ne_of_digit {c d : Char} (h : c = '-' ∨ Text.isAsciiDigit c = true)
    (other : d ≠ '-' ∧ Text.isAsciiDigit d = false) : c ≠ d := by
  rintro rfl
  rcases h with rfl | digit
  · exact other.1 rfl
  · rw [other.2] at digit
    cases digit

theorem not_isSpace_of_digit {c : Char} (h : c = '-' ∨ Text.isAsciiDigit c = true) :
    isSpace c = false := by
  have space := ne_of_digit h (d := ' ') (by decide)
  have feed := ne_of_digit h (d := '\n') (by decide)
  have tab := ne_of_digit h (d := '\t') (by decide)
  have carriage := ne_of_digit h (d := '\r') (by decide)
  simp [isSpace, space, feed, tab, carriage]

/-- The text of an integral document starts with a character that is no blank and closes nothing. -/
theorem write_eq_cons {n : Node} (h : n.isIntegral = true) :
    ∃ c t, n.write = c :: t ∧ isSpace c = false ∧ c ≠ ']' ∧ c ≠ '}' := by
  cases n with
  | null => exact ⟨'n', _, rfl, by decide⟩
  | bool b => cases b <;> exact ⟨_, _, rfl, by decide⟩
  | number n =>
    cases n with
    | none => exact absurd h Bool.false_ne_true
    | some n =>
      obtain ⟨i, rfl, -⟩ := Number.exists_of_isWord h
      obtain ⟨c, t, digits, digit⟩ := ofInt_eq_cons i
      exact ⟨c, t, digits, not_isSpace_of_digit digit, ne_of_digit digit (by decide),
        ne_of_digit digit (by decide)⟩
  | string s =>
    cases s with
    | none => exact absurd h Bool.false_ne_true
    | some s => exact ⟨'"', _, rfl, by decide⟩
  | array items => exact ⟨'[', _, rfl, by decide⟩
  | object members => exact ⟨'{', _, rfl, by decide⟩
  | broken => exact absurd h Bool.false_ne_true

theorem skipSpace_write {n : Node} (h : n.isIntegral = true) (t : Text) :
    skipSpace (n.write ++ t) = n.write ++ t := by
  obtain ⟨c, rest, written, space, -⟩ := write_eq_cons h
  rw [written, List.cons_append, skipSpace_cons_of_not_isSpace space]

/-- What starts like no other kind of document is read as a number. -/
theorem readFrom_of_other {c : Char} {rest t : Text} (h : skipSpace t = c :: rest)
    (other : ∀ d ∈ ['n', 't', 'f', '"', '[', '{'], c ≠ d) (fuel : Nat) :
    readFrom (fuel + 1) t = readNumber (c :: rest) := by
  rw [readFrom, h]
  split
  · exact absurd (List.cons.inj ‹_›).1 (other 'n' (by decide))
  · exact absurd (List.cons.inj ‹_›).1 (other 't' (by decide))
  · exact absurd (List.cons.inj ‹_›).1 (other 'f' (by decide))
  · exact absurd (List.cons.inj ‹_›).1 (other '"' (by decide))
  · exact absurd (List.cons.inj ‹_›).1 (other '[' (by decide))
  · exact absurd (List.cons.inj ‹_›).1 (other '{' (by decide))
  · rfl

theorem readFrom_of_digit {c : Char} (h : c = '-' ∨ Text.isAsciiDigit c = true) (fuel : Nat)
    (t : Text) : readFrom (fuel + 1) (c :: t) = readNumber (c :: t) := by
  have unmarked : (['n', 't', 'f', '"', '[', '{'].all
      fun d => decide (d ≠ '-' ∧ Text.isAsciiDigit d = false)) = true := by decide
  exact readFrom_of_other (skipSpace_cons_of_not_isSpace (not_isSpace_of_digit h))
    (fun d found => ne_of_digit h (of_decide_eq_true (List.all_eq_true.1 unmarked d found))) fuel

/-! ## Lists with commas -/

/-- What stands behind an element: a comma and the others, or nothing. -/
def writeFurtherItems (rest : List Node) : Text :=
  if rest.isEmpty then [] else ',' :: writeItems rest

/-- What stands behind a member: a comma and the others, or nothing. -/
def writeFurtherMembers (rest : List (Option Text × Node)) : Text :=
  if rest.isEmpty then [] else ',' :: writeMembers rest

theorem writeItems_cons (item : Node) (rest : List Node) :
    writeItems (item :: rest) = item.write ++ writeFurtherItems rest := rfl

theorem writeMembers_cons (name : Text) (node : Node) (rest : List (Option Text × Node)) :
    writeMembers ((some name, node) :: rest) =
      quote name ++ ':' :: (node.write ++ writeFurtherMembers rest) := by
  rw [writeMembers, writeFurtherMembers, Option.getD_some, List.append_assoc, List.cons_append]

theorem writeFurtherItems_nil : writeFurtherItems [] = [] := rfl

theorem writeFurtherItems_cons (item : Node) (rest : List Node) :
    writeFurtherItems (item :: rest) = ',' :: writeItems (item :: rest) := rfl

theorem writeFurtherMembers_nil : writeFurtherMembers [] = [] := rfl

theorem writeFurtherMembers_cons (m : Option Text × Node) (rest : List (Option Text × Node)) :
    writeFurtherMembers (m :: rest) = ',' :: writeMembers (m :: rest) := rfl

theorem ends_writeFurtherItems (rest : List Node) (t : Text) :
    Spelling.Ends (writeFurtherItems rest ++ ']' :: t) := by
  cases rest with
  | nil => exact Spelling.ends_cons (by decide)
  | cons item rest => exact Spelling.ends_cons (by decide)

theorem ends_writeFurtherMembers (rest : List (Option Text × Node)) (t : Text) :
    Spelling.Ends (writeFurtherMembers rest ++ '}' :: t) := by
  cases rest with
  | nil => exact Spelling.ends_cons (by decide)
  | cons m rest => exact Spelling.ends_cons (by decide)

/-! ## Reading back -/

theorem readFrom_number_write {n : Number} (word : n.isWord = true) (fuel : Nat) {rest : Text}
    (ends : Spelling.Ends rest) :
    readFrom (fuel + 1) (n.write ++ rest) = (.number (some n), rest) := by
  have read := readNumber_write word ends
  obtain ⟨i, rfl, -⟩ := Number.exists_of_isWord word
  obtain ⟨c, t, digits, digit⟩ := ofInt_eq_cons i
  rw [Number.write, digits, List.cons_append] at read ⊢
  rw [readFrom_of_digit digit, read]

/-- An array is read back when its elements are. -/
theorem readFrom_array_write {item : Node} {items : List Node} {fuel : Nat} {rest : Text}
    (integral : item.isIntegral = true)
    (read : readItems fuel (writeItems (item :: items) ++ ']' :: rest) = (item :: items, rest)) :
    readFrom (fuel + 1) (write (.array (item :: items)) ++ rest) =
      (.array (item :: items), rest) := by
  have opening : write (.array (item :: items)) ++ rest =
      '[' :: (writeItems (item :: items) ++ ']' :: rest) := by
    rw [write, List.append_assoc, List.cons_append, List.singleton_append]
  have nonblank : skipSpace (writeItems (item :: items) ++ ']' :: rest) =
      writeItems (item :: items) ++ ']' :: rest := by
    rw [writeItems_cons, List.append_assoc, skipSpace_write integral]
  rw [opening, readFrom, skipSpace_cons_of_not_isSpace (by decide)]
  simp only [nonblank]
  split
  · rename_i more closed
    obtain ⟨c, t, written, -, other, -⟩ := write_eq_cons integral
    rw [writeItems_cons, written] at closed
    exact absurd (List.cons.inj closed).1 other
  · rw [read]

/-- An object is read back when its members are. -/
theorem readFrom_object_write {name : Text} {node : Node} {members : List (Option Text × Node)}
    {fuel : Nat} {rest : Text}
    (read : readMembers fuel (writeMembers ((some name, node) :: members) ++ '}' :: rest) =
      ((some name, node) :: members, rest)) :
    readFrom (fuel + 1) (write (.object ((some name, node) :: members)) ++ rest) =
      (.object ((some name, node) :: members), rest) := by
  have opening : write (.object ((some name, node) :: members)) ++ rest =
      '{' :: (writeMembers ((some name, node) :: members) ++ '}' :: rest) := by
    rw [write, List.append_assoc, List.cons_append, List.singleton_append]
  rw [opening, readFrom, skipSpace_cons_of_not_isSpace (by decide)]
  rw [writeMembers_cons, List.append_assoc, quote_append] at read ⊢
  simp only [skipSpace_cons_of_not_isSpace (show isSpace '"' = false by decide)]
  split
  · exact absurd (List.cons.inj ‹_›).1 (by decide)
  · rw [read]

mutual

/-- The text of an integral document is read as that document. -/
theorem readFrom_write : ∀ (n : Node) (fuel : Nat) (rest : Text), n.isIntegral = true →
    2 * n.write.length ≤ fuel → Spelling.Ends rest → readFrom fuel (n.write ++ rest) = (n, rest)
  | n, 0, _, integral, enough, _ => by
    obtain ⟨c, t, written, -⟩ := write_eq_cons integral
    rw [written, List.length_cons] at enough
    omega
  | .null, fuel + 1, rest, _, _, _ => rfl
  | .bool true, fuel + 1, rest, _, _, _ => rfl
  | .bool false, fuel + 1, rest, _, _, _ => rfl
  | .number (some n), fuel + 1, rest, integral, _, ends => readFrom_number_write integral fuel ends
  | .string (some s), fuel + 1, rest, _, _, _ => by
    rw [write, quote_append, readFrom, skipSpace_cons_of_not_isSpace (by decide)]
    simp only [readString?_flatMap_escape]
  | .array [], fuel + 1, rest, _, _, _ => rfl
  | .array (item :: items), fuel + 1, rest, integral, enough, _ => by
    rw [isIntegral] at integral
    have read := readItems_write (item :: items) fuel rest integral (by simp)
      (by simp only [write, List.length_append, List.length_cons, List.length_nil] at enough; omega)
    exact readFrom_array_write (itemsIntegral_cons.1 integral).1 read
  | .object [], fuel + 1, rest, _, _, _ => rfl
  | .object ((name, node) :: members), fuel + 1, rest, integral, enough, _ => by
    rw [isIntegral] at integral
    obtain ⟨⟨s, rfl⟩, -⟩ := membersIntegral_cons.1 integral
    have read := readMembers_write ((some s, node) :: members) fuel rest integral (by simp)
      (by simp only [write, List.length_append, List.length_cons, List.length_nil] at enough; omega)
    exact readFrom_object_write read

theorem readItems_write : ∀ (items : List Node) (fuel : Nat) (rest : Text),
    itemsIntegral items = true → items ≠ [] → 2 * (writeItems items).length + 1 ≤ fuel →
      readItems fuel (writeItems items ++ ']' :: rest) = (items, rest)
  | [], _, _, _, nonempty, _ => absurd rfl nonempty
  | item :: items, 0, _, _, _, enough => by omega
  | item :: items, fuel + 1, rest, integral, _, enough => by
    rw [writeItems_cons, List.length_append] at enough
    have head := readFrom_write item fuel _ (itemsIntegral_cons.1 integral).1 (by omega)
      (ends_writeFurtherItems items rest)
    rw [writeItems_cons, List.append_assoc, readItems]
    simp only [head]
    cases items with
    | nil => rfl
    | cons next items =>
      rw [writeFurtherItems_cons, List.length_cons] at enough
      have tail := readItems_write (next :: items) fuel rest
        (itemsIntegral_cons.1 integral).2 (by simp) (by omega)
      rw [writeFurtherItems_cons, List.cons_append, skipSpace_cons_of_not_isSpace (by decide)]
      simp only [tail]

theorem readMembers_write : ∀ (members : List (Option Text × Node)) (fuel : Nat) (rest : Text),
    membersIntegral members = true → members ≠ [] →
      2 * (writeMembers members).length + 1 ≤ fuel →
      readMembers fuel (writeMembers members ++ '}' :: rest) = (members, rest)
  | [], _, _, _, nonempty, _ => absurd rfl nonempty
  | m :: members, 0, _, _, _, enough => by omega
  | (none, _) :: members, _ + 1, _, integral, _, _ => by
    obtain ⟨⟨s, named⟩, -⟩ := membersIntegral_cons.1 integral
    cases named
  | (some name, node) :: members, fuel + 1, rest, integral, _, enough => by
    rw [writeMembers_cons, List.length_append, List.length_cons, List.length_append] at enough
    obtain ⟨-, plain, others⟩ := membersIntegral_cons.1 integral
    have head := readFrom_write node fuel _ plain (by omega)
      (ends_writeFurtherMembers members rest)
    rw [writeMembers_cons, List.append_assoc, quote_append, readMembers,
      skipSpace_cons_of_not_isSpace (by decide)]
    simp only [readString?_flatMap_escape, List.cons_append, List.append_assoc,
      skipSpace_cons_of_not_isSpace (show isSpace ':' = false by decide), head]
    cases members with
    | nil => rfl
    | cons next members =>
      rw [writeFurtherMembers_cons, List.length_cons] at enough
      have tail := readMembers_write (next :: members) fuel rest others
        (by simp) (by omega)
      rw [writeFurtherMembers_cons, List.cons_append, skipSpace_cons_of_not_isSpace (by decide)]
      simp only [tail]

end

theorem read_write {n : Node} (integral : n.isIntegral = true) : read n.write = (n, []) := by
  have whole := readFrom_write n (2 * n.write.length + 2) [] integral (by omega)
    Spelling.ends_nil
  rw [List.append_nil] at whole
  exact whole

/-- Integral documents are told apart by their texts. -/
theorem eq_of_write_eq {n n' : Node} (integral : n.isIntegral = true)
    (integral' : n'.isIntegral = true) (h : n.write = n'.write) : n = n' := by
  have read := congrArg read h
  rw [read_write integral, read_write integral'] at read
  exact (Prod.mk.inj read).1

end Node

namespace Value

/-- The value of the text of an integral document is the value of the document. -/
theorem parse?_write {n : Node} (integral : n.isIntegral = true) :
    parse? n.write = n.toValue? maxLevels := by
  simp only [parse?, Decoder.decodeText, Node.read_write integral, Decoder.value]
  cases n.toValue? maxLevels <;> rfl

/-- Integral values are told apart by their texts. -/
theorem eq_of_write_eq {v w : Value} (hv : v.isIntegral = true) (hw : w.isIntegral = true)
    (h : v.write = w.write) : v = w :=
  ofValue_injective (Node.eq_of_write_eq hv hw h)

end Value

end HarnessSynthesis.Json
