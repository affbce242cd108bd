/-
# Text behind a document

Reading looks no further than the document it reads: when a text starts with a document that holds
no fault, appending more text leaves what is read alone and goes to the rest. Only a number at the
very end of the text could go on. The induction is on the fuel, of which more does no harm.

With the round trip this says that a text cut short is not mistaken for another document: no proper
beginning of the text of a list is a document at all.
-/

import HarnessSynthesis.Proofs.Json.RoundTrip

namespace HarnessSynthesis.Json

/-! ## Numbers -/

namespace Spelling

theorem digits_append_of_rest {t ds rest : Text} (h : digits t = (ds, rest)) (left : rest ≠ [])
    (more : Text) : digits (t ++ more) = (ds, rest ++ more) := by
  obtain ⟨rfl, rfl⟩ := Prod.mk.inj h
  have whole := congrArg List.length
    (List.takeWhile_append_dropWhile (p := Text.isAsciiDigit) (l := t))
  have positive := List.length_pos_iff.2 left
  rw [List.length_append] at whole
  rw [digits, List.takeWhile_append, List.dropWhile_append, if_neg (by omega),
    if_neg (by rwa [List.isEmpty_iff])]

theorem lexWhole?_append {t ds rest : Text} (h : lexWhole? t = some (ds, rest)) (left : rest ≠ [])
    (more : Text) : lexWhole? (t ++ more) = some (ds, rest ++ more) := by
  rw [lexWhole?.eq_def] at h
  split at h
  · split at h
    · split at h
      · cases h
      · cases h
        rw [List.cons_append, List.cons_append, lexWhole?, if_neg ‹_›]
    · cases h
      exact absurd rfl left
  · rename_i unzero
    cases split : digits t with
    | mk ds' rest' =>
      rw [split] at h
      simp only [Option.ite_none_left_eq_some, Option.some.injEq, Prod.mk.injEq] at h
      obtain ⟨found, rfl, rfl⟩ := h
      rw [lexWhole?]
      · simp only [digits_append_of_rest split left more, found, if_false]
      · intro behind same
        cases t with
        | nil => cases split; exact left rfl
        | cons c t => exact unzero t (by rw [(List.cons.inj same).1])

theorem lexFraction?_append {t rest : Text} {ds : Option Text}
    (h : lexFraction? t = some (ds, rest)) (left : rest ≠ []) (more : Text) :
    lexFraction? (t ++ more) = some (ds, rest ++ more) := by
  rw [lexFraction?.eq_def] at h
  split at h
  · rename_i behind
    cases split : digits behind with
    | mk ds' rest' =>
      rw [split] at h
      simp only [Option.ite_none_left_eq_some, Option.some.injEq, Prod.mk.injEq] at h
      obtain ⟨found, rfl, rfl⟩ := h
      rw [List.cons_append, lexFraction?]
      simp only [digits_append_of_rest split left more, found, if_false]
  · cases h
    cases t with
    | nil => exact absurd rfl left
    | cons c t =>
      rw [List.cons_append, lexFraction?]
      intro behind same
      exact ‹∀ rest, c :: t = '.' :: rest → False› t (by rw [(List.cons.inj same).1])

theorem lexExponentDigits?_append {t rest : Text} {negative : Bool} {e : Option (Bool × Text)}
    (h : lexExponentDigits? negative t = some (e, rest)) (left : rest ≠ []) (more : Text) :
    lexExponentDigits? negative (t ++ more) = some (e, rest ++ more) := by
  cases split : digits t with
  | mk ds' rest' =>
    rw [lexExponentDigits?, split] at h
    simp only [Option.ite_none_left_eq_some, Option.some.injEq, Prod.mk.injEq] at h
    obtain ⟨found, rfl, rfl⟩ := h
    rw [lexExponentDigits?]
    simp only [digits_append_of_rest split left more, found, if_false]

theorem exists_digit_of_lexExponentDigits? {t rest : Text} {negative : Bool}
    {e : Option (Bool × Text)} (h : lexExponentDigits? negative t = some (e, rest)) :
    ∃ c behind, t = c :: behind ∧ Text.isAsciiDigit c = true := by
  cases t with
  | nil => cases h
  | cons c behind =>
    refine ⟨c, behind, rfl, ?_⟩
    cases digit : Text.isAsciiDigit c with
    | true => rfl
    | false =>
      rw [lexExponentDigits?, digits, List.takeWhile_cons, digit] at h
      cases h

theorem lexExponent?_append {t rest : Text} {e : Option (Bool × Text)}
    (h : lexExponent? t = some (e, rest)) (left : rest ≠ []) (more : Text) :
    lexExponent? (t ++ more) = some (e, rest ++ more) := by
  -- An exponent without a sign goes on with a digit, so no sign comes to stand there.
  have unsigned {behind : Text} (h : lexExponentDigits? false behind = some (e, rest))
      {sign : Char} (mark : Text.isAsciiDigit sign = false) (t : Text) :
      behind ++ more ≠ sign :: t := by
    obtain ⟨c, behind, rfl, digit⟩ := exists_digit_of_lexExponentDigits? h
    intro same
    rw [(List.cons.inj same).1, mark] at digit
    cases digit
  rw [lexExponent?.eq_def] at h
  split at h
  · exact lexExponentDigits?_append h left more
  · exact lexExponentDigits?_append h left more
  · exact lexExponentDigits?_append h left more
  · exact lexExponentDigits?_append h left more
  · rw [List.cons_append, lexExponent?]
    · exact lexExponentDigits?_append h left more
    · exact unsigned h (by decide)
    · exact unsigned h (by decide)
  · rw [List.cons_append, lexExponent?]
    · exact lexExponentDigits?_append h left more
    · exact unsigned h (by decide)
    · exact unsigned h (by decide)
  · rename_i unmarked unmarked'
    cases h
    cases t with
    | nil => exact absurd rfl left
    | cons c t =>
      have lower : c ≠ 'e' := fun same => unmarked t (by rw [same])
      have upper : c ≠ 'E' := fun same => unmarked' t (by rw [same])
      simp [lexExponent?, lower, upper]

theorem lexUnsigned?_append {t rest : Text} {negative : Bool} {l : Spelling}
    (h : lexUnsigned? negative t = some (l, rest)) (left : rest ≠ []) (more : Text) :
    lexUnsigned? negative (t ++ more) = some (l, rest ++ more) := by
  simp only [lexUnsigned?, Option.pure_def, Option.bind_eq_bind, Option.bind_eq_some_iff,
    Prod.exists, Option.some.injEq, Prod.mk.injEq] at h ⊢
  obtain ⟨whole, behindWhole, lexed, fraction, behindFraction, lexed', exponent, rest, lexed'',
    rfl, rfl⟩ := h
  have left' : behindFraction ≠ [] := by
    rintro rfl
    cases lexed''
    exact left rfl
  have left'' : behindWhole ≠ [] := by
    rintro rfl
    cases lexed'
    exact left' rfl
  exact ⟨whole, _, lexWhole?_append lexed left'' more, fraction, _,
    lexFraction?_append lexed' left' more, exponent, _, lexExponent?_append lexed'' left more,
    rfl, rfl⟩

theorem lex?_append {t rest : Text} {l : Spelling} (h : lex? t = some (l, rest))
    (left : rest ≠ []) (more : Text) : lex? (t ++ more) = some (l, rest ++ more) := by
  rw [lex?.eq_def] at h
  split at h
  · exact lexUnsigned?_append h left more
  · rename_i unsigned
    rw [lex?]
    · exact lexUnsigned?_append h left more
    · intro behind same
      cases t with
      | nil => cases h
      | cons c t => exact unsigned t (by rw [(List.cons.inj same).1])

end Spelling

namespace Node

theorem readNumber_append {t rest : Text} {n : Node} (h : readNumber t = (n, rest))
    (left : rest ≠ []) (more : Text) : readNumber (t ++ more) = (n, rest ++ more) := by
  rw [readNumber] at h ⊢
  cases lexed : Spelling.lex? t with
  | none =>
    rw [lexed] at h
    cases h
    exact absurd rfl left
  | some found =>
    obtain ⟨spelling, rest⟩ := found
    rw [lexed] at h
    cases h
    simp only [Spelling.lex?_append lexed left more]

/-! ## Strings and words -/

theorem lexString?_append {t rest : Text} {units : List Unit16}
    (h : lexString? t = some (units, rest)) (more : Text) :
    lexString? (t ++ more) = some (units, rest ++ more) := by
  fun_induction lexString? t generalizing units with
  | case1 => cases h
  | case2 => cases h; rfl
  | case3 a b c d behind ih =>
    simp only [Option.pure_def, Option.bind_eq_bind, Option.bind_eq_some_iff, Prod.exists,
      Option.some.injEq, Prod.mk.injEq] at h
    obtain ⟨unit, hex, units, rest, read, rfl, rfl⟩ := h
    simp only [List.cons_append, lexString?, hex, ih read, Option.pure_def, Option.bind_eq_bind,
      Option.bind_some]
  | case4 c behind _ ih =>
    simp only [Option.pure_def, Option.bind_eq_bind, Option.bind_eq_some_iff, Prod.exists,
      Option.some.injEq, Prod.mk.injEq] at h
    obtain ⟨escaped, known, units, rest, read, rfl, rfl⟩ := h
    -- No code follows: what stands behind the backslash is an escape of one letter.
    have letter : c ≠ 'u' := by
      rintro rfl
      cases known
    rw [List.cons_append, List.cons_append, lexString?]
    · simp only [known, ih read, Option.pure_def, Option.bind_eq_bind, Option.bind_some]
    · intro _ _ _ _ _ same
      exact absurd same letter
  | case5 => cases h
  | case6 c behind other _ _ plain ih =>
    simp only [Option.pure_def, Option.bind_eq_bind, Option.bind_eq_some_iff, Prod.exists,
      Option.some.injEq, Prod.mk.injEq] at h
    obtain ⟨units, rest, read, rfl, rfl⟩ := h
    have backslash : c ≠ '\\' := by
      rintro rfl
      exact plain rfl
    rw [List.cons_append, lexString?]
    · rw [if_neg plain]
      simp only [ih read, Option.pure_def, Option.bind_eq_bind, Option.bind_some]
    · exact other
    · intro _ _ _ _ _ same
      exact absurd same backslash
    · intro _ _ same
      exact absurd same backslash

theorem readString?_append {t rest : Text} {s : Option Text} (h : readString? t = some (s, rest))
    (more : Text) : readString? (t ++ more) = some (s, rest ++ more) := by
  simp only [readString?, Option.map_eq_some_iff, Prod.exists, Prod.mk.injEq] at h ⊢
  obtain ⟨units, rest, read, rfl, rfl⟩ := h
  exact ⟨units, _, lexString?_append read more, rfl, rfl⟩

theorem readWord_append {word t rest : Text} {node n : Node} (h : readWord word node t = (n, rest))
    (sound : n.isPassable = true) (more : Text) :
    readWord word node (t ++ more) = (n, rest ++ more) := by
  rw [readWord] at h
  split at h
  · rename_i behind found
    cases h
    rw [Text.afterPrefix?_eq_some_iff.1 found, readWord, List.append_assoc,
      Text.afterPrefix?_append]
  · cases h
    cases sound

/-! ## Documents -/

theorem skipSpace_append {t rest : Text} {c : Char} (h : skipSpace t = c :: rest) (more : Text) :
    skipSpace (t ++ more) = c :: (rest ++ more) := by
  have left : (t.dropWhile isSpace).isEmpty ≠ true := by
    rw [skipSpace] at h
    rw [h]
    exact Bool.false_ne_true
  rw [skipSpace, List.dropWhile_append, if_neg left, ← skipSpace, h, List.cons_append]

/-- Whether appended text cannot go on a document: it is no number or does not end the text. -/
def IsClosed (n : Node) (rest : Text) : Prop :=
  (∀ m, n ≠ .number m) ∨ rest ≠ []

theorem isClosed_of_skipSpace {n : Node} {rest behind : Text} {c : Char}
    (h : skipSpace rest = c :: behind) : n.IsClosed rest := by
  refine Or.inr ?_
  rintro rfl
  cases h

theorem itemsPassable_readItems_nil (fuel : Nat) : itemsPassable (readItems fuel []).1 = false := by
  cases fuel with
  | zero => rfl
  | succ fuel => cases fuel <;> rfl

theorem membersPassable_readMembers_nil (fuel : Nat) :
    membersPassable (readMembers fuel []).1 = false := by
  cases fuel <;> rfl

/-- With this fuel, and with more, documents are read in the same way when more text follows. -/
def ReadsOn (fuel : Nat) : Prop :=
  ∀ {t rest : Text} {n : Node}, readFrom fuel t = (n, rest) → n.isPassable = true →
    n.IsClosed rest → ∀ {fuel' : Nat}, fuel ≤ fuel' → ∀ more : Text,
      readFrom fuel' (t ++ more) = (n, rest ++ more)

/-- The same of the elements of an array. -/
def ItemsReadOn (fuel : Nat) : Prop :=
  ∀ {t rest : Text} {items : List Node}, readItems fuel t = (items, rest) →
    itemsPassable items = true → ∀ {fuel' : Nat}, fuel ≤ fuel' → ∀ more : Text,
      readItems fuel' (t ++ more) = (items, rest ++ more)

/-- The same of the members of an object. -/
def MembersReadOn (fuel : Nat) : Prop :=
  ∀ {t rest : Text} {members : List (Option Text × Node)}, readMembers fuel t = (members, rest) →
    membersPassable members = true → ∀ {fuel' : Nat}, fuel ≤ fuel' → ∀ more : Text,
      readMembers fuel' (t ++ more) = (members, rest ++ more)

theorem readFrom_array_append {fuel fuel' : Nat} {t behind rest : Text} {n : Node}
    (items : ItemsReadOn fuel) (opening : skipSpace t = '[' :: behind)
    (h : readFrom (fuel + 1) t = (n, rest)) (sound : n.isPassable = true) (below : fuel ≤ fuel')
    (more : Text) : readFrom (fuel' + 1) (t ++ more) = (n, rest ++ more) := by
  rw [readFrom, opening] at h
  rw [readFrom, skipSpace_append opening more]
  simp only at h
  split at h
  · rename_i closing
    cases h
    simp only [skipSpace_append closing more]
  · rename_i unclosed
    cases read : readItems fuel (skipSpace behind) with
    | mk elements left =>
      rw [read] at h
      cases h
      rw [isPassable] at sound
      cases front : skipSpace behind with
      | nil =>
        rw [front] at read
        have stuck := itemsPassable_readItems_nil fuel
        rw [read, sound] at stuck
        cases stuck
      | cons c further =>
        have on := items read sound below more
        rw [front, List.cons_append] at on
        simp only [skipSpace_append front more]
        split
        · rename_i same
          exact absurd (by rw [front, (List.cons.inj same).1]) (unclosed further)
        · rw [on]

theorem readFrom_object_append {fuel fuel' : Nat} {t behind rest : Text} {n : Node}
    (members : MembersReadOn fuel) (opening : skipSpace t = '{' :: behind)
    (h : readFrom (fuel + 1) t = (n, rest)) (sound : n.isPassable = true) (below : fuel ≤ fuel')
    (more : Text) : readFrom (fuel' + 1) (t ++ more) = (n, rest ++ more) := by
  rw [readFrom, opening] at h
  rw [readFrom, skipSpace_append opening more]
  simp only at h
  split at h
  · rename_i closing
    cases h
    simp only [skipSpace_append closing more]
  · rename_i unclosed
    cases read : readMembers fuel (skipSpace behind) with
    | mk entries left =>
      rw [read] at h
      cases h
      rw [isPassable] at sound
      cases front : skipSpace behind with
      | nil =>
        rw [front] at read
        have stuck := membersPassable_readMembers_nil fuel
        rw [read, sound] at stuck
        cases stuck
      | cons c further =>
        have on := members read sound below more
        rw [front, List.cons_append] at on
        simp only [skipSpace_append front more]
        split
        · rename_i same
          exact absurd (by rw [front, (List.cons.inj same).1]) (unclosed further)
        · rw [on]

theorem exists_number_of_readNumber {t rest : Text} {n : Node} (h : readNumber t = (n, rest))
    (sound : n.isPassable = true) : ∃ m, n = .number m := by
  rw [readNumber] at h
  split at h
  · cases h
    exact ⟨_, rfl⟩
  · cases h
    cases sound

theorem readFrom_number_append {fuel fuel' : Nat} {t rest : Text} {n : Node}
    (other : ∀ d ∈ ['n', 't', 'f', '"', '[', '{'], ∀ behind, skipSpace t ≠ d :: behind)
    (h : readFrom (fuel + 1) t = (n, rest)) (sound : n.isPassable = true)
    (closed : n.IsClosed rest) (more : Text) :
    readFrom (fuel' + 1) (t ++ more) = (n, rest ++ more) := by
  cases front : skipSpace t with
  | nil =>
    rw [readFrom, front] at h
    cases h
    cases sound
  | cons c further =>
    have unmarked : ∀ d ∈ ['n', 't', 'f', '"', '[', '{'], c ≠ d := by
      intro d marked same
      exact other d marked further (same ▸ front)
    rw [readFrom_of_other front unmarked] at h
    obtain ⟨m, rfl⟩ := exists_number_of_readNumber h sound
    have left : rest ≠ [] := closed.resolve_left fun none_such => none_such m rfl
    rw [readFrom_of_other (skipSpace_append front more) unmarked, ← List.cons_append]
    exact readNumber_append h left more

theorem readsOn_succ {fuel : Nat} (items : ItemsReadOn fuel) (members : MembersReadOn fuel) :
    ReadsOn (fuel + 1) := by
  intro t rest n h sound closed fuel' enough more
  obtain ⟨fuel', rfl⟩ : ∃ k, fuel' = k + 1 := ⟨fuel' - 1, by omega⟩
  have below : fuel ≤ fuel' := Nat.le_of_succ_le_succ enough
  have whole := h
  rw [readFrom] at h
  split at h
  · rw [readFrom, skipSpace_append ‹_› more]
    exact readWord_append h sound more
  · rw [readFrom, skipSpace_append ‹_› more]
    exact readWord_append h sound more
  · rw [readFrom, skipSpace_append ‹_› more]
    exact readWord_append h sound more
  · rw [readFrom, skipSpace_append ‹_› more]
    split at h
    · rename_i read
      cases h
      simp only [readString?_append read more]
    · cases h
      cases sound
  · exact readFrom_array_append items ‹_› whole sound below more
  · exact readFrom_object_append members ‹_› whole sound below more
  · rename_i null yes no text array object
    refine readFrom_number_append ?_ whole sound closed more
    intro d marked behind
    simp only [List.mem_cons, List.not_mem_nil, or_false] at marked
    rcases marked with rfl | rfl | rfl | rfl | rfl | rfl
    · exact null behind
    · exact yes behind
    · exact no behind
    · exact text behind
    · exact array behind
    · exact object behind

theorem itemsReadOn_succ {fuel : Nat} (documents : ReadsOn fuel) (items : ItemsReadOn fuel) :
    ItemsReadOn (fuel + 1) := by
  intro t rest found h sound fuel' enough more
  obtain ⟨fuel', rfl⟩ : ∃ k, fuel' = k + 1 := ⟨fuel' - 1, by omega⟩
  have below : fuel ≤ fuel' := Nat.le_of_succ_le_succ enough
  cases read : readFrom fuel t with
  | mk item left =>
    rw [readItems, read] at h
    simp only at h
    split at h
    · rename_i comma
      cases h
      rw [itemsPassable, Bool.and_eq_true] at sound
      have on := documents read sound.1 (isClosed_of_skipSpace comma) below more
      rw [readItems, on]
      simp only [skipSpace_append comma more, items rfl sound.2 below more]
    · rename_i bracket
      cases h
      rw [itemsPassable, Bool.and_eq_true] at sound
      have on := documents read sound.1 (isClosed_of_skipSpace bracket) below more
      rw [readItems, on]
      simp only [skipSpace_append bracket more]
    · cases h
      simp [itemsPassable, isPassable] at sound

theorem membersReadOn_succ {fuel : Nat} (documents : ReadsOn fuel)
    (members : MembersReadOn fuel) : MembersReadOn (fuel + 1) := by
  intro t rest found h sound fuel' enough more
  obtain ⟨fuel', rfl⟩ : ∃ k, fuel' = k + 1 := ⟨fuel' - 1, by omega⟩
  have below : fuel ≤ fuel' := Nat.le_of_succ_le_succ enough
  rw [readMembers] at h
  split at h
  · rename_i opening
    rw [readMembers, skipSpace_append opening more]
    split at h
    · cases h
      simp [membersPassable, isPassable] at sound
    · rename_i name left named
      simp only [readString?_append named more]
      split at h
      · rename_i behind colon
        cases read : readFrom fuel behind with
        | mk node left =>
          simp only [read] at h
          simp only [skipSpace_append colon more]
          split at h
          · rename_i comma
            cases h
            rw [membersPassable, Bool.and_eq_true] at sound
            have on := documents read sound.1 (isClosed_of_skipSpace comma) below more
            simp only [on, skipSpace_append comma more, members rfl sound.2 below more]
          · rename_i brace
            cases h
            rw [membersPassable, Bool.and_eq_true] at sound
            have on := documents read sound.1 (isClosed_of_skipSpace brace) below more
            simp only [on, skipSpace_append brace more]
          · cases h
            simp [membersPassable, isPassable] at sound
      · cases h
        simp [membersPassable, isPassable] at sound
  · cases h
    simp [membersPassable, isPassable] at sound

/-- Text behind a document without faults does not change how the document is read. -/
theorem readsOn (fuel : Nat) : ReadsOn fuel ∧ ItemsReadOn fuel ∧ MembersReadOn fuel := by
  induction fuel with
  | zero =>
    refine ⟨?_, ?_, ?_⟩
    · intro t rest n h sound
      cases h
      cases sound
    · intro t rest items h sound
      cases h
      cases sound
    · intro t rest members h sound
      cases h
      cases sound
  | succ fuel ih =>
    obtain ⟨documents, items, members⟩ := ih
    exact ⟨readsOn_succ items members, itemsReadOn_succ documents items,
      membersReadOn_succ documents members⟩

theorem read_append {t rest : Text} {n : Node} (h : read t = (n, rest))
    (sound : n.isPassable = true) (closed : n.IsClosed rest) (more : Text) :
    read (t ++ more) = (n, rest ++ more) := by
  refine (readsOn _).1 h sound closed ?_ more
  rw [List.length_append]
  omega

/-! ## Texts cut short -/

mutual

/-- A document with a value holds no fault. -/
theorem isPassable_of_toValue? : ∀ {n : Node} {levels : Nat} {v : Value},
    n.toValue? levels = some v → n.isPassable = true
  | .null, _, _, _ => rfl
  | .bool _, _, _, _ => rfl
  | .number _, _, _, _ => rfl
  | .string _, _, _, _ => rfl
  | .array items, levels, v, h => by
    rw [toValue?, Option.ite_none_left_eq_some, Option.map_eq_some_iff] at h
    obtain ⟨-, vs, values, -⟩ := h
    rw [isPassable, itemsPassable_of_toItems? values]
  | .object members, levels, v, h => by
    rw [toValue?, Option.ite_none_left_eq_some, Option.map_eq_some_iff] at h
    obtain ⟨-, vs, values, -⟩ := h
    rw [isPassable, membersPassable_of_toMembers? values]

theorem itemsPassable_of_toItems? : ∀ {items : List Node} {levels : Nat} {vs : List Value},
    toItems? levels items = some vs → itemsPassable items = true
  | [], _, _, _ => rfl
  | item :: rest, levels, vs, h => by
    simp only [toItems?, Option.pure_def, Option.bind_eq_bind, Option.bind_eq_some_iff] at h
    obtain ⟨v, value, vs, values, -⟩ := h
    rw [itemsPassable, isPassable_of_toValue? value, itemsPassable_of_toItems? values]
    rfl

theorem membersPassable_of_toMembers? : ∀ {members : List (Option Text × Node)} {levels : Nat}
    {vs : List (Text × Value)}, toMembers? levels members = some vs →
      membersPassable members = true
  | [], _, _, _ => rfl
  | (name, node) :: rest, levels, vs, h => by
    simp only [toMembers?, Option.pure_def, Option.bind_eq_bind, Option.bind_eq_some_iff] at h
    obtain ⟨s, named, v, value, vs, values, -⟩ := h
    rw [membersPassable, isPassable_of_toValue? value, membersPassable_of_toMembers? values]
    rfl

end

/-- What opens like a list is read as one. -/
theorem exists_array_of_read (t : Text) : ∃ items rest, read ('[' :: t) = (.array items, rest) := by
  rw [read, readFrom, skipSpace_cons_of_not_isSpace (by decide)]
  simp only
  split
  · exact ⟨[], _, rfl⟩
  · exact ⟨_, _, rfl⟩

end Node

theorem Value.exists_of_parse? {t : Text} {v : Value} (h : parse? t = some v) :
    ∃ n rest, Node.read t = (n, rest) ∧ n.toValue? maxLevels = some v ∧
      Node.skipSpace rest = [] := by
  cases read : Node.read t with
  | mk n rest =>
    simp only [parse?, Decoder.decodeText, read, Decoder.value] at h
    refine ⟨n, rest, rfl, ?_⟩
    cases value : n.toValue? maxLevels with
    | none =>
      rw [value] at h
      cases h
    | some w =>
      rw [value] at h
      simp only at h
      split at h
      · cases h
        exact ⟨rfl, ‹_›⟩
      · cases h

/-- The text of a list that is cut short is no document. -/
theorem Value.parse?_eq_none_of_cut {items : List Node} (integral : Node.itemsIntegral items = true)
    {t : Text} (cut : t <+: (Node.array items).write) (short : t ≠ (Node.array items).write) :
    parse? t = none := by
  cases found : parse? t with
  | none => rfl
  | some v =>
    exfalso
    obtain ⟨n, rest, read, value, -⟩ := exists_of_parse? found
    obtain ⟨more, whole⟩ := cut
    have sound := Node.isPassable_of_toValue? value
    have closed : n.IsClosed rest := by
      cases t with
      | nil => cases read; cases sound
      | cons c t =>
        rw [Node.write, List.cons_append, List.cons_append] at whole
        rw [(List.cons.inj whole).1] at read
        obtain ⟨elements, behind, array⟩ := Node.exists_array_of_read t
        rw [array] at read
        cases read
        exact Or.inl fun m => Node.noConfusion
    have on := Node.read_append read sound closed more
    rw [whole, Node.read_write (n := .array items) integral] at on
    have nothing := (List.append_eq_nil_iff.1 (Prod.mk.inj on).2.symm).2
    rw [nothing, List.append_nil] at whole
    exact short whole

end HarnessSynthesis.Json
