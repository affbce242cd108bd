/-
# Where an object ends

An object that is cut out of an output ends with the brace that closes its first one, and braces in
strings count for nothing. Said without the scan: leave out the strings and count. The object has as
many closing braces as opening ones, and no proper beginning of it does, so the brace at its end is
the first that can close it.
-/

import HarnessSynthesis.Proofs.Recovery.Braces

namespace HarnessSynthesis.Recovery

open Text (extend extend_eq_some_iff)

/-! ## Outside strings -/

/-- Whether a text goes on in a string behind one more character. -/
def BraceState.next : BraceState → Char → BraceState
  | .escaped, _ => .quoted
  | .quoted, c => if c = '\\' then .escaped else if c = '"' then .code else .quoted
  | .code, c => if c = '"' then .quoted else .code

/-- A character where it stands outside strings. -/
def seen (state : BraceState) (c : Char) : Text :=
  if state = .code ∧ c ≠ '"' then [c] else []

/-- A text without its strings. -/
def outside : BraceState → Text → Text
  | _, [] => []
  | state, c :: t => seen state c ++ outside (state.next c) t

/-- A text that begins with a brace and ends where this brace is closed. -/
structure ClosesAtEnd (object : Text) : Prop where
  opens : ∃ behind, object = '{' :: behind
  /-- The last character is a closing brace outside strings. -/
  last : ∃ inside, object = inside ++ ['}'] ∧
    outside .code object = outside .code inside ++ ['}']
  balanced : (outside .code object).count '}' = (outside .code object).count '{'
  /-- A brace is left open in front of every place before the end. -/
  pending : ∀ p, p <+: object → p ≠ [] → p ≠ object →
    (outside .code p).count '}' < (outside .code p).count '{'

/-! ## Closing what is open -/

/-- The rest of an object when `depth` more braces than one are open. -/
structure Closing (depth : Nat) (state : BraceState) (object : Text) : Prop where
  last : ∃ inside, object = inside ++ ['}'] ∧ outside state object = outside state inside ++ ['}']
  balanced : (outside state object).count '}' = (outside state object).count '{' + (depth + 1)
  pending : ∀ p, p <+: object → p ≠ object →
    (outside state p).count '}' < (outside state p).count '{' + (depth + 1)

theorem closing_singleton : Closing 0 .code ['}'] where
  last := ⟨[], rfl, rfl⟩
  balanced := rfl
  pending := by
    intro p front other
    cases p with
    | nil => exact Nat.one_pos
    | cons c p =>
      obtain ⟨rfl, behind⟩ := List.cons_prefix_cons.1 front
      rw [List.prefix_nil.1 behind] at other
      exact absurd rfl other

/-- A character in front of the rest changes how many braces are open. -/
theorem Closing.cons {depth depth' : Nat} {state : BraceState} {c : Char} {object : Text}
    (rest : Closing depth' (state.next c) object)
    (counts : depth + (seen state c).count '{' = depth' + (seen state c).count '}') :
    Closing depth state (c :: object) where
  last := by
    obtain ⟨inside, whole, seen⟩ := rest.last
    refine ⟨c :: inside, by rw [whole, List.cons_append], ?_⟩
    rw [outside, seen, outside, List.append_assoc]
  balanced := by
    have inner := rest.balanced
    rw [outside, List.count_append, List.count_append]
    omega
  pending := by
    intro p front other
    cases p with
    | nil => exact Nat.succ_pos _
    | cons d p =>
      obtain ⟨rfl, behind⟩ := List.cons_prefix_cons.1 front
      have inner := rest.pending p behind fun same => other (by rw [same])
      rw [outside, List.count_append, List.count_append]
      omega

/-- What is split off closes what was open. -/
theorem closing_of_splitObject? {depth : Nat} {state : BraceState} {t object rest : Text}
    (h : splitObject? (depth + 1) state t = some (object, rest)) : Closing depth state object := by
  induction t generalizing depth state object with
  | nil => cases state <;> cases h
  | cons c t ih =>
    -- a character that leaves the number of open braces alone
    have pass {state' : BraceState} (next : state.next c = state')
        (opening : (seen state c).count '{' = 0) (closing : (seen state c).count '}' = 0)
        (h : extend c (splitObject? (depth + 1) state' t) =
          some (object, rest)) : Closing depth state object := by
      obtain ⟨object', rfl, inner⟩ := extend_eq_some_iff.1 h
      have rest := ih inner
      rw [← next] at rest
      exact rest.cons (by rw [opening, closing])
    cases state with
    | escaped => exact pass rfl rfl rfl h
    | quoted =>
      rw [splitObject?] at h
      split at h
      · rename_i backslash
        exact pass (by rw [BraceState.next, if_pos backslash]) rfl rfl h
      · rename_i other
        split at h
        · rename_i quote
          exact pass (by rw [BraceState.next, if_neg other, if_pos quote]) rfl rfl h
        · rename_i quote
          exact pass (by rw [BraceState.next, if_neg other, if_neg quote]) rfl rfl h
    | code =>
      rw [splitObject?] at h
      split at h
      · rename_i quote
        subst quote
        exact pass rfl rfl rfl h
      · rename_i noQuote
        have next : BraceState.next .code c = .code := if_neg noQuote
        have here : seen .code c = [c] := if_pos ⟨rfl, noQuote⟩
        split at h
        · rename_i opening
          subst opening
          obtain ⟨object', rfl, inner⟩ := extend_eq_some_iff.1 h
          exact Closing.cons (ih inner) rfl
        · rename_i noOpening
          split at h
          · rename_i closing
            subst closing
            split at h
            · rename_i least
              obtain rfl : depth = 0 := by omega
              cases h
              exact closing_singleton
            · rename_i more
              obtain ⟨object', rfl, inner⟩ := extend_eq_some_iff.1 h
              obtain ⟨below, rfl⟩ := Nat.exists_eq_succ_of_ne_zero (n := depth) (by omega)
              exact Closing.cons (ih inner) rfl
          · rename_i noClosing
            apply pass next ?_ ?_ h
            · rw [here]
              exact List.count_singleton.trans (if_neg (by simpa using noOpening))
            · rw [here]
              exact List.count_singleton.trans (if_neg (by simpa using noClosing))

/-- What is split off an output ends where its first brace is closed. -/
theorem closesAtEnd_of_splitObject? {t object rest : Text}
    (h : splitObject? 0 .code ('{' :: t) = some (object, rest)) : ClosesAtEnd object := by
  rw [splitObject?_opening] at h
  obtain ⟨⟨object', rest'⟩, inner, same⟩ := Option.map_eq_some_iff.1 h
  obtain ⟨rfl, rfl⟩ := Prod.mk.inj same
  have closing := closing_of_splitObject? inner
  have front (p : Text) : outside .code ('{' :: p) = '{' :: outside .code p := rfl
  refine ⟨⟨object', rfl⟩, ?_, ?_, ?_⟩
  · obtain ⟨inside, whole, seen⟩ := closing.last
    refine ⟨'{' :: inside, by rw [whole]; rfl, ?_⟩
    show outside .code ('{' :: object') = _
    rw [front, front, seen]
    rfl
  · have counts := closing.balanced
    show (outside .code ('{' :: object')).count '}' = (outside .code ('{' :: object')).count '{'
    rw [front, List.count_cons_of_ne (by decide), List.count_cons_self]
    exact counts
  · intro p behind nonempty other
    cases p with
    | nil => exact absurd rfl nonempty
    | cons c p =>
      obtain ⟨rfl, inside⟩ := List.cons_prefix_cons.1 behind
      have counts := closing.pending p inside fun same => other (by rw [same]; rfl)
      rw [front, List.count_cons_of_ne (by decide), List.count_cons_self]
      exact counts

end HarnessSynthesis.Recovery
