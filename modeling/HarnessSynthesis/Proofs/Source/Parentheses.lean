/-
# Closing parentheses

To close a parenthesis only parentheses are counted, whatever they stand in. What is read up to the
closing one is therefore told by counts alone: it has as many closing ones as opening ones, and no
beginning of it has more.
-/

import HarnessSynthesis.Source.Brackets

namespace HarnessSynthesis.Source

/-- A text that closes its own parentheses and `depth` more, and never one that is not open. What
quotes it has does not matter. -/
structure Matched (depth : Nat) (t : Text) : Prop where
  count_eq : t.count ')' = t.count '(' + depth
  count_le : ∀ r, r <+: t → r.count ')' ≤ r.count '(' + depth

theorem matched_nil {depth : Nat} : Matched depth [] ↔ depth = 0 := by
  constructor
  · intro matched
    have counts := matched.count_eq
    rw [List.count_nil, List.count_nil, Nat.zero_add] at counts
    exact counts.symm
  · rintro rfl
    refine ⟨rfl, fun r hr => ?_⟩
    rw [List.prefix_nil.1 hr]
    exact Nat.le_refl 0

theorem matched_cons {depth : Nat} {c : Char} {t : Text} :
    Matched depth (c :: t) ↔
      [c].count ')' ≤ [c].count '(' + depth ∧
        Matched (depth + [c].count '(' - [c].count ')') t := by
  have split (a : Char) (r : Text) : (c :: r).count a = [c].count a + r.count a := by
    rw [← List.singleton_append, List.count_append]
  constructor
  · intro matched
    have first := matched.count_le [c] ((List.prefix_cons_inj c).2 List.nil_prefix)
    have counts := matched.count_eq
    rw [split ')' t, split '(' t] at counts
    refine ⟨first, by omega, fun r hr => ?_⟩
    have inner := matched.count_le (c :: r) ((List.prefix_cons_inj c).2 hr)
    rw [split ')' r, split '(' r] at inner
    omega
  · rintro ⟨first, matched⟩
    have counts := matched.count_eq
    refine ⟨by rw [split ')' t, split '(' t]; omega, fun r hr => ?_⟩
    cases r with
    | nil => exact Nat.zero_le _
    | cons d r =>
      obtain ⟨rfl, inside⟩ := List.cons_prefix_cons.1 hr
      have inner := matched.count_le r inside
      rw [split ')' r, split '(' r]
      omega

theorem matched_cons_open {depth : Nat} {t : Text} :
    Matched depth ('(' :: t) ↔ Matched (depth + 1) t := by
  rw [matched_cons]
  exact and_iff_right (Nat.zero_le _)

theorem matched_cons_close {depth : Nat} {t : Text} :
    Matched depth (')' :: t) ↔ 0 < depth ∧ Matched (depth - 1) t := by
  have counts : [')'].count ')' = 1 ∧ [')'].count '(' = 0 := by decide
  rw [matched_cons, counts.1, counts.2, Nat.zero_add, Nat.add_zero]
  exact Iff.rfl

theorem matched_cons_of_ne {depth : Nat} {c : Char} {t : Text} (noOpen : c ≠ '(')
    (noClose : c ≠ ')') : Matched depth (c :: t) ↔ Matched depth t := by
  rw [matched_cons, List.count_eq_zero.2 fun h => noOpen (List.mem_singleton.1 h).symm,
    List.count_eq_zero.2 fun h => noClose (List.mem_singleton.1 h).symm]
  exact and_iff_right (Nat.zero_le _)

/-- Behind a text whose own parentheses are in pairs as much is open as in front of it. -/
theorem Matched.append {depth : Nat} {p t : Text} (front : Matched 0 p) (rest : Matched depth t) :
    Matched depth (p ++ t) := by
  have pairs := front.count_eq
  have counts := rest.count_eq
  refine ⟨by rw [List.count_append, List.count_append]; omega, fun r hr => ?_⟩
  rcases List.prefix_or_prefix_of_prefix hr (List.prefix_append p t) with inside | ⟨r', rfl⟩
  · have := front.count_le r inside
    omega
  · have := rest.count_le r' ((List.prefix_append_right_inj p).1 hr)
    rw [List.count_append, List.count_append]
    omega

theorem matched_of_not_mem {t : Text} (noOpen : '(' ∉ t) (noClose : ')' ∉ t) : Matched 0 t := by
  refine ⟨by rw [List.count_eq_zero.2 noOpen, List.count_eq_zero.2 noClose], fun r hr => ?_⟩
  rw [List.count_eq_zero.2 fun mem => noClose (hr.subset mem)]
  exact Nat.zero_le _

/-- Parameters whose parentheses are in pairs make a list of this kind. -/
theorem matched_join {ps : List Text} (matched : ∀ p ∈ ps, Matched 0 p) :
    Matched 0 (Text.join ", " ps) := by
  induction ps with
  | nil => exact matched_nil.2 rfl
  | cons p ps ih =>
    rw [List.forall_mem_cons] at matched
    cases ps with
    | nil => exact matched.1
    | cons q ps =>
      have rest := ih matched.2
      show Matched 0 (p ++ [',', ' '] ++ Text.join ", " (q :: ps))
      rw [List.append_assoc]
      exact matched.1.append ((matched_cons_of_ne (by decide) (by decide)).2
        ((matched_cons_of_ne (by decide) (by decide)).2 rest))

/-! ## Reading up to the closing parenthesis -/

/-- What is read up to a closing parenthesis is what matches in front of one. -/
theorem closeBracket?_eq_some_iff {depth : Nat} {t inside behind : Text} :
    closeBracket? '(' ')' depth t = some (inside, behind) ↔
      t = inside ++ ')' :: behind ∧ Matched depth inside := by
  induction t generalizing depth inside with
  | nil => simp [closeBracket?]
  | cons c t ih =>
    have extended (depth' : Nat)
        (step : ∀ rest, Matched depth (c :: rest) ↔ Matched depth' rest)
        (further : ¬ (c = ')' ∧ depth = 0)) :
        Text.extend c (closeBracket? '(' ')' depth' t) = some (inside, behind) ↔
          c :: t = inside ++ ')' :: behind ∧ Matched depth inside := by
      rw [Text.extend_eq_some_iff]
      constructor
      · rintro ⟨rest, rfl, read⟩
        obtain ⟨whole, matched⟩ := ih.1 read
        exact ⟨by rw [whole, List.cons_append], (step rest).2 matched⟩
      · rintro ⟨whole, matched⟩
        cases inside with
        | nil => exact absurd ⟨(List.cons.inj whole).1, matched_nil.1 matched⟩ further
        | cons d rest =>
          obtain ⟨rfl, inner⟩ := List.cons.inj whole
          exact ⟨rest, rfl, ih.2 ⟨inner, (step rest).1 matched⟩⟩
    by_cases opens : c = '('
    · subst opens
      simp only [closeBracket?, if_pos]
      exact extended (depth + 1) (fun _ => matched_cons_open)
        fun h => absurd h.1 (by decide)
    · by_cases closes : c = ')'
      · subst closes
        simp only [closeBracket?, if_neg opens, if_pos]
        cases depth with
        | zero =>
          constructor
          · intro read
            obtain ⟨rfl, rfl⟩ := Prod.mk.inj (Option.some.inj read)
            exact ⟨rfl, matched_nil.2 rfl⟩
          · rintro ⟨whole, matched⟩
            cases inside with
            | nil => rw [(List.cons.inj whole).2]
            | cons d rest =>
              obtain ⟨rfl, -⟩ := List.cons.inj whole
              exact absurd (matched_cons_close.1 matched).1 (Nat.lt_irrefl 0)
        | succ depth =>
          exact extended depth (fun _ => matched_cons_close.trans (and_iff_right depth.succ_pos))
            (fun h => absurd h.2 depth.succ_ne_zero)
      · simp only [closeBracket?, if_neg opens, if_neg closes]
        exact extended depth (fun _ => matched_cons_of_ne opens closes) fun h => closes h.1

end HarnessSynthesis.Source
