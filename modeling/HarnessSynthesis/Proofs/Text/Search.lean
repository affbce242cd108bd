/-
# Searching in texts

`cut?` finds the first place where a text stands. What follows from that is stated with the
library's prefixes and infixes: how a search passes over a part that does not hold the text, and
that no occurrence lies before the one that is found. A character that the searched text does not
use keeps an occurrence from reaching across it, which is how the two sides of a marker are told
apart. A place in two joined texts is a place in one of them.
-/

import HarnessSynthesis.Text.Basic

namespace HarnessSynthesis.Text

/-! ## Places in joined texts -/

/-- A place in two joined lists is one of the first or one of the second. -/
theorem append_eq_append_cons {α : Type} {s t front rest : List α} {c : α}
    (same : s ++ t = front ++ c :: rest) :
    (∃ more, s = front ++ c :: more ∧ rest = more ++ t) ∨
      ∃ more, front = s ++ more ∧ t = more ++ c :: rest := by
  rcases List.append_eq_append_iff.1 same with ⟨more, whole, behind⟩ | ⟨more, whole, behind⟩
  · exact Or.inr ⟨more, whole, behind⟩
  · cases more with
    | nil => exact Or.inr ⟨[], by rw [whole, List.append_nil, List.append_nil], behind.symm⟩
    | cons d more =>
      obtain ⟨rfl, rest⟩ := List.cons.inj behind
      exact Or.inl ⟨more, whole, rest⟩

/-! ## Starting and containing -/

theorem startsWith_iff {start t : Text} : startsWith start t = true ↔ start <+: t := by
  rw [startsWith, Option.isSome_iff_exists]
  constructor
  · rintro ⟨rest, h⟩
    exact ⟨rest, (afterPrefix?_eq_some_iff.1 h).symm⟩
  · rintro ⟨rest, h⟩
    exact ⟨rest, afterPrefix?_eq_some_iff.2 h.symm⟩

theorem startsWith_singleton_iff {c : Char} {t : Text} :
    startsWith [c] t = true ↔ ∃ rest, t = c :: rest := by
  rw [startsWith_iff]
  constructor
  · rintro ⟨rest, rfl⟩
    exact ⟨rest, rfl⟩
  · rintro ⟨rest, rfl⟩
    exact ⟨rest, rfl⟩

theorem afterPrefix?_eq_none {start t : Text} (h : ¬ start <+: t) :
    afterPrefix? start t = none := by
  rw [← Option.not_isSome_iff_eq_none]
  intro found
  exact h (startsWith_iff.1 found)

theorem startsWith_eq_false {start t : Text} (h : ¬ start <+: t) : startsWith start t = false := by
  rw [startsWith, afterPrefix?_eq_none h, Option.isSome_none]

/-- An occurrence at the front does not reach across a character that it does not use. -/
theorem isPrefix_of_isPrefix_append_cons {needle p t : Text} {c : Char} (unused : c ∉ needle)
    (h : needle <+: p ++ c :: t) : needle <+: p := by
  rcases List.prefix_or_prefix_of_prefix h (List.prefix_append p (c :: t)) with inside | across
  · exact inside
  · obtain ⟨more, rfl⟩ := across
    rw [List.prefix_append_right_inj] at h
    cases more with
    | nil => exact ⟨[], by rw [List.append_nil, List.append_nil]⟩
    | cons d more =>
      rw [List.cons_prefix_cons] at h
      obtain ⟨rfl, -⟩ := h
      exact absurd (List.mem_append_right p List.mem_cons_self) unused

/-- A text that stands neither in front of a character nor behind it, and does not use it, does not
stand across it. -/
theorem not_isInfix_append_cons {needle p t : Text} {c : Char} (unused : c ∉ needle)
    (front : ¬ needle <:+: p) (rest : ¬ needle <:+: t) : ¬ needle <:+: p ++ c :: t := by
  induction p with
  | nil =>
    intro inside
    rw [List.nil_append, List.infix_cons_iff] at inside
    rcases inside with first | later
    · have empty := isPrefix_of_isPrefix_append_cons (p := []) unused first
      exact front empty.isInfix
    · exact rest later
  | cons d p ih =>
    intro inside
    rw [List.cons_append, List.infix_cons_iff] at inside
    rcases inside with first | later
    · have within := isPrefix_of_isPrefix_append_cons (p := d :: p) unused first
      exact front within.isInfix
    · exact ih (fun found => front (found.trans (List.suffix_cons d p).isInfix)) later

/-! ## The first occurrence -/

theorem cut?_eq_some_of_isPrefix {needle t : Text} (nonempty : needle ≠ []) :
    cut? needle (needle ++ t) = some ([], t) := by
  cases needle with
  | nil => exact absurd rfl nonempty
  | cons c needle => rw [List.cons_append, cut?, ← List.cons_append, afterPrefix?_append]

theorem cut?_cons_of_not_isPrefix {needle t : Text} {c : Char} (h : ¬ needle <+: c :: t) :
    cut? needle (c :: t) = (cut? needle t).map fun (before, after) => (c :: before, after) := by
  rw [cut?, afterPrefix?_eq_none h]

/-- Whether a text contains another is whether the other is one of its infixes. -/
theorem contains_iff {needle t : Text} : contains needle t = true ↔ needle <:+: t := by
  constructor
  · intro h
    obtain ⟨⟨before, after⟩, found⟩ := Option.isSome_iff_exists.1 h
    exact ⟨before, after, (eq_append_of_cut? found).symm⟩
  · intro h
    induction t with
    | nil => rw [List.infix_nil.1 h]; rfl
    | cons c t ih =>
      by_cases front : needle <+: c :: t
      · obtain ⟨rest, whole⟩ := front
        rw [contains, cut?, afterPrefix?_eq_some_iff.2 whole.symm, Option.isSome_some]
      · rw [contains, cut?_cons_of_not_isPrefix front, Option.isSome_map]
        exact ih ((List.infix_cons_iff.1 h).resolve_left front)

theorem not_isInfix_of_contains_eq_false {needle t : Text} (h : contains needle t = false) :
    ¬ needle <:+: t := by
  intro inside
  rw [contains_iff.2 inside] at h
  exact Bool.noConfusion h

/-- A search passes over a part that does not hold the text, up to a character that the text does
not use. -/
theorem cut?_append_cons {needle p t : Text} {c : Char} (unused : c ∉ needle)
    (absent : ¬ needle <:+: p) :
    cut? needle (p ++ c :: t) =
      (cut? needle (c :: t)).map fun (before, after) => (p ++ before, after) := by
  induction p with
  | nil =>
    rw [List.nil_append]
    cases cut? needle (c :: t) <;> rfl
  | cons d p ih =>
    have front : ¬ needle <+: (d :: p) ++ c :: t := fun h =>
      absent (isPrefix_of_isPrefix_append_cons unused h).isInfix
    have later : ¬ needle <:+: p := fun h => absent (h.trans (List.suffix_cons d p).isInfix)
    rw [List.cons_append] at front ⊢
    rw [cut?_cons_of_not_isPrefix front, ih later]
    cases cut? needle (c :: t) <;> rfl

/-- A text behind a character that it does not use is found there, unless it occurs before. -/
theorem cut?_append_cons_append {needle p : Text} {c : Char} (unused : c ∉ needle)
    (nonempty : needle ≠ []) (absent : ¬ needle <:+: p) (t : Text) :
    cut? needle (p ++ c :: (needle ++ t)) = some (p ++ [c], t) := by
  have front : ¬ needle <+: c :: (needle ++ t) := fun h =>
    nonempty (List.prefix_nil.1 (isPrefix_of_isPrefix_append_cons (p := []) unused h))
  rw [cut?_append_cons unused absent, cut?_cons_of_not_isPrefix front,
    cut?_eq_some_of_isPrefix nonempty]
  rfl

/-- A character is found at the end of a part that does not hold it. -/
theorem cut?_singleton_of_not_mem {p t : Text} {c : Char} (absent : c ∉ p) :
    cut? [c] (p ++ ([c] ++ t)) = some (p, t) := by
  induction p with
  | nil => exact cut?_eq_some_of_isPrefix (List.cons_ne_nil c [])
  | cons d p ih =>
    have front : ¬ [c] <+: d :: (p ++ ([c] ++ t)) := by
      rw [List.cons_prefix_cons]
      rintro ⟨rfl, -⟩
      exact absent List.mem_cons_self
    rw [List.cons_append, cut?_cons_of_not_isPrefix front,
      ih fun later => absent (List.mem_cons_of_mem d later)]
    rfl

/-- A text is cut in one way where a character stands for the first time. -/
theorem append_cons_inj_of_fronts {a b a' b' : Text} {c : Char} (absent : c ∉ a) (absent' : c ∉ a')
    (same : a ++ c :: b = a' ++ c :: b') : a = a' ∧ b = b' := by
  have cut : cut? [c] (a ++ c :: b) = some (a, b) := cut?_singleton_of_not_mem absent
  have cut' : cut? [c] (a' ++ c :: b') = some (a', b') := cut?_singleton_of_not_mem absent'
  rw [same, cut'] at cut
  obtain ⟨rfl, rfl⟩ := Prod.mk.inj (Option.some.inj cut)
  exact ⟨rfl, rfl⟩

/-- No occurrence lies before the one that a search finds. -/
theorem length_le_of_cut? {needle t before after before' after' : Text}
    (found : cut? needle t = some (before, after)) (other : t = before' ++ needle ++ after') :
    before.length ≤ before'.length := by
  induction t generalizing before before' with
  | nil =>
    obtain ⟨rfl, -⟩ : before = [] ∧ after = [] := by
      rw [cut?] at found
      split at found
      · cases found; exact ⟨rfl, rfl⟩
      · cases found
    exact Nat.zero_le _
  | cons c t ih =>
    by_cases front : needle <+: c :: t
    · obtain ⟨rest, whole⟩ := front
      rw [cut?, afterPrefix?_eq_some_iff.2 whole.symm] at found
      cases found
      exact Nat.zero_le _
    · rw [cut?_cons_of_not_isPrefix front] at found
      obtain ⟨⟨b, a⟩, inner, same⟩ := Option.map_eq_some_iff.1 found
      cases same
      cases before' with
      | nil => exact absurd ⟨after', by rw [other, List.nil_append]⟩ front
      | cons d before' =>
        rw [List.cons_append, List.cons_append] at other
        exact Nat.succ_le_succ (ih inner (List.cons.inj other).2)

/-- A text shorter than what is searched for does not hold it. -/
theorem cut?_eq_none_of_length_lt {needle t : Text} (h : t.length < needle.length) :
    cut? needle t = none := by
  cases found : cut? needle t with
  | none => rfl
  | some p =>
    have whole := congrArg List.length (eq_append_of_cut? found)
    rw [List.length_append, List.length_append] at whole
    omega

/-! ## Trimming
-/

theorem trimEnd_isPrefix (t : Text) : trimEnd t <+: t :=
  ⟨takeEndWhile isBlank t, dropEndWhile_append_takeEndWhile isBlank t⟩

theorem trimStart_cons_of_isBlank {c : Char} {t : Text} (h : isBlank c = true) :
    trimStart (c :: t) = trimStart t := by
  rw [trimStart, List.dropWhile_cons_of_pos h, trimStart]

theorem trimStart_cons_of_not_isBlank {c : Char} {t : Text} (h : isBlank c = false) :
    trimStart (c :: t) = c :: t := by
  rw [trimStart, List.dropWhile_cons_of_neg (by rw [h]; exact Bool.false_ne_true)]

/-- What ends a text is dropped up to a character that is not of the class. -/
theorem dropEndWhile_append_cons {p : Char → Bool} {front t : Text} {c : Char} (h : p c = false) :
    (front ++ c :: t).dropEndWhile p = front ++ c :: t.dropEndWhile p := by
  have stops : ¬ p c = true := by
    rw [h]
    exact Bool.false_ne_true
  have dropped : (t.reverse ++ c :: front.reverse).dropWhile p =
      t.reverse.dropWhile p ++ c :: front.reverse := by
    rw [List.dropWhile_append]
    split
    · rename_i all
      rw [List.isEmpty_iff.1 all, List.dropWhile_cons_of_neg stops, List.nil_append]
    · rfl
  rw [dropEndWhile, List.reverse_append, List.reverse_cons, List.append_assoc,
    List.singleton_append, dropped, List.reverse_append, List.reverse_cons, List.reverse_reverse,
    List.append_assoc, List.singleton_append, dropEndWhile]

theorem dropEndWhile_append_singleton {p : Char → Bool} {t : Text} {c : Char} (h : p c = true) :
    (t ++ [c]).dropEndWhile p = t.dropEndWhile p := by
  rw [dropEndWhile, List.reverse_append, List.reverse_singleton, List.singleton_append,
    List.dropWhile_cons_of_pos h, dropEndWhile]

theorem dropEndWhile_eq_self {p : Char → Bool} {t : Text} (h : ∀ c ∈ t, p c = false) :
    t.dropEndWhile p = t := by
  rcases List.eq_nil_or_concat t with rfl | ⟨front, c, rfl⟩
  · rfl
  · rw [List.concat_eq_append] at h ⊢
    exact dropEndWhile_append_cons (h c (List.mem_append_right front (List.mem_singleton_self c)))

theorem trimEnd_append_of_isBlank {c : Char} {t : Text} (h : isBlank c = true) :
    trimEnd (t ++ [c]) = trimEnd t :=
  dropEndWhile_append_singleton h

theorem trimEnd_append_of_not_isBlank {c : Char} {t : Text} (h : isBlank c = false) :
    trimEnd (t ++ [c]) = t ++ [c] :=
  dropEndWhile_append_cons h

theorem trimStart_append_of_not_isBlank {c : Char} {t : Text} (h : isBlank c = false) :
    trimStart (t ++ [c]) = trimStart t ++ [c] := by
  rw [trimStart, List.dropWhile_append]
  split
  · rename_i blank
    rw [trimStart, List.isEmpty_iff.1 blank,
      List.dropWhile_cons_of_neg (by rw [h]; exact Bool.false_ne_true), List.nil_append]
  · rfl

theorem trim_append_brackets (t : Text) : (t ++ "[]").trim = t.trimStart ++ "[]" := by
  have start : (t ++ ['['] ++ [']']).trimStart = t.trimStart ++ ['['] ++ [']'] := by
    rw [trimStart_append_of_not_isBlank (by decide), trimStart_append_of_not_isBlank (by decide)]
  have whole : t ++ "[]" = t ++ ['['] ++ [']'] := (List.append_assoc t ['['] [']']).symm
  rw [whole, trim, start, trimEnd_append_of_not_isBlank (by decide)]
  exact List.append_assoc t.trimStart ['['] [']']

/-- A text without a blank at either end is trimmed. -/
theorem trim_eq_self_of_ends {t front rest : Text} {c d : Char} (first : isBlank c = false)
    (last : isBlank d = false) (head : t = c :: rest) (foot : t = front ++ [d]) : trim t = t := by
  rw [trim, head, trimStart_cons_of_not_isBlank first, ← head, foot,
    trimEnd_append_of_not_isBlank last]

end HarnessSynthesis.Text
