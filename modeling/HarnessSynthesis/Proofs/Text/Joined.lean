/-
# Joined texts

Pieces with separators between are one text, of which any beginning may be looked at. A beginning
that ends with a character of no separator ends inside of a piece: it is the pieces before and a
beginning of this one, joined in the same way.
-/

import HarnessSynthesis.Text.Basic

namespace HarnessSynthesis.Text

variable {separator : Text}

theorem join_cons_of_ne_nil {p : Text} {ps : List Text} (nonempty : ps ≠ []) :
    join separator (p :: ps) = p ++ (separator ++ join separator ps) := by
  obtain ⟨q, ps, rfl⟩ := List.exists_cons_of_ne_nil nonempty
  rw [join, List.append_assoc]
  exact nofun

theorem mem_of_mem_join {c : Char} {ps : List Text} (found : c ∈ join separator ps) :
    c ∈ separator ∨ ∃ p ∈ ps, c ∈ p := by
  induction ps with
  | nil => exact absurd found List.not_mem_nil
  | cons p ps ih =>
    by_cases last : ps = []
    · rw [last] at found
      exact Or.inr ⟨p, List.mem_cons_self, found⟩
    · rw [join_cons_of_ne_nil last, List.mem_append, List.mem_append] at found
      rcases found with inside | between | later
      · exact Or.inr ⟨p, List.mem_cons_self, inside⟩
      · exact Or.inl between
      · exact (ih later).imp_right fun ⟨q, hq, inside⟩ => ⟨q, List.mem_cons_of_mem p hq, inside⟩

theorem join_append_singleton_append (front : List Text) (p t : Text) :
    join separator (front ++ [p ++ t]) = join separator (front ++ [p]) ++ t := by
  induction front with
  | nil => rfl
  | cons q front ih =>
    rw [List.cons_append, List.cons_append, join_cons_of_ne_nil (by simp),
      join_cons_of_ne_nil (by simp), ih]
    simp only [List.append_assoc]

/-- A list with its last piece cut short is a beginning of every list that goes on with more. -/
theorem join_isPrefix (front : List Text) {cut p : Text} (short : cut <+: p) (back : List Text) :
    join separator (front ++ [cut]) <+: join separator (front ++ p :: back) := by
  induction front with
  | nil =>
    cases back with
    | nil => exact short
    | cons q back =>
      rw [List.nil_append, List.nil_append, join_cons_of_ne_nil (List.cons_ne_nil q back)]
      exact short.trans (List.prefix_append _ _)
  | cons r front ih =>
    rw [List.cons_append, List.cons_append, join_cons_of_ne_nil (by simp),
      join_cons_of_ne_nil (by simp), List.prefix_append_right_inj, List.prefix_append_right_inj]
    exact ih

theorem join_isPrefix_append (front back : List Text) :
    join separator front <+: join separator (front ++ back) := by
  rcases List.eq_nil_or_concat front with rfl | ⟨front, p, rfl⟩
  · exact List.nil_prefix
  · rw [List.concat_eq_append, List.append_assoc, List.singleton_append]
    exact join_isPrefix front (List.prefix_refl p) back

/-- What ends with a character and reaches beyond a text goes on behind it. -/
theorem exists_append_singleton_of_isPrefix {t p r : Text} {c : Char}
    (inside : t ++ [c] <+: p ++ r) (beyond : ¬ t ++ [c] <+: p) :
    ∃ t', t = p ++ t' ∧ t' ++ [c] <+: r := by
  rcases List.prefix_or_prefix_of_prefix inside (List.prefix_append p r) with short | ⟨t', whole⟩
  · exact absurd short beyond
  · rcases List.eq_nil_or_concat t' with rfl | ⟨t', d, rfl⟩
    · rw [List.append_nil] at whole
      exact absurd (whole ▸ List.prefix_refl p) beyond
    · rw [List.concat_eq_append, ← List.append_assoc] at whole
      obtain ⟨rfl, same⟩ := List.append_inj' whole rfl
      rw [List.append_assoc, List.prefix_append_right_inj] at inside
      exact ⟨t', rfl, inside⟩

/-- A beginning of a list that ends with a character which no separator has ends inside of a
piece. -/
theorem exists_of_isPrefix_join {c : Char} (unused : c ∉ separator) {ps : List Text} {t : Text}
    (inside : t ++ [c] <+: join separator ps) :
    ∃ front p back cut, ps = front ++ p :: back ∧ cut ++ [c] <+: p ∧
      t = join separator (front ++ [cut]) := by
  induction ps generalizing t with
  | nil => exact absurd (List.prefix_nil.1 inside) (by simp)
  | cons p ps ih =>
    by_cases short : t ++ [c] <+: p
    · exact ⟨[], p, ps, t, rfl, short, rfl⟩
    cases ps with
    | nil => exact absurd inside short
    | cons q ps =>
      rw [join_cons_of_ne_nil (List.cons_ne_nil q ps)] at inside
      obtain ⟨r, rfl, behind⟩ := exists_append_singleton_of_isPrefix inside short
      obtain ⟨t, rfl, further⟩ := exists_append_singleton_of_isPrefix behind fun h =>
        unused (h.subset (List.mem_append_right r (List.mem_singleton_self c)))
      obtain ⟨front, p', back, cut, same, ends, rfl⟩ := ih further
      refine ⟨p :: front, p', back, cut, by rw [same, List.cons_append], ends, ?_⟩
      rw [List.cons_append, join_cons_of_ne_nil (by simp)]

end HarnessSynthesis.Text
