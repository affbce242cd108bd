/-
# Steps between regions

A step of the scan for comments depends on the region, on the character and on at most two
characters ahead. `Step` lists every step there is with the conditions under which it is taken, so
that facts about the scan are proved step by step without opening its definition again.
-/

import HarnessSynthesis.Source.Comments

namespace HarnessSynthesis.Source

/-- The steps of a scan from a region at a character with a text behind it. -/
inductive Step (l : Language) : Region → Char → Text → Bool → Region → Prop where
  /-- A string in triple quotes opens. -/
  | openTriple {q : Char} {t : Text} (delimits : isDelimiter l q = true) (python : l = .python)
      (ahead : Text.startsWith [q, q] t = true) :
      Step l .code q t false (.mark (.mark (.triple q)))
  | openQuoted {q : Char} {t : Text} (delimits : isDelimiter l q = true)
      (single : ¬ (l = .python ∧ Text.startsWith [q, q] t = true)) :
      Step l .code q t true (.quoted q)
  | openHash {t : Text} (python : l = .python) : Step l .code '#' t false .lineComment
  | openLine {t : Text} (other : l ≠ .python) (ahead : t.head? = some '/') :
      Step l .code '/' t false (.mark .lineComment)
  | openBlock {t : Text} (other : l ≠ .python) (ahead : t.head? = some '*') :
      Step l .code '/' t false (.mark .blockComment)
  /-- Nothing opens. -/
  | code {c : Char} {t : Text} (plain : ¬ isDelimiter l c = true)
      (noHash : ¬ (l = .python ∧ c = '#'))
      (noSlash : ¬ (l ≠ .python ∧ c = '/' ∧ (t.head? = some '/' ∨ t.head? = some '*'))) :
      Step l .code c t true .code
  | closeLine {t : Text} : Step l .lineComment '\n' t true .code
  | lineComment {c : Char} {t : Text} (inside : c ≠ '\n') :
      Step l .lineComment c t false .lineComment
  | closeBlock {t : Text} (ahead : t.head? = some '/') :
      Step l .blockComment '*' t false (.mark .code)
  | blockComment {c : Char} {t : Text} (inside : ¬ (c = '*' ∧ t.head? = some '/')) :
      Step l .blockComment c t false .blockComment
  | escapeQuoted {q : Char} {t : Text} : Step l (.quoted q) '\\' t true (.escaped q)
  | closeQuoted {q c : Char} {t : Text} (plain : c ≠ '\\')
      (closes : c = q ∨ (c = '\n' ∧ q ≠ '`')) : Step l (.quoted q) c t true .code
  | quoted {q c : Char} {t : Text} (plain : c ≠ '\\')
      (inside : ¬ (c = q ∨ (c = '\n' ∧ q ≠ '`'))) : Step l (.quoted q) c t true (.quoted q)
  | escaped {q c : Char} {t : Text} : Step l (.escaped q) c t true (.quoted q)
  | escapeTriple {q : Char} {t : Text} : Step l (.triple q) '\\' t false (.tripleEscaped q)
  | closeTriple {q : Char} {t : Text} (plain : q ≠ '\\')
      (ahead : Text.startsWith [q, q] t = true) : Step l (.triple q) q t false (.mark (.mark .code))
  | triple {q c : Char} {t : Text} (plain : c ≠ '\\')
      (inside : ¬ (c = q ∧ Text.startsWith [q, q] t = true)) :
      Step l (.triple q) c t false (.triple q)
  | tripleEscaped {q c : Char} {t : Text} : Step l (.tripleEscaped q) c t false (.triple q)
  | mark {next : Region} {c : Char} {t : Text} : Step l (.mark next) c t false next

theorem not_isDelimiter_of_mem {l : Language} {c : Char}
    (h : c ∈ ['#', '/', '*', ' ', '\n']) : ¬ isDelimiter l c = true := by
  simp only [List.mem_cons, List.not_mem_nil, or_false] at h
  rcases h with rfl | rfl | rfl | rfl | rfl <;> cases l <;> decide

/-- Nothing opens at a space or at the end of a line. -/
theorem step_code_blank {l : Language} {c : Char} (h : c = ' ' ∨ c = '\n') (t : Text) :
    Step l .code c t true .code := by
  rcases h with rfl | rfl
  · exact .code (not_isDelimiter_of_mem (by decide)) (fun hash => by cases hash.2)
      (fun slash => by cases slash.2.1)
  · exact .code (not_isDelimiter_of_mem (by decide)) (fun hash => by cases hash.2)
      (fun slash => by cases slash.2.1)

/-- The step that is taken is the one that the list gives. -/
theorem Step.step_eq {l : Language} {region next : Region} {c : Char} {t : Text} {kept : Bool}
    (h : Step l region c t kept next) : region.step l c t = (kept, next) := by
  cases h with
  | openTriple delimits python ahead =>
    rw [Region.step, if_pos delimits, if_pos ⟨python, ahead⟩]
  | openQuoted delimits single => rw [Region.step, if_pos delimits, if_neg single]
  | openHash python =>
    rw [Region.step, if_neg (not_isDelimiter_of_mem (by decide)), if_pos python, if_pos rfl]
  | openLine other ahead =>
    rw [Region.step, if_neg (not_isDelimiter_of_mem (by decide)), if_neg other,
      if_pos ⟨rfl, ahead⟩]
  | openBlock other ahead =>
    have noLine : ¬ ('/' = '/' ∧ t.head? = some '/') := by
      rw [ahead]
      decide
    rw [Region.step, if_neg (not_isDelimiter_of_mem (by decide)), if_neg other, if_neg noLine,
      if_pos ⟨rfl, ahead⟩]
  | code plain noHash noSlash =>
    rw [Region.step, if_neg plain]
    split
    · rename_i python
      exact if_neg fun hash => noHash ⟨python, hash⟩
    · rename_i other
      rw [if_neg fun found => noSlash ⟨other, found.1, .inl found.2⟩,
        if_neg fun found => noSlash ⟨other, found.1, .inr found.2⟩]
  | closeLine => rfl
  | lineComment inside => exact if_neg inside
  | closeBlock ahead => exact if_pos ⟨rfl, ahead⟩
  | blockComment inside => exact if_neg inside
  | escapeQuoted => rfl
  | closeQuoted plain closes => rw [Region.step, if_neg plain, if_pos closes]
  | quoted plain inside => rw [Region.step, if_neg plain, if_neg inside]
  | escaped => rfl
  | escapeTriple => rfl
  | closeTriple plain ahead => rw [Region.step, if_neg plain, if_pos ⟨rfl, ahead⟩]
  | triple plain inside => rw [Region.step, if_neg plain, if_neg inside]
  | tripleEscaped => rfl
  | mark => rfl

theorem step_code (l : Language) (c : Char) (t : Text) :
    ∃ kept next, Step l .code c t kept next := by
  by_cases delimits : isDelimiter l c = true
  · by_cases three : l = .python ∧ Text.startsWith [c, c] t = true
    · exact ⟨_, _, .openTriple delimits three.1 three.2⟩
    · exact ⟨_, _, .openQuoted delimits three⟩
  · by_cases hash : l = .python ∧ c = '#'
    · obtain ⟨python, rfl⟩ := hash
      exact ⟨_, _, .openHash python⟩
    · by_cases slash : l ≠ .python ∧ c = '/' ∧ (t.head? = some '/' ∨ t.head? = some '*')
      · obtain ⟨other, rfl, line | block⟩ := slash
        · exact ⟨_, _, .openLine other line⟩
        · exact ⟨_, _, .openBlock other block⟩
      · exact ⟨_, _, .code delimits hash slash⟩

/-- From every region a step is taken. -/
theorem exists_step (l : Language) (region : Region) (c : Char) (t : Text) :
    ∃ kept next, Step l region c t kept next := by
  cases region with
  | code => exact step_code l c t
  | lineComment =>
    by_cases ends : c = '\n'
    · subst ends
      exact ⟨_, _, .closeLine⟩
    · exact ⟨_, _, .lineComment ends⟩
  | blockComment =>
    by_cases ends : c = '*' ∧ t.head? = some '/'
    · obtain ⟨rfl, ahead⟩ := ends
      exact ⟨_, _, .closeBlock ahead⟩
    · exact ⟨_, _, .blockComment ends⟩
  | quoted q =>
    by_cases escapes : c = '\\'
    · subst escapes
      exact ⟨_, _, .escapeQuoted⟩
    · by_cases ends : c = q ∨ (c = '\n' ∧ q ≠ '`')
      · exact ⟨_, _, .closeQuoted escapes ends⟩
      · exact ⟨_, _, .quoted escapes ends⟩
  | escaped q => exact ⟨_, _, .escaped⟩
  | triple q =>
    by_cases escapes : c = '\\'
    · subst escapes
      exact ⟨_, _, .escapeTriple⟩
    · by_cases ends : c = q ∧ Text.startsWith [q, q] t = true
      · obtain ⟨rfl, ahead⟩ := ends
        exact ⟨_, _, .closeTriple escapes ahead⟩
      · exact ⟨_, _, .triple escapes ends⟩
  | tripleEscaped q => exact ⟨_, _, .tripleEscaped⟩
  | mark next => exact ⟨_, _, .mark⟩

theorem Step.stripFrom_eq {l : Language} {region next : Region} {c : Char} {t : Text} {kept : Bool}
    (h : Step l region c t kept next) :
    stripFrom l region (c :: t) = (if kept then [c] else blank c) ++ stripFrom l next t :=
  stripFrom_cons h.step_eq

end HarnessSynthesis.Source
