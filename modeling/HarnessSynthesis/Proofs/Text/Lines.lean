/-
# Lines

A text is its pieces between line feeds, joined by line feeds again. Its lines are these pieces
without the carriage returns in front of line feeds, and without an empty piece behind the last
line feed.
-/

import HarnessSynthesis.Proofs.Text.Joined
import HarnessSynthesis.Proofs.Text.Search
import HarnessSynthesis.Proofs.Text.Words

namespace HarnessSynthesis.Text

/-! ## Splitting and joining -/

section Separator

variable {separator : Char}

theorem splitWhere_of_not_mem {t : Text} (absent : separator ∉ t) :
    splitWhere (· == separator) t = [t] := by
  induction t with
  | nil => rfl
  | cons c t ih =>
    rw [List.mem_cons, not_or] at absent
    have other : ¬ (c == separator) = true := fun same => absent.1 (beq_iff_eq.1 same).symm
    rw [splitWhere, if_neg other, ih absent.2]

/-- Splitting a joined text gives the pieces back. -/
theorem splitWhere_join {ps : List Text} (nonempty : ps ≠ []) (absent : ∀ p ∈ ps, separator ∉ p) :
    splitWhere (· == separator) (join [separator] ps) = ps := by
  induction ps with
  | nil => exact absurd rfl nonempty
  | cons p ps ih =>
    rw [List.forall_mem_cons] at absent
    by_cases last : ps = []
    · rw [last, join, splitWhere_of_not_mem absent.1]
    · rw [join_cons_of_ne_nil last, List.singleton_append,
        splitWhere_append_cons (p := (· == separator)) (beq_self_eq_true separator),
        splitWhere_of_not_mem absent.1, ih last absent.2, List.singleton_append]

/-- Joining the pieces of a text gives the text back. -/
theorem join_splitWhere (t : Text) : join [separator] (splitWhere (· == separator) t) = t := by
  induction t with
  | nil => rfl
  | cons c t ih =>
    by_cases same : (c == separator) = true
    · rw [splitWhere, if_pos same, join_cons_of_ne_nil (splitWhere_ne_nil t), ih, beq_iff_eq.1 same]
      rfl
    · rw [splitWhere, if_neg same]
      have nonempty : splitWhere (· == separator) t ≠ [] := splitWhere_ne_nil t
      obtain ⟨p, ps, pieces⟩ := List.exists_cons_of_ne_nil nonempty
      rw [pieces] at ih ⊢
      rw [← ih]
      cases ps with
      | nil => rfl
      | cons q ps =>
        have more : q :: ps ≠ [] := List.cons_ne_nil q ps
        rw [join_cons_of_ne_nil more, join_cons_of_ne_nil more]
        rfl

theorem not_mem_of_mem_pieces {t piece : Text} (h : piece ∈ splitWhere (· == separator) t) :
    separator ∉ piece :=
  fun mem => beq_eq_false_iff_ne.1 (not_of_mem_splitWhere h separator mem) rfl

/-- As many pieces without separators make the same text only if they are the same. -/
theorem join_inj {ps qs : List Text} (size : ps.length = qs.length)
    (absent : ∀ p ∈ ps, separator ∉ p) (absent' : ∀ q ∈ qs, separator ∉ q) :
    join [separator] ps = join [separator] qs ↔ ps = qs := by
  refine ⟨fun same => ?_, congrArg (join [separator])⟩
  by_cases empty : ps = []
  · rw [empty, List.length_nil] at size
    rw [empty, List.length_eq_zero_iff.1 size.symm]
  · have empty' : qs ≠ [] := by
      rintro rfl
      exact empty (List.length_eq_zero_iff.1 size)
    rw [← splitWhere_join empty absent, same, splitWhere_join empty' absent']

end Separator

/-! ## Ends of lines -/

/-- A line without the carriage return that is part of its end. -/
def withoutReturn (line : Text) : Text :=
  (beforeSuffix? ['\r'] line).getD line

theorem withoutReturn_cases (line : Text) :
    (withoutReturn line = line ∧ ¬ ['\r'] <:+ line) ∨ line = withoutReturn line ++ ['\r'] := by
  rw [withoutReturn]
  cases found : beforeSuffix? ['\r'] line with
  | none =>
    refine Or.inl ⟨rfl, ?_⟩
    rintro ⟨rest, whole⟩
    rw [beforeSuffix?_eq_some_iff.2 whole.symm] at found
    cases found
  | some rest => exact Or.inr (beforeSuffix?_eq_some_iff.1 found)

theorem blank_return : Blank ['\r'] :=
  blank_cons.2 ⟨by decide, blank_nil⟩

theorem trimEnd_withoutReturn (line : Text) : trimEnd (withoutReturn line) = trimEnd line := by
  rcases withoutReturn_cases line with ⟨same, -⟩ | whole
  · rw [same]
  · exact (trimEnd_append_of_blank blank_return _).symm.trans (congrArg trimEnd whole.symm)

theorem trim_withoutReturn (line : Text) : trim (withoutReturn line) = trim line := by
  rcases withoutReturn_cases line with ⟨same, -⟩ | whole
  · rw [same]
  · exact (trim_append_of_blank_right blank_return _).symm.trans (congrArg trim whole.symm)

/-- The lines among the pieces of a text, each as it stands in front of its line feed and without
the end of the line. -/
def endedLines : List Text → List (Text × Text)
  | [] => []
  | [last] => if last = [] then [] else [(last, last)]
  | ended :: pieces => (ended, withoutReturn ended) :: endedLines pieces

theorem endedLines_cons {pieces : List Text} (ended : Text) (more : pieces ≠ []) :
    endedLines (ended :: pieces) = (ended, withoutReturn ended) :: endedLines pieces := by
  rw [endedLines]
  exact more

theorem endedLines_append_singleton (pieces : List Text) (last : Text) :
    (endedLines (pieces ++ [last])).map Prod.snd =
      pieces.map withoutReturn ++ (if last = [] then [] else [last]) := by
  induction pieces with
  | nil =>
    rw [List.nil_append, endedLines]
    split <;> rfl
  | cons ended pieces ih =>
    rw [List.cons_append, endedLines_cons ended (by simp), List.map_cons, ih]
    rfl

theorem lines_eq (t : Text) : lines t = (endedLines (splitWhere (· == '\n') t)).map Prod.snd := by
  obtain ⟨pieces, last, whole⟩ :=
    (List.eq_nil_or_concat (splitWhere (· == '\n') t)).resolve_left (splitWhere_ne_nil t)
  rw [List.concat_eq_append] at whole
  rw [whole, endedLines_append_singleton, lines, whole, List.reverse_append,
    List.reverse_singleton, List.singleton_append]
  show pieces.reverse.reverse.map withoutReturn ++ _ = _
  rw [List.reverse_reverse]

theorem mem_endedLines {pieces : List Text} {ended line : Text}
    (h : (ended, line) ∈ endedLines pieces) :
    ended ∈ pieces ∧ (ended = line ∨ ended = line ++ ['\r']) := by
  induction pieces with
  | nil => cases h
  | cons piece pieces ih =>
    by_cases more : pieces = []
    · rw [more, endedLines] at h
      split at h
      · cases h
      · cases List.mem_singleton.1 h
        exact ⟨List.mem_cons_self, Or.inl rfl⟩
    · rw [endedLines_cons piece more] at h
      rcases List.mem_cons.1 h with first | later
      · cases first
        exact ⟨List.mem_cons_self, (withoutReturn_cases ended).imp (fun same => same.1.symm) id⟩
      · exact (ih later).imp_left (List.mem_cons_of_mem piece)

theorem not_mem_of_mem_lines {t line : Text} (h : line ∈ lines t) : '\n' ∉ line := by
  rw [lines_eq] at h
  obtain ⟨⟨ended, _⟩, mem, rfl⟩ := List.mem_map.1 h
  obtain ⟨piece, ends⟩ := mem_endedLines mem
  intro found
  refine not_mem_of_mem_pieces piece ?_
  rcases ends with rfl | whole
  · exact found
  · exact whole ▸ List.mem_append_left _ found

/-! ## Lines without trailing blanks -/

/-- A text without the blanks at the ends of its lines. -/
def trimLines (t : Text) : Text :=
  join ['\n'] ((splitWhere (· == '\n') t).map trimEnd)

theorem trimLines_join {ps : List Text} (absent : ∀ p ∈ ps, '\n' ∉ p) :
    trimLines (join ['\n'] ps) = join ['\n'] (ps.map trimEnd) := by
  by_cases empty : ps = []
  · rw [empty]
    rfl
  · rw [trimLines, splitWhere_join empty absent]

theorem not_mem_map_trimEnd {c : Char} {ps : List Text} (absent : ∀ p ∈ ps, c ∉ p) :
    ∀ p ∈ ps.map trimEnd, c ∉ p := by
  intro p mem
  obtain ⟨q, mem', rfl⟩ := List.mem_map.1 mem
  exact fun found => absent q mem' ((trimEnd_isPrefix q).subset found)

end HarnessSynthesis.Text
