/-
# Hits of a scanner

A scanner takes something off the head of a text and leaves the rest. As long as it does no more
than that, each of its hits is a place of the text that was searched: the text in front of the hit,
and behind it a text at which the scanner reads what was found.
-/

import Mathlib.Data.List.TakeWhile
import HarnessSynthesis.Proofs.Text.Search
import HarnessSynthesis.Proofs.Text.Trim
import HarnessSynthesis.Source.Scan

namespace HarnessSynthesis.Source

/-- Whether a scanner leaves the end of the text that it reads. -/
def Scanner.Takes {α : Type} (scan : Scanner α) : Prop :=
  ∀ {previous : Option Char} {t behind : Text} {found : α},
    scan previous t = some (found, behind) → behind <:+ t

section Hits

variable {α : Type} {scan : Scanner α} {hit : Hit α}

theorem occurrencesFrom_cons_of_none {passed t : Text} {c : Char}
    (none : scan passed.head? (c :: t) = none) :
    occurrencesFrom scan passed (c :: t) = occurrencesFrom scan (c :: passed) t := by
  rw [occurrencesFrom, none]

/-- Behind what a hit takes off the text the search goes on. -/
theorem occurrencesFrom_append_of_some {passed front behind : Text} {found : α}
    (nonempty : front ≠ []) (read : scan passed.head? (front ++ behind) = some (found, behind)) :
    occurrencesFrom scan passed (front ++ behind) =
      ⟨passed.reverse, found⟩ :: occurrencesFrom scan (front.reverse ++ passed) behind := by
  obtain ⟨c, front, rfl⟩ := List.exists_cons_of_ne_nil nonempty
  have shorter : behind.length ≤ (front ++ behind).length := by
    rw [List.length_append]
    exact Nat.le_add_left _ _
  have taken : (c :: (front ++ behind)).take ((front ++ behind).length + 1 - behind.length) =
      c :: front := by
    have size : (front ++ behind).length + 1 - behind.length = (c :: front).length := by
      rw [List.length_append, List.length_cons]
      omega
    rw [size, ← List.cons_append, List.take_left]
  rw [List.cons_append] at read ⊢
  rw [occurrencesFrom, read]
  simp only [if_pos shorter, taken]

theorem exists_of_mem_occurrencesFrom (takes : scan.Takes) {passed t : Text}
    (h : hit ∈ occurrencesFrom scan passed t) :
    ∃ rest behind, passed.reverse ++ t = hit.before ++ rest ∧
      scan hit.before.getLast? rest = some (hit.found, behind) := by
  fun_induction occurrencesFrom scan passed t with
  | case1 => cases h
  | case2 passed c rest found behind read shorter taken ih =>
    cases h with
    | head => exact ⟨c :: rest, behind, rfl, by rw [List.getLast?_reverse]; exact read⟩
    | tail _ later =>
      obtain ⟨rest', behind', whole, read'⟩ := ih later
      refine ⟨rest', behind', ?_, read'⟩
      have ending : behind = (c :: rest).drop (rest.length + 1 - behind.length) :=
        List.suffix_iff_eq_drop.1 (takes read)
      have cut : taken ++ behind = c :: rest :=
        (congrArg (taken ++ ·) ending).trans (List.take_append_drop _ _)
      rw [← whole, List.reverse_append, List.reverse_reverse, List.append_assoc, cut]
  | case3 passed c rest found behind read longer ih =>
    cases h with
    | head => exact ⟨c :: rest, behind, rfl, by rw [List.getLast?_reverse]; exact read⟩
    | tail _ later =>
      obtain ⟨rest', behind', whole, read'⟩ := ih later
      exact ⟨rest', behind', by rw [← whole, List.reverse_cons, List.append_assoc]; rfl, read'⟩
  | case4 passed c rest nothing ih =>
    obtain ⟨rest', behind', whole, read'⟩ := ih h
    exact ⟨rest', behind', by rw [← whole, List.reverse_cons, List.append_assoc]; rfl, read'⟩

/-- A hit is a place of the text: the scanner reads there what was found. -/
theorem exists_of_mem_occurrences (takes : scan.Takes) {t : Text} (h : hit ∈ occurrences scan t) :
    ∃ rest behind, t = hit.before ++ rest ∧
      scan hit.before.getLast? rest = some (hit.found, behind) :=
  exists_of_mem_occurrencesFrom takes h

theorem occurrencesFrom_ne_nil_iff (fails : ∀ previous, scan previous [] = none) (passed t : Text) :
    occurrencesFrom scan passed t ≠ [] ↔
      ∃ before rest, t = before ++ rest ∧
        (scan (before.reverse ++ passed).head? rest).isSome = true := by
  induction t generalizing passed with
  | nil =>
    rw [occurrencesFrom]
    refine iff_of_false (fun h => h rfl) ?_
    rintro ⟨before, rest, whole, found⟩
    obtain ⟨rfl, rfl⟩ := List.append_eq_nil_iff.1 whole.symm
    rw [fails] at found
    cases found
  | cons c t ih =>
    cases read : scan passed.head? (c :: t) with
    | some hit =>
      refine iff_of_true ?_ ⟨[], c :: t, rfl, by rw [List.reverse_nil, List.nil_append, read]; rfl⟩
      rw [occurrencesFrom, read]
      dsimp only
      split <;> exact List.cons_ne_nil _ _
    | none =>
      rw [occurrencesFrom, read]
      dsimp only
      rw [ih]
      constructor
      · rintro ⟨before, rest, rfl, found⟩
        refine ⟨c :: before, rest, rfl, ?_⟩
        rw [List.reverse_cons, List.append_assoc]
        exact found
      · rintro ⟨before, rest, whole, found⟩
        cases before with
        | nil =>
          rw [List.nil_append] at whole
          rw [← whole, List.reverse_nil, List.nil_append, read] at found
          cases found
        | cons d before =>
          obtain ⟨rfl, behind⟩ := List.cons.inj whole
          refine ⟨before, rest, behind, ?_⟩
          rw [List.reverse_cons, List.append_assoc] at found
          exact found

/-- A scanner that needs something to read hits a text when it reads something at a place of it. -/
theorem occurs_iff (fails : ∀ previous, scan previous [] = none) (t : Text) :
    occurs scan t = true ↔
      ∃ before rest, t = before ++ rest ∧ (scan before.getLast? rest).isSome = true := by
  rw [occurs, Bool.not_eq_true', List.isEmpty_eq_false_iff, occurrences,
    occurrencesFrom_ne_nil_iff fails]
  simp only [List.append_nil, List.head?_reverse]

/-- A search passes over a part in which the scanner reads nothing. -/
theorem occurrencesFrom_append_of_none {passed front t : Text}
    (none : ∀ u v, front = u ++ v → v ≠ [] → scan (u.reverse ++ passed).head? (v ++ t) = none) :
    occurrencesFrom scan passed (front ++ t) =
      occurrencesFrom scan (front.reverse ++ passed) t := by
  induction front generalizing passed with
  | nil => rfl
  | cons c front ih =>
    have first : scan passed.head? (c :: (front ++ t)) = Option.none :=
      none [] (c :: front) rfl (List.cons_ne_nil c front)
    rw [List.cons_append, occurrencesFrom_cons_of_none first, ih fun u v whole more => ?_]
    · rw [List.reverse_cons, List.append_assoc, List.singleton_append]
    · have further := none (c :: u) v (by rw [whole, List.cons_append]) more
      rwa [List.reverse_cons, List.append_assoc, List.singleton_append] at further

/-! ### Scanners up to a mark -/

/-- Whether a scanner reads nothing in texts without a mark. -/
def Scanner.Needs (mark : Char) (scan : Scanner α) : Prop :=
  ∀ {t : Text}, mark ∉ t → ∀ previous, scan previous t = none

theorem Scanner.Needs.occurrencesFrom_eq_nil {mark : Char} (needs : scan.Needs mark) {t : Text}
    (absent : mark ∉ t) (passed : Text) : occurrencesFrom scan passed t = [] := by
  have nothing : occurrencesFrom scan passed (t ++ []) =
      occurrencesFrom scan (t.reverse ++ passed) [] := by
    refine occurrencesFrom_append_of_none fun u v whole _ => needs (fun mem => absent ?_) _
    rw [List.append_nil] at mem
    exact whole ▸ List.mem_append_right u mem
  rw [List.append_nil] at nothing
  rw [nothing, occurrencesFrom]

/-- Whether a scanner reads up to a mark and leaves what is behind it. -/
def Scanner.ReadsTo (mark : Char) (scan : Scanner α) : Prop :=
  ∀ {previous : Option Char} {t behind : Text} {found : α},
    scan previous t = some (found, behind) → ∃ taken, t = taken ++ mark :: behind

theorem Scanner.ReadsTo.takes {mark : Char} (reads : scan.ReadsTo mark) : scan.Takes := by
  intro previous t behind found h
  obtain ⟨taken, rfl⟩ := reads h
  exact (List.suffix_cons mark behind).trans (List.suffix_append _ _)

theorem Scanner.ReadsTo.needs {mark : Char} (reads : scan.ReadsTo mark) : scan.Needs mark := by
  intro t absent previous
  refine Option.eq_none_iff_forall_ne_some.2 fun ⟨found, behind⟩ h => ?_
  obtain ⟨taken, rfl⟩ := reads h
  exact absent (List.mem_append_right taken List.mem_cons_self)

/-- A mark that stands in a text only once stands at one place. -/
theorem append_cons_inj_of_not_mem {mark : Char} {a b a' b' : Text} (front : mark ∉ a)
    (rest : mark ∉ b) (same : a ++ mark :: b = a' ++ mark :: b') : a = a' ∧ b = b' := by
  rcases Text.append_eq_append_cons same with ⟨more, rfl, -⟩ | ⟨more, rfl, behind⟩
  · exact absurd (List.mem_append_right a' List.mem_cons_self) front
  · cases more with
    | nil => exact ⟨(List.append_nil a).symm, (List.cons.inj behind).2⟩
    | cons c more =>
      obtain ⟨-, rfl⟩ := List.cons.inj behind
      exact absurd (List.mem_append_right more List.mem_cons_self) rest

/-- Where the mark stands only once, a hit is read from a place in front of it. -/
theorem Scanner.ReadsTo.exists_of_mem {mark : Char} (reads : scan.ReadsTo mark) {front rest : Text}
    (noFront : mark ∉ front) (noRest : mark ∉ rest)
    (h : hit ∈ occurrences scan (front ++ mark :: rest)) :
    ∃ taken, front = hit.before ++ taken ∧
      scan hit.before.getLast? (taken ++ mark :: rest) = some (hit.found, rest) := by
  obtain ⟨text, behind, whole, read⟩ := exists_of_mem_occurrences reads.takes h
  obtain ⟨taken, rfl⟩ := reads read
  rw [← List.append_assoc] at whole
  obtain ⟨rfl, rfl⟩ := append_cons_inj_of_not_mem noFront noRest whole
  exact ⟨taken, rfl, read⟩

/-- A scanner that reads from a place up to the only mark, and from no earlier one, hits just
there. -/
theorem Scanner.ReadsTo.occurrences_eq {mark : Char} (reads : scan.ReadsTo mark)
    {front taken rest : Text} {found : α} (noRest : mark ∉ rest)
    (earlier : ∀ u v, front = u ++ v → v ≠ [] →
      scan u.getLast? (v ++ (taken ++ mark :: rest)) = none)
    (read : scan front.getLast? (taken ++ mark :: rest) = some (found, rest)) :
    occurrences scan (front ++ (taken ++ mark :: rest)) = [⟨front, found⟩] := by
  rw [occurrences, occurrencesFrom_append_of_none fun u v whole more => by
    rw [List.append_nil, List.head?_reverse]; exact earlier u v whole more]
  rw [← List.head?_reverse, ← List.append_nil front.reverse] at read
  have split : taken ++ mark :: rest = (taken ++ [mark]) ++ rest := by
    rw [List.append_assoc, List.singleton_append]
  rw [split] at read ⊢
  have needs : scan.Needs mark := reads.needs
  rw [occurrencesFrom_append_of_some (by simp) read, needs.occurrencesFrom_eq_nil noRest,
    List.append_nil, List.reverse_reverse]

/-! ### Scanners at the start of a line -/

/-- Whether a scanner reads nothing within a line. -/
def Scanner.BeginsLines (scan : Scanner α) : Prop :=
  ∀ {previous : Option Char}, lineBegins previous = false → ∀ t, scan previous t = none

/-- A search passes over the rest of a line. -/
theorem Scanner.BeginsLines.occurrencesFrom_append (begins : scan.BeginsLines) {passed line : Text}
    (inLine : lineBegins passed.head? = false) (noFeed : '\n' ∉ line) (t : Text) :
    occurrencesFrom scan passed (line ++ t) = occurrencesFrom scan (line.reverse ++ passed) t := by
  induction line generalizing passed with
  | nil => rfl
  | cons c line ih =>
    have inside : lineBegins (c :: passed).head? = false := by
      have other : c ≠ '\n' := fun same => noFeed (same ▸ List.mem_cons_self)
      simp [lineBegins, other]
    rw [List.cons_append, occurrencesFrom_cons_of_none (begins inLine _),
      ih inside fun found => noFeed (List.mem_cons_of_mem c found), List.reverse_cons,
      List.append_assoc, List.singleton_append]

end Hits

/-! ## What readers leave -/

theorem suffix_of_afterPrefix? {start t rest : Text} (h : Text.afterPrefix? start t = some rest) :
    rest <:+ t :=
  ⟨start, (Text.afterPrefix?_eq_some_iff.1 h).symm⟩

theorem suffix_of_inlineBlanks? {t rest : Text} (h : inlineBlanks? t = some rest) : rest <:+ t := by
  cases t with
  | nil => cases h
  | cons c t =>
    rw [inlineBlanks?] at h
    split at h
    · cases h
      exact (List.dropWhile_suffix _).trans (List.suffix_cons c t)
    · cases h

/-- A name and the text behind it are the text that was read. -/
theorem eq_append_of_name? {first others : Char → Bool} {t name rest : Text}
    (h : name? first others t = some (name, rest)) : t = name ++ rest := by
  cases t with
  | nil => cases h
  | cons c t =>
    rw [name?] at h
    split at h
    · cases h
      rw [List.cons_append, List.takeWhile_append_dropWhile]
    · cases h

/-- Whether a text is a name by the class of its first character and the class of the others. -/
def IsName (first others : Char → Bool) (name : Text) : Prop :=
  ∃ c more, name = c :: more ∧ first c = true ∧ ∀ d ∈ more, others d = true

theorem isName_of_name? {first others : Char → Bool} {t name rest : Text}
    (h : name? first others t = some (name, rest)) : IsName first others name := by
  cases t with
  | nil => cases h
  | cons c t =>
    rw [name?] at h
    split at h
    · rename_i starts
      cases h
      exact ⟨c, _, rfl, starts, fun d mem => List.mem_takeWhile_imp mem⟩
    · cases h

theorem isWordChar_of_isName {name : Text} (word : IsName Text.isNameStart Text.isWordChar name) :
    ∀ c ∈ name, Text.isWordChar c = true := by
  obtain ⟨c, more, rfl, starts, others⟩ := word
  exact List.forall_mem_cons.2 ⟨Text.isWordChar_of_isNameStart starts, others⟩

/-- A name is read up to a character that no name goes over. -/
theorem IsName.name?_append_cons {first others : Char → Bool} {name : Text}
    (named : IsName first others name) {c : Char} (stops : others c = false) (t : Text) :
    name? first others (name ++ c :: t) = some (name, c :: t) := by
  obtain ⟨d, more, rfl, starts, goesOn⟩ := named
  have fails : ¬ others c = true := by
    rw [stops]
    exact Bool.false_ne_true
  rw [List.cons_append, name?, if_pos starts, List.takeWhile_append_of_pos goesOn,
    List.takeWhile_cons_of_neg fails, List.append_nil, List.dropWhile_append_of_pos goesOn,
    List.dropWhile_cons_of_neg fails]

end HarnessSynthesis.Source
