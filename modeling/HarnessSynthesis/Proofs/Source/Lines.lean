/-
# Stripping line by line

No mark reaches over the end of a line. So a scan for comments goes line by line: each line is
stripped from the region in which the scan comes to it, and nothing but this region is handed on to
the next one. Python, whose triple quotes look further ahead, is left out.
-/

import HarnessSynthesis.Proofs.Source.CommentText
import HarnessSynthesis.Proofs.Source.Places
import HarnessSynthesis.Proofs.Text.Lines

namespace HarnessSynthesis.Source

open Text (join)

variable {l : Language} {region : Region}

/-! ## Scanning in two parts -/

/-- A text that completes no mark of what stands in front of it. -/
def Apart (t : Text) : Prop :=
  ∀ d ∈ ['/', '*'], t.head? ≠ some d

theorem Apart.ahead {t : Text} (apart : Apart t) (s : Text) :
    ∀ d ∈ ['/', '*'], (s ++ t).head? = some d ↔ s.head? = some d := by
  intro d mark
  cases s with
  | nil => exact iff_of_false (apart d mark) nofun
  | cons c s => exact Iff.rfl

theorem apart_cons {c : Char} (other : c ∉ ['/', '*']) (t : Text) : Apart (c :: t) := by
  rintro d mark found
  cases found
  exact other mark

/-- By induction on the first part, whose steps do not look into the second one. -/
theorem stripFrom_append_apart (other : l ≠ .python) (belongs : region.Belongs l) (s : Text)
    {t : Text} (apart : Apart t) :
    stripFrom l region (s ++ t) = stripFrom l region s ++ stripFrom l (regionAfter l region s) t ∧
      regionAfter l region (s ++ t) = regionAfter l (regionAfter l region s) t := by
  induction s generalizing region with
  | nil => exact ⟨rfl, rfl⟩
  | cons c s ih =>
    obtain ⟨kept, next, step⟩ := exists_step l region c s
    have ahead := step.of_ahead other belongs (apart.ahead s)
    obtain ⟨text, after⟩ := ih (step.belongs belongs)
    constructor
    · rw [List.cons_append, ahead.stripFrom_eq, step.stripFrom_eq, step.regionAfter_eq, text,
        List.append_assoc]
    · rw [List.cons_append, ahead.regionAfter_eq, step.regionAfter_eq, after]

theorem belongs_regionAfter (belongs : region.Belongs l) (t : Text) :
    (regionAfter l region t).Belongs l := by
  induction t generalizing region with
  | nil => exact belongs
  | cons c t ih =>
    obtain ⟨kept, next, step⟩ := exists_step l region c t
    rw [step.regionAfter_eq]
    exact ih (step.belongs belongs)

/-! ## Lines -/

/-- The region in which a scan comes to the line behind another one. -/
def afterLine (l : Language) (region : Region) (line : Text) : Region :=
  regionAfter l region (line ++ ['\n'])

theorem belongs_afterLine (belongs : region.Belongs l) (line : Text) :
    (afterLine l region line).Belongs l :=
  belongs_regionAfter belongs _

/-- Whatever stands on the next line, the end of a line is the same step. -/
theorem Step.endLine {next : Region} {kept : Bool} {t : Text} (other : l ≠ .python)
    (belongs : region.Belongs l) (h : Step l region '\n' [] kept next) :
    Step l region '\n' t kept next := by
  cases h with
  | openTriple _ python => exact absurd python other
  | openQuoted delimits => exact absurd delimits (not_isDelimiter_of_mem (by decide))
  | code plain noHash => exact .code plain noHash fun found => by cases found.2.1
  | closeLine => exact .closeLine
  | blockComment => exact .blockComment fun found => by cases found.1
  | closeQuoted plain closes => exact .closeQuoted plain closes
  | quoted plain inside => exact .quoted plain inside
  | escaped => exact .escaped
  | closeTriple => exact absurd belongs other
  | triple => exact absurd belongs other
  | tripleEscaped => exact .tripleEscaped
  | mark => exact .mark
  | lineComment inside => exact absurd rfl inside

theorem stripFrom_line (other : l ≠ .python) (belongs : region.Belongs l) (line t : Text) :
    stripFrom l region (line ++ '\n' :: t) =
      stripFrom l region line ++ '\n' :: stripFrom l (afterLine l region line) t := by
  have apart (t : Text) : Apart ('\n' :: t) := apart_cons (by decide) t
  obtain ⟨text, -⟩ := stripFrom_append_apart other belongs line (apart t)
  obtain ⟨-, after⟩ := stripFrom_append_apart other belongs line (apart [])
  obtain ⟨kept, next, step⟩ := exists_step l (regionAfter l region line) '\n' []
  have same : afterLine l region line = next := by
    rw [afterLine, after, step.regionAfter_eq]
    rfl
  rw [text, (step.endLine other (belongs_regionAfter belongs line)).stripFrom_eq, same]
  cases kept <;> rfl

/-- The lines of a text as a scan leaves them, each from the region in which it comes there. -/
def stripLines (l : Language) : Region → List Text → List Text
  | _, [] => []
  | region, line :: lines => stripFrom l region line :: stripLines l (afterLine l region line) lines

theorem stripLines_ne_nil {lines : List Text} (nonempty : lines ≠ []) :
    stripLines l region lines ≠ [] := by
  cases lines with
  | nil => exact absurd rfl nonempty
  | cons line lines => exact List.cons_ne_nil _ _

theorem stripFrom_join (other : l ≠ .python) (belongs : region.Belongs l) (lines : List Text) :
    stripFrom l region (join ['\n'] lines) = join ['\n'] (stripLines l region lines) := by
  induction lines generalizing region with
  | nil => rfl
  | cons line lines ih =>
    by_cases last : lines = []
    · rw [last]
      rfl
    · rw [Text.join_cons_of_ne_nil last, stripLines,
        Text.join_cons_of_ne_nil (stripLines_ne_nil last), List.singleton_append,
        stripFrom_line other belongs, ih (belongs_afterLine belongs line)]
      rfl

/-! ## What a scan leaves of a line -/

theorem eq_lineFeed_of_mem_blank {c : Char} (h : '\n' ∈ blank c) : c = '\n' := by
  rw [blank] at h
  split at h
  · assumption
  · exact absurd (List.eq_of_mem_replicate h) (by decide)

theorem Blanked.mem_lineFeed {s t : Text} (h : Blanked s t) (mem : '\n' ∈ t) : '\n' ∈ s := by
  induction h with
  | nil => exact mem
  | kept c _ ih =>
    rw [List.mem_cons] at mem ⊢
    exact mem.imp_right ih
  | blanked c _ ih =>
    rw [List.mem_append] at mem
    rw [List.mem_cons]
    exact mem.imp (fun found => (eq_lineFeed_of_mem_blank found).symm) ih

theorem not_mem_stripFrom {line : Text} (absent : '\n' ∉ line) :
    '\n' ∉ stripFrom l region line :=
  fun mem => absent ((blanked_stripFrom l region line).mem_lineFeed mem)

theorem not_mem_stripLines {lines : List Text} (absent : ∀ line ∈ lines, '\n' ∉ line) :
    ∀ line ∈ stripLines l region lines, '\n' ∉ line := by
  induction lines generalizing region with
  | nil => exact nofun
  | cons line lines ih =>
    rw [List.forall_mem_cons] at absent
    rw [stripLines, List.forall_mem_cons]
    exact ⟨not_mem_stripFrom absent.1, ih absent.2⟩

theorem stripFrom_eq_nil_iff {t : Text} : stripFrom l region t = [] ↔ t = [] := by
  constructor
  · intro empty
    have blanked := blanked_stripFrom l region t
    rw [empty] at blanked
    cases t with
    | nil => rfl
    | cons c t =>
      obtain ⟨kept, next, step⟩ := exists_step l region c t
      obtain ⟨d, b, whole⟩ := exists_blank_eq_cons c
      rw [step.stripFrom_eq, whole] at empty
      cases kept <;> cases empty
  · rintro rfl
    rfl

/-- The pieces of a stripped text are the stripped pieces of the text. -/
theorem splitWhere_stripFrom (other : l ≠ .python) (belongs : region.Belongs l) (t : Text) :
    Text.splitWhere (· == '\n') (stripFrom l region t) =
      stripLines l region (Text.splitWhere (· == '\n') t) := by
  have whole := stripFrom_join other belongs (Text.splitWhere (· == '\n') t)
  rw [Text.join_splitWhere] at whole
  rw [whole]
  exact Text.splitWhere_join (stripLines_ne_nil (Text.splitWhere_ne_nil t))
    (not_mem_stripLines fun piece => Text.not_mem_of_mem_pieces)

/-! ## Carriage returns -/

/-- A carriage return at the end of a line is a blank of the stripped line, if anything. -/
theorem exists_blank_of_return (other : l ≠ .python) (belongs : region.Belongs l) (line : Text) :
    ∃ b, Text.Blank b ∧ stripFrom l region (line ++ ['\r']) = stripFrom l region line ++ b := by
  have apart : Apart ['\r'] := apart_cons (by decide) []
  obtain ⟨text, -⟩ := stripFrom_append_apart other belongs line apart
  obtain ⟨kept, next, step⟩ := exists_step l (regionAfter l region line) '\r' []
  refine ⟨_, ?_, text⟩
  rw [step.stripFrom_eq, stripFrom_nil, List.append_nil]
  cases kept with
  | true => exact Text.blank_return
  | false =>
    intro c (mem : c ∈ blank '\r')
    rcases isBlanking_of_mem_blank mem with rfl | rfl <;> decide

/-- A region between marks and escapes. -/
def Region.Rests : Region → Prop
  | .code | .lineComment | .blockComment | .quoted _ => True
  | _ => False

/-- A region in front of a text that a scan can be in: marks and escapes are not the end. -/
def Region.GoesOn (t : Text) : Region → Prop
  | .mark next => t ≠ [] ∧ next.Rests
  | .escaped _ => t ≠ []
  | region => region.Rests

theorem Region.Rests.goesOn {t : Text} (rests : region.Rests) : region.GoesOn t := by
  cases region with
  | mark => exact False.elim rests
  | escaped => exact False.elim rests
  | _ => exact rests

theorem Step.goesOn {next : Region} {c : Char} {t : Text} {kept : Bool} (other : l ≠ .python)
    (h : Step l region c t kept next) (goesOn : region.GoesOn (c :: t))
    (noEscape : (c :: t).getLast? ≠ some '\\') : next.GoesOn t := by
  have more {d : Char} (ahead : t.head? = some d) : t ≠ [] := by
    rintro rfl
    cases ahead
  cases h with
  | openTriple _ python => exact absurd python other
  | openLine _ ahead => exact ⟨more ahead, trivial⟩
  | openBlock _ ahead => exact ⟨more ahead, trivial⟩
  | closeBlock ahead => exact ⟨more ahead, trivial⟩
  | escapeQuoted =>
    rintro rfl
    exact noEscape rfl
  | escapeTriple => exact False.elim goesOn
  | closeTriple => exact False.elim goesOn
  | triple => exact False.elim goesOn
  | tripleEscaped => exact False.elim goesOn
  | mark => exact goesOn.2.goesOn
  | _ => trivial

theorem Region.GoesOn.regionAfter {t : Text} (other : l ≠ .python) (goesOn : region.GoesOn t)
    (noEscape : t.getLast? ≠ some '\\') : (regionAfter l region t).Rests := by
  induction t generalizing region with
  | nil =>
    cases region with
    | mark next => exact absurd rfl goesOn.1
    | escaped q => exact absurd rfl goesOn
    | _ => exact goesOn
  | cons c t ih =>
    obtain ⟨kept, next, step⟩ := exists_step l region c t
    rw [step.regionAfter_eq]
    refine ih (step.goesOn other goesOn noEscape) fun last => noEscape ?_
    rw [List.getLast?_cons, last]
    rfl

theorem Region.Rests.afterLine (other : l ≠ .python) (rests : region.Rests) (line : Text) :
    (afterLine l region line).Rests :=
  rests.goesOn.regionAfter other (by simp)

theorem idle_return : Idle l '\r' := by
  cases l <;> decide

/-- Between marks and escapes a carriage return changes nothing. -/
theorem Region.Rests.step_return (rests : region.Rests) (belongs : region.Belongs l) (t : Text) :
    ∃ kept, Step l region '\r' t kept region := by
  cases region with
  | code =>
    have keeps : Region.code.Keeps := trivial
    exact ⟨_, idle_return.step keeps belongs t⟩
  | quoted q =>
    have keeps : (Region.quoted q).Keeps := trivial
    exact ⟨_, idle_return.step keeps belongs t⟩
  | lineComment => exact ⟨_, .lineComment (by decide)⟩
  | blockComment => exact ⟨_, .blockComment fun found => by cases found.1⟩
  | _ => exact False.elim rests

/-- A carriage return in front of a line feed makes a difference only behind a backslash. -/
theorem afterLine_return (other : l ≠ .python) (belongs : region.Belongs l) (rests : region.Rests)
    {line : Text} (noEscape : line.getLast? ≠ some '\\') :
    afterLine l region (line ++ ['\r']) = afterLine l region line := by
  have rests' := rests.goesOn.regionAfter other noEscape
  have belongs' := belongs_regionAfter belongs line
  obtain ⟨-, behind⟩ := stripFrom_append_apart other belongs line
    (t := ['\r', '\n']) (apart_cons (by decide) _)
  obtain ⟨-, direct⟩ := stripFrom_append_apart other belongs line
    (t := ['\n']) (apart_cons (by decide) _)
  obtain ⟨kept, step⟩ := rests'.step_return belongs' ['\n']
  rw [afterLine, afterLine, List.append_assoc, List.singleton_append, behind, direct,
    step.regionAfter_eq]

end HarnessSynthesis.Source
