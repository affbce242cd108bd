/-
# Comments around hoisted imports

Import and package lines are told by their text without comments, and taken out with the comments
that stand on them. So a scan of the lines that are kept comes to a line in the region in which the
kept lines in front leave it, and this need not be the region in which a scan of the whole source
comes there. The two scans go over a source side by side here. What is a comment stays one, and
nothing else becomes one, exactly when every line that they come to in different regions looks the
same from both.
-/

import HarnessSynthesis.Harness.JavaSource
import HarnessSynthesis.Proofs.Source.Lines

namespace HarnessSynthesis.Harness.JavaSource

open Source
open Text (endedLines join splitWhere trim trimEnd trimLines withoutReturn)

/-! ## Two scans side by side -/

/-- A line of a source with the regions in which two scans come to it. -/
structure Passage where
  /-- The line as it stands in front of its line feed. -/
  ended : Text
  line : Text
  kind : LineKind
  /-- The region of the scan of the whole source. -/
  whole : Region
  /-- The region of the scan of the lines that are kept. -/
  alone : Region
  deriving Repr

/-- The way of two scans over lines. Only the scan of the whole source goes over a line that is
taken out. -/
def passagesFrom (whole alone : Region) : List (Text × Text) → List Passage
  | [] => []
  | (ended, line) :: lines =>
    let kind := LineKind.of (stripFrom .java whole ended)
    ⟨ended, line, kind, whole, alone⟩ ::
      passagesFrom (afterLine .java whole ended)
        (if kind = .other then afterLine .java alone line else alone) lines

def passages (source : Text) : List Passage :=
  passagesFrom .code .code (endedLines (splitWhere (· == '\n') source))

namespace Passage

/-- Whether a line stays in the source. -/
def kept (p : Passage) : Bool :=
  p.kind = .other

/-- The line as the scan of the whole source leaves it. -/
def fromWhole (p : Passage) : Text :=
  stripFrom .java p.whole p.line

/-- The line as the scan of the kept lines leaves it. -/
def fromAlone (p : Passage) : Text :=
  stripFrom .java p.alone p.line

/-- A stripped line is the line of a passage as the scan of the whole source leaves it, up to blanks
at its end. -/
structure Shows (bare : Text) (p : Passage) : Prop where
  kind : LineKind.of bare = p.kind
  text : trimEnd bare = trimEnd p.fromWhole

end Passage

theorem LineKind.of_eq_of_trim_eq {bare bare' : Text} (same : trim bare = trim bare') :
    LineKind.of bare = LineKind.of bare' := by
  rw [LineKind.of, LineKind.of, same]

/-- What is left of a line does not depend on the carriage return at its end. -/
theorem trimEnd_stripFrom_withoutReturn {region : Region} (belongs : region.Belongs .java)
    (ended : Text) :
    trimEnd (stripFrom .java region (withoutReturn ended)) =
      trimEnd (stripFrom .java region ended) := by
  rcases Text.withoutReturn_cases ended with ⟨same, -⟩ | split
  · rw [same]
  · obtain ⟨b, blank, text⟩ := exists_blank_of_return (by decide) belongs (withoutReturn ended)
    rw [← split] at text
    rw [text, Text.trimEnd_append_of_blank blank]

/-- The lines of a stripped source show the passages of the source, one by one. -/
theorem forall₂_passagesFrom {whole : Region} (belongs : whole.Belongs .java) (alone : Region)
    (pieces : List Text) :
    List.Forall₂ Passage.Shows ((endedLines (stripLines .java whole pieces)).map Prod.snd)
      (passagesFrom whole alone (endedLines pieces)) := by
  induction pieces generalizing whole alone with
  | nil => exact .nil
  | cons ended pieces ih =>
    by_cases last : pieces = []
    · subst last
      by_cases empty : ended = []
      · rw [empty]
        exact .nil
      · have shown : ¬ stripFrom .java whole ended = [] := mt stripFrom_eq_nil_iff.1 empty
        rw [stripLines, stripLines, endedLines, if_neg shown, endedLines, if_neg empty]
        exact .cons ⟨rfl, rfl⟩ .nil
    · rw [stripLines, Text.endedLines_cons _ (stripLines_ne_nil last), Text.endedLines_cons _ last]
      refine .cons ⟨?_, ?_⟩ (ih (belongs_afterLine belongs ended) _)
      · exact LineKind.of_eq_of_trim_eq (Text.trim_withoutReturn _)
      · rw [Text.trimEnd_withoutReturn]
        exact (trimEnd_stripFrom_withoutReturn belongs ended).symm

theorem map_line_passagesFrom (whole alone : Region) (lines : List (Text × Text)) :
    (passagesFrom whole alone lines).map Passage.line = lines.map Prod.snd := by
  induction lines generalizing whole alone with
  | nil => rfl
  | cons line lines ih => rw [passagesFrom, List.map_cons, List.map_cons, ih]

theorem map_line_passages (source : Text) : (passages source).map Passage.line = source.lines := by
  rw [passages, map_line_passagesFrom, Text.lines_eq]

theorem forall₂_passages (source : Text) :
    List.Forall₂ Passage.Shows (stripComments .java source).lines (passages source) := by
  have belongs : Region.code.Belongs .java := trivial
  rw [Text.lines_eq, stripComments, splitWhere_stripFrom (by decide) belongs]
  exact forall₂_passagesFrom belongs .code _

/-! ## The lines that are kept -/

/-- The lines of the stripped source that are neither imports nor package lines. -/
def keptBareLines (source : Text) : List Text :=
  (stripComments .java source).lines.filter (LineKind.of · = .other)

/-- Taking imports out of a source makes no comment of its code and no code of its comments: the
lines that are kept have, up to blanks at their ends, the same text without comments in the source
and on their own. -/
def KeepsComments (source : Text) : Prop :=
  trimLines (stripComments .java (join ['\n'] (keptLines source))) =
    trimLines (join ['\n'] (keptBareLines source))

instance (source : Text) : Decidable (KeepsComments source) :=
  inferInstanceAs (Decidable (_ = _))

/-- The passages over the lines that are kept. -/
def keptPassages (source : Text) : List Passage :=
  (passages source).filter Passage.kept

theorem map_kind_of_forall₂ {bares : List Text} {ps : List Passage}
    (each : List.Forall₂ Passage.Shows bares ps) :
    bares.map LineKind.of = ps.map Passage.kind := by
  induction each with
  | nil => rfl
  | cons first _ ih => rw [List.map_cons, List.map_cons, first.kind, ih]

theorem map_trimEnd_of_forall₂ {bares : List Text} {ps : List Passage}
    (each : List.Forall₂ Passage.Shows bares ps) :
    (bares.filter (LineKind.of · = .other)).map trimEnd =
      (ps.filter Passage.kept).map fun p => trimEnd p.fromWhole := by
  induction each with
  | nil => rfl
  | cons first _ ih =>
    rw [List.filter_cons, List.filter_cons, first.kind, Passage.kept]
    split
    · rw [List.map_cons, List.map_cons, ih, first.text]
    · exact ih

theorem classifyLines_eq (source : Text) :
    classifyLines source = (passages source).map fun p => (p.line, p.kind) := by
  rw [classifyLines, map_kind_of_forall₂ (forall₂_passages source), ← map_line_passages,
    List.zip_map']

theorem keptLines_eq (source : Text) :
    keptLines source = (keptPassages source).map Passage.line := by
  rw [keptLines, classifyLines_eq, keptPassages]
  induction passages source with
  | nil => rfl
  | cons p ps ih =>
    rw [List.map_cons, List.filterMap_cons, List.filter_cons, ih]
    obtain ⟨ended, line, kind, whole, alone⟩ := p
    cases kind <;> rfl

theorem map_trimEnd_keptBareLines (source : Text) :
    (keptBareLines source).map trimEnd =
      (keptPassages source).map fun p => trimEnd p.fromWhole :=
  map_trimEnd_of_forall₂ (forall₂_passages source)

/-- By induction on the lines: the scan of the kept lines goes over no other. -/
theorem stripLines_kept (whole alone : Region) (lines : List (Text × Text)) :
    stripLines .java alone
        (((passagesFrom whole alone lines).filter Passage.kept).map Passage.line) =
      ((passagesFrom whole alone lines).filter Passage.kept).map Passage.fromAlone := by
  induction lines generalizing whole alone with
  | nil => rfl
  | cons line lines ih =>
    obtain ⟨ended, line⟩ := line
    rw [passagesFrom]
    by_cases other : LineKind.of (stripFrom .java whole ended) = .other
    · rw [List.filter_cons_of_pos (by exact decide_eq_true other), List.map_cons, List.map_cons,
        stripLines, if_pos other, ih]
      rfl
    · rw [List.filter_cons_of_neg (by exact fun kept => other (of_decide_eq_true kept)),
        if_neg other, ih]

theorem stripComments_keptLines (source : Text) :
    stripComments .java (join ['\n'] (keptLines source)) =
      join ['\n'] ((keptPassages source).map Passage.fromAlone) := by
  have belongs : Region.code.Belongs .java := trivial
  rw [stripComments, stripFrom_join (by decide) belongs, keptLines_eq, keptPassages, passages,
    stripLines_kept]

theorem not_mem_keptBareLines (source : Text) : ∀ line ∈ keptBareLines source, '\n' ∉ line :=
  fun _ mem => Text.not_mem_of_mem_lines (List.mem_filter.1 mem).1

theorem not_mem_fromAlone (source : Text) :
    ∀ line ∈ (keptPassages source).map Passage.fromAlone, '\n' ∉ line := by
  intro line mem
  obtain ⟨p, kept, rfl⟩ := List.mem_map.1 mem
  refine not_mem_stripFrom (Text.not_mem_of_mem_lines (t := source) ?_)
  rw [← map_line_passages]
  exact List.mem_map_of_mem (List.mem_filter.1 kept).1

theorem keepsComments_iff_forall_passages (source : Text) :
    KeepsComments source ↔
      ∀ p ∈ keptPassages source, trimEnd p.fromAlone = trimEnd p.fromWhole := by
  have alone := not_mem_fromAlone source
  have bare := not_mem_keptBareLines source
  rw [KeepsComments, stripComments_keptLines, Text.trimLines_join alone, Text.trimLines_join bare,
    map_trimEnd_keptBareLines, List.map_map, Text.join_inj, List.map_inj_left]
  · rfl
  · rw [List.length_map, List.length_map]
  · rw [← List.map_map]
    exact Text.not_mem_map_trimEnd alone
  · rw [← map_trimEnd_keptBareLines]
    exact Text.not_mem_map_trimEnd bare

/-! ## Lines that change nothing -/

/-- A source whose comments and strings stop at the lines that are taken out, and in which no string
goes on behind a carriage return. -/
structure Neutral (source : Text) : Prop where
  /-- A scan leaves a line that is taken out in the region in which it comes there. -/
  removed : ∀ p ∈ passages source, p.kept = false → afterLine .java p.whole p.ended = p.whole
  returns : ∀ p ∈ passages source, ¬ ['\\', '\r'] <:+ p.ended

/-- By induction on the lines: the two scans come to the next one in the same region. -/
theorem whole_eq_alone_of_neutral {region : Region} (belongs : region.Belongs .java)
    (rests : region.Rests) {lines : List (Text × Text)}
    (ends : ∀ line ∈ lines, line.1 = line.2 ∨ line.1 = line.2 ++ ['\r'])
    (removed : ∀ p ∈ passagesFrom region region lines, p.kept = false →
      afterLine .java p.whole p.ended = p.whole)
    (returns : ∀ p ∈ passagesFrom region region lines, ¬ ['\\', '\r'] <:+ p.ended) :
    ∀ p ∈ passagesFrom region region lines, p.whole = p.alone := by
  induction lines generalizing region with
  | nil => exact nofun
  | cons line lines ih =>
    obtain ⟨ended, line⟩ := line
    rw [passagesFrom, List.forall_mem_cons] at removed returns
    rw [List.forall_mem_cons] at ends
    rw [passagesFrom, List.forall_mem_cons]
    refine ⟨rfl, ?_⟩
    have same : (if LineKind.of (stripFrom .java region ended) = .other then
        afterLine .java region line else region) = afterLine .java region ended := by
      split
      · obtain rfl | rfl : ended = line ∨ ended = line ++ ['\r'] := ends.1
        · rfl
        · refine (afterLine_return (by decide) belongs rests fun last => returns.1 ?_).symm
          obtain ⟨front, rfl⟩ := List.getLast?_eq_some_iff.1 last
          exact ⟨front, (List.append_assoc front ['\\'] ['\r']).symm⟩
      · exact (removed.1 (decide_eq_false ‹_›)).symm
    rw [same] at removed returns ⊢
    exact ih (belongs_afterLine belongs ended) (rests.afterLine (by decide) ended) ends.2 removed.2
      returns.2

theorem Neutral.whole_eq_alone {source : Text} (neutral : Neutral source) :
    ∀ p ∈ passages source, p.whole = p.alone := by
  have belongs : Region.code.Belongs .java := trivial
  have rests : Region.code.Rests := trivial
  exact whole_eq_alone_of_neutral belongs rests (fun _ mem => (Text.mem_endedLines mem).2)
    neutral.removed neutral.returns

/-- Taking out imports keeps comments apart from code exactly when the lines that the two scans come
to in different regions look the same from both. There are no such lines where every line that is
taken out leaves a scan in the region in which it comes there. -/
theorem keepsComments_iff (source : Text) :
    (KeepsComments source ↔ ∀ p ∈ passages source, p.kind = .other → p.whole ≠ p.alone →
      trimEnd (stripFrom .java p.alone p.line) = trimEnd (stripFrom .java p.whole p.line)) ∧
    (Neutral source → KeepsComments source) := by
  have each := keepsComments_iff_forall_passages source
  constructor
  · rw [each]
    constructor
    · intro same p mem other _
      exact same p (List.mem_filter.2 ⟨mem, decide_eq_true other⟩)
    · intro same p mem
      obtain ⟨mem, other⟩ := List.mem_filter.1 mem
      by_cases equal : p.whole = p.alone
      · rw [Passage.fromAlone, Passage.fromWhole, equal]
      · exact same p mem (of_decide_eq_true other) equal
  · intro neutral
    rw [each]
    intro p mem
    rw [Passage.fromAlone, Passage.fromWhole,
      neutral.whole_eq_alone p (List.mem_filter.1 mem).1]

/-- Comments that end on the line of an import go with it. -/
theorem keepsComments_closed :
    Neutral "import java.util.*; /* for List */\n/* and Map */\nclass Solution \x7b\x7d" ∧
      KeepsComments
        "import java.util.*; /* for List */\n/* and Map */\nclass Solution \x7b\x7d" := by
  have neutral :
      Neutral "import java.util.*; /* for List */\n/* and Map */\nclass Solution \x7b\x7d" :=
    ⟨by decide +kernel, by decide +kernel⟩
  exact ⟨neutral, (keepsComments_iff _).2 neutral⟩

/-- A comment that opens behind an import is code once the import is taken out, up to where it ends
on a line that is kept. -/
theorem not_keepsComments_open :
    ¬ KeepsComments "import java.util.*; /* for List\n   and Map */\nclass Solution \x7b\x7d" := by
  decide +kernel

end HarnessSynthesis.Harness.JavaSource
