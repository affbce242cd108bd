/-
# What a comment says

A comment that stands in the code of a source is blanked out and does nothing else: a source is
stripped by stripping what is in front of the comment, what is behind it, and blanking out what is
between. So only the octets of a comment count, and where its lines end. Two sources that differ in
what a comment says have the same entry point, and they declare and mention the same types.

The source in front of a comment is scanned on its own, where nothing stands ahead of its last
characters. That this makes no difference is what a seam is for: a comment's mark completes no mark
that is cut off in front of it, unless a slash stands there.
-/

import HarnessSynthesis.Entry.Resolution
import HarnessSynthesis.Proofs.Source.Octets
import HarnessSynthesis.Proofs.Source.Regions
import HarnessSynthesis.Source.TypeDeclaration

namespace HarnessSynthesis.Source

open Text (utf8)

/-! ## Scanning in parts -/

/-- The region that a scan from within a region ends in. -/
def regionAfter (l : Language) : Region → Text → Region
  | region, [] => region
  | region, c :: rest => regionAfter l (region.step l c rest).2 rest

theorem Step.regionAfter_eq {l : Language} {region next : Region} {c : Char} {t : Text}
    {kept : Bool} (h : Step l region c t kept next) :
    regionAfter l region (c :: t) = regionAfter l next t := by
  rw [regionAfter, h.step_eq]

/-- A place in a source, behind a text, where a character completes no mark of the text. -/
structure Seam (l : Language) (before : Text) (first : Char) : Prop where
  noDelimiter : ¬ isDelimiter l first = true
  noSlash : l = .python ∨ before.getLast? ≠ some '/'

theorem Seam.tail {l : Language} {c first : Char} {before : Text}
    (seam : Seam l (c :: before) first) : Seam l before first := by
  refine ⟨seam.noDelimiter, seam.noSlash.imp_right fun noSlash slash => noSlash ?_⟩
  rw [List.getLast?_cons, slash]
  rfl

/-- What stands ahead across a seam stands ahead in front of it, or nothing is left there. -/
theorem head?_of_head?_append {t b : Text} {c : Char} (h : (t ++ b).head? = some c) :
    t = [] ∨ t.head? = some c := by
  cases t with
  | nil => exact Or.inl rfl
  | cons d t => exact Or.inr h

/-- A step in front of a seam is the step that is taken without what is behind the seam. -/
theorem Step.append {l : Language} {region next : Region} {c first : Char} {t : Text} {kept : Bool}
    (h : Step l region c t kept next) (ends : regionAfter l next t = .code)
    (seam : Seam l (c :: t) first) (b : Text) : Step l region c (t ++ first :: b) kept next := by
  have further {p : Text} (ahead : Text.startsWith p t = true) :
      Text.startsWith p (t ++ first :: b) = true := by
    rw [Text.startsWith_iff] at ahead ⊢
    exact ahead.trans (List.prefix_append t _)
  have beyond {d : Char} (ahead : t.head? = some d) : (t ++ first :: b).head? = some d := by
    rw [List.head?_append, ahead]
    rfl
  cases h with
  | openTriple delimits python ahead => exact .openTriple delimits python (further ahead)
  | openQuoted delimits single =>
    refine .openQuoted delimits fun found => single ⟨found.1, ?_⟩
    have other : first ∉ [c, c] := by
      rintro mem
      obtain rfl : first = c := by simpa using mem
      exact seam.noDelimiter delimits
    rw [Text.startsWith_iff]
    exact Text.isPrefix_of_isPrefix_append_cons other (Text.startsWith_iff.1 found.2)
  | openHash python => exact .openHash python
  | openLine other ahead => exact .openLine other (beyond ahead)
  | openBlock other ahead => exact .openBlock other (beyond ahead)
  | code plain noHash noSlash =>
    refine .code plain noHash fun found => ?_
    obtain ⟨other, rfl, ahead⟩ := found
    have nonempty : t ≠ [] := by
      rintro rfl
      exact seam.noSlash.elim other fun noSlash => noSlash rfl
    refine noSlash ⟨other, rfl, ahead.imp (fun line => ?_) (fun block => ?_)⟩
    · exact (head?_of_head?_append line).resolve_left nonempty
    · exact (head?_of_head?_append block).resolve_left nonempty
  | closeLine => exact .closeLine
  | lineComment inside => exact .lineComment inside
  | closeBlock ahead => exact .closeBlock (beyond ahead)
  | blockComment inside =>
    refine .blockComment fun found => inside ⟨found.1, ?_⟩
    refine (head?_of_head?_append found.2).resolve_left ?_
    -- a comment that is still open at the seam does not end in the code
    rintro rfl
    cases ends
  | escapeQuoted => exact .escapeQuoted
  | closeQuoted plain closes => exact .closeQuoted plain closes
  | quoted plain inside => exact .quoted plain inside
  | escaped => exact .escaped
  | escapeTriple => exact .escapeTriple
  | closeTriple plain ahead => exact .closeTriple plain (further ahead)
  | @triple q _ _ plain inside =>
    refine .triple plain fun found => ?_
    obtain ⟨rfl, ahead⟩ := found
    rw [Text.startsWith_iff] at ahead
    match t with
    | [] => cases ends
    | [d] =>
      obtain rfl : c = d := (List.cons_prefix_cons.1 ahead).1
      have step : Step l (.triple c) c [] false (.triple c) :=
        .triple plain fun found => by cases found.2
      rw [step.regionAfter_eq] at ends
      cases ends
    | d :: e :: t =>
      refine inside ⟨rfl, Text.startsWith_iff.2 ?_⟩
      simpa using ahead
  | tripleEscaped => exact .tripleEscaped
  | mark => exact .mark

/-- By induction on the text in front of the seam, whose steps are the same with a text behind. -/
theorem stripFrom_append {l : Language} {region : Region} {a : Text} {first : Char}
    (ends : regionAfter l region a = .code) (seam : Seam l a first) (b : Text) :
    stripFrom l region (a ++ first :: b) =
      stripFrom l region a ++ stripFrom l .code (first :: b) := by
  induction a generalizing region with
  | nil =>
    rw [regionAfter] at ends
    subst ends
    rfl
  | cons c a ih =>
    obtain ⟨kept, next, step⟩ := exists_step l region c a
    rw [step.regionAfter_eq] at ends
    rw [List.cons_append, (step.append ends seam b).stripFrom_eq, step.stripFrom_eq,
      ih ends seam.tail, List.append_assoc]

/-! ## Comments -/

/-- The kinds of comments. -/
inductive CommentKind where
  | block
  | line
  | hash
  deriving DecidableEq, Repr

namespace CommentKind

/-- A comment of a kind. -/
def write : CommentKind → Text → Text
  | .block, body => '/' :: '*' :: (body ++ ['*', '/'])
  | .line, body => '/' :: '/' :: body
  | .hash, body => '#' :: body

/-- Whether a language has a kind of comment, and a text may stand in front of one. -/
def Opens (l : Language) (before : Text) : CommentKind → Prop
  | .hash => l = .python
  | _ => l ≠ .python ∧ before.getLast? ≠ some '/'

/-- Whether a comment of a kind ends with its body, in front of a text. -/
def Closes (body behind : Text) : CommentKind → Prop
  | .block => ¬ ['*', '/'] <:+: body
  | _ => '\n' ∉ body ∧ (behind = [] ∨ behind.head? = some '\n')

end CommentKind

theorem stripFrom_blockComment {l : Language} {body : Text} (inside : ¬ ['*', '/'] <:+: body)
    (behind : Text) :
    stripFrom l .blockComment (body ++ '*' :: '/' :: behind) =
      (body ++ ['*', '/']).flatMap blank ++ stripFrom l .code behind := by
  induction body with
  | nil =>
    have closes : Step l .blockComment '*' ('/' :: behind) false (.mark .code) := .closeBlock rfl
    rw [List.nil_append, closes.stripFrom_eq, Step.mark.stripFrom_eq]
    rfl
  | cons c body ih =>
    have rest : ¬ ['*', '/'] <:+: body := fun found => inside (List.infix_cons found)
    have step : Step l .blockComment c (body ++ '*' :: '/' :: behind) false .blockComment := by
      refine .blockComment fun found => ?_
      obtain ⟨rfl, ahead⟩ := found
      cases body with
      | nil => cases ahead
      | cons d body =>
        obtain rfl : d = '/' := Option.some.inj ahead
        exact inside ⟨[], body, rfl⟩
    rw [List.cons_append, step.stripFrom_eq, ih rest, List.cons_append, List.flatMap_cons,
      List.append_assoc]
    rfl

theorem stripFrom_lineComment {l : Language} {body : Text} (inside : '\n' ∉ body)
    {behind : Text} (ends : behind = [] ∨ behind.head? = some '\n') :
    stripFrom l .lineComment (body ++ behind) = body.flatMap blank ++ stripFrom l .code behind := by
  induction body with
  | nil =>
    rcases ends with rfl | feed
    · rfl
    · obtain ⟨rest, rfl⟩ := List.head?_eq_some_iff.1 feed
      rw [List.nil_append, (step_code_blank (.inr rfl) rest).stripFrom_eq,
        Step.closeLine.stripFrom_eq]
      rfl
  | cons c body ih =>
    rw [List.mem_cons, not_or] at inside
    have step : Step l .lineComment c (body ++ behind) false .lineComment :=
      .lineComment (Ne.symm inside.1)
    rw [List.cons_append, step.stripFrom_eq, ih inside.2, List.flatMap_cons, List.append_assoc]
    rfl

namespace CommentKind

/-- A comment in the code is blanked out, and the scan goes on in the code behind it. -/
theorem stripFrom_write {l : Language} {kind : CommentKind} {before body behind : Text}
    (opens : kind.Opens l before) (closes : kind.Closes body behind) :
    stripFrom l .code (kind.write body ++ behind) =
      (kind.write body).flatMap blank ++ stripFrom l .code behind := by
  cases kind with
  | block =>
    have step : Step l .code '/' ('*' :: (body ++ ['*', '/'] ++ behind)) false
        (.mark .blockComment) := .openBlock opens.1 rfl
    have inside : body ++ ['*', '/'] ++ behind = body ++ '*' :: '/' :: behind :=
      List.append_assoc body ['*', '/'] behind
    rw [write, List.cons_append, List.cons_append, step.stripFrom_eq, Step.mark.stripFrom_eq,
      inside, stripFrom_blockComment closes]
    rfl
  | line =>
    have step : Step l .code '/' ('/' :: (body ++ behind)) false (.mark .lineComment) :=
      .openLine opens.1 rfl
    rw [write, List.cons_append, List.cons_append, step.stripFrom_eq, Step.mark.stripFrom_eq,
      stripFrom_lineComment closes.1 closes.2]
    rfl
  | hash =>
    have step : Step l .code '#' (body ++ behind) false .lineComment := .openHash opens
    rw [write, List.cons_append, step.stripFrom_eq, stripFrom_lineComment closes.1 closes.2]
    rfl

/-- A comment that opens in the code leaves a seam in front of it. -/
theorem exists_seam {l : Language} {kind : CommentKind} {before : Text}
    (opens : kind.Opens l before) (body : Text) :
    ∃ first rest, kind.write body = first :: rest ∧ Seam l before first := by
  cases kind with
  | block => exact ⟨_, _, rfl, not_isDelimiter_of_mem (by decide), Or.inr opens.2⟩
  | line => exact ⟨_, _, rfl, not_isDelimiter_of_mem (by decide), Or.inr opens.2⟩
  | hash => exact ⟨_, _, rfl, not_isDelimiter_of_mem (by decide), Or.inl opens⟩

theorem stripComments_append {l : Language} {kind : CommentKind} {before body behind : Text}
    (code : regionAfter l .code before = .code) (opens : kind.Opens l before)
    (closes : kind.Closes body behind) :
    stripComments l (before ++ kind.write body ++ behind) =
      stripComments l before ++ (kind.write body).flatMap blank ++ stripComments l behind := by
  obtain ⟨first, rest, whole, seam⟩ := exists_seam opens body
  have split : stripFrom l .code (before ++ (kind.write body ++ behind)) =
      stripFrom l .code before ++ stripFrom l .code (kind.write body ++ behind) := by
    rw [whole]
    exact stripFrom_append code seam (rest ++ behind)
  rw [stripComments, List.append_assoc, split, stripFrom_write opens closes, List.append_assoc]
  rfl

end CommentKind

/-! ## Comments of one layout -/

/-- Two texts of the same number of octets with their lines ending at the same places. -/
structure SameLayout (s t : Text) : Prop where
  length : (utf8 s).length = (utf8 t).length
  lineFeeds (i : Nat) : (utf8 s)[i]? = some '\n'.toUInt8 ↔ (utf8 t)[i]? = some '\n'.toUInt8

theorem blankOctet_eq_lineFeed_iff {o : UInt8} :
    blankOctet o = '\n'.toUInt8 ↔ o = '\n'.toUInt8 := by
  constructor
  · intro h
    rw [blankOctet] at h
    split at h
    · exact h
    · cases h
  · rintro rfl
    rfl

theorem blankOctet_eq_of_iff {o o' : UInt8} (h : o = '\n'.toUInt8 ↔ o' = '\n'.toUInt8) :
    blankOctet o = blankOctet o' := by
  by_cases feed : o = '\n'.toUInt8
  · rw [feed, h.1 feed]
  · rw [blankOctet, blankOctet, if_neg feed, if_neg (mt h.2 feed)]

theorem getElem?_map_blankOctet (os : List UInt8) (i : Nat) :
    (os.map blankOctet)[i]? = some '\n'.toUInt8 ↔ os[i]? = some '\n'.toUInt8 := by
  rw [List.getElem?_map]
  cases os[i]? with
  | none => exact Iff.rfl
  | some o => rw [Option.map_some, Option.some_inj, Option.some_inj, blankOctet_eq_lineFeed_iff]

/-- Texts are of one layout when they are the same blanked out. -/
theorem sameLayout_iff {s t : Text} : SameLayout s t ↔ s.flatMap blank = t.flatMap blank := by
  constructor
  · intro same
    refine Text.utf8_injective ?_
    rw [utf8_flatMap_blank, utf8_flatMap_blank]
    refine List.ext_getElem (by rw [List.length_map, List.length_map, same.length]) ?_
    intro i inside inside'
    rw [List.length_map] at inside inside'
    have feeds := same.lineFeeds i
    rw [List.getElem?_eq_getElem inside, List.getElem?_eq_getElem inside', Option.some_inj,
      Option.some_inj] at feeds
    rw [List.getElem_map, List.getElem_map, blankOctet_eq_of_iff feeds]
  · intro blanks
    have octets : (utf8 s).map blankOctet = (utf8 t).map blankOctet := by
      rw [← utf8_flatMap_blank, blanks, utf8_flatMap_blank]
    refine ⟨?_, fun i => ?_⟩
    · rw [← List.length_map blankOctet, octets, List.length_map]
    · rw [← getElem?_map_blankOctet, octets, getElem?_map_blankOctet]

instance (s t : Text) : Decidable (SameLayout s t) :=
  decidable_of_iff _ sameLayout_iff.symm

theorem CommentKind.flatMap_blank_write {body body' : Text} (kind : CommentKind)
    (same : SameLayout body body') :
    (kind.write body).flatMap blank = (kind.write body').flatMap blank := by
  have blanks := sameLayout_iff.1 same
  cases kind <;> simp only [write, List.flatMap_cons, List.flatMap_append, blanks]

/-- Everything that scanners find is the same in two sources. -/
structure SameFindings (l : Language) (source source' : Text) : Prop where
  container : hasContainer l source = hasContainer l source'
  candidates : findCandidates l source = findCandidates l source'
  entryPoint (schema : List SchemaEntry) (hint : Option Text) :
    resolve l source schema hint = resolve l source' schema hint
  declared (name : Text) : declaresType l name source = declaresType l name source'
  mentioned : mentionedStructures l source = mentionedStructures l source'

/-- Scanners look at a source without its comments only. -/
theorem SameFindings.of_stripComments_eq {l : Language} {source source' : Text}
    (stripped : stripComments l source = stripComments l source') :
    SameFindings l source source' := by
  have container : hasContainer l source = hasContainer l source' := by
    unfold hasContainer
    rw [stripped]
  have candidates : findCandidates l source = findCandidates l source' := by
    unfold findCandidates
    rw [stripped]
  refine ⟨container, candidates, fun schema hint => ?_, fun name => ?_, ?_⟩
  · unfold resolve
    rw [container, candidates]
  · unfold declaresType
    rw [stripped]
  · unfold mentionedStructures
    rw [stripped]

/-- What a comment in the code says does not matter: a source is stripped in three parts, and where
a comment is replaced by one of the same layout all scanners find the same. -/
theorem sameFindings_of_sameLayout {l : Language} {kind : CommentKind}
    {before body body' behind : Text} (code : regionAfter l .code before = .code)
    (opens : kind.Opens l before) (closes : kind.Closes body behind)
    (closes' : kind.Closes body' behind) (same : SameLayout body body') :
    stripComments l (before ++ kind.write body ++ behind) =
        stripComments l before ++ (kind.write body).flatMap blank ++ stripComments l behind ∧
      stripComments l (before ++ kind.write body' ++ behind) =
        stripComments l before ++ (kind.write body).flatMap blank ++ stripComments l behind ∧
      SameFindings l (before ++ kind.write body ++ behind)
        (before ++ kind.write body' ++ behind) := by
  have first := CommentKind.stripComments_append code opens closes
  have second := CommentKind.stripComments_append code opens closes'
  rw [← kind.flatMap_blank_write same] at second
  exact ⟨first, second, .of_stripComments_eq (first.trans second.symm)⟩

/-- A class that is commented out, and a comment of the same layout full of quotes and marks. -/
theorem sameFindings_of_sameLayout_class :
    SameLayout "class Solution \x7b\n\x7d" "/* it's \"hiddé\"\n\\" ∧
      SameFindings .cpp
        ("int a; " ++ CommentKind.block.write "class Solution \x7b\n\x7d" ++
          " int twice(int n);")
        ("int a; " ++ CommentKind.block.write "/* it's \"hiddé\"\n\\" ++
          " int twice(int n);") := by
  have code : regionAfter .cpp .code "int a; " = .code := by decide +kernel
  have opens : CommentKind.block.Opens .cpp "int a; " := ⟨by decide, by decide +kernel⟩
  have closes : ¬ ['*', '/'] <:+: ("class Solution \x7b\n\x7d" : Text) := by decide +kernel
  have closes' : ¬ ['*', '/'] <:+: ("/* it's \"hiddé\"\n\\" : Text) := by decide +kernel
  have same : SameLayout "class Solution \x7b\n\x7d" "/* it's \"hiddé\"\n\\" := by
    decide +kernel
  exact ⟨same, (sameFindings_of_sameLayout code opens closes closes' same).2.2⟩

end HarnessSynthesis.Source
