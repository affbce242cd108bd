/-
# Types that stay public

One class of a program may be public, and that is the one of the harness. So `public` is removed
from the user's outermost types, found in the source without comments and removed from the source
itself. Nothing else goes but the spaces and tabs behind each removed word. What is left is found as
it was before, as long as no removed word stood directly behind a slash or a backslash, which would
then mark or escape what follows the word. The search goes over fewer modifiers than a header may
have: so a type stays public exactly when one of its modifiers is none of those.
-/

import HarnessSynthesis.Proofs.Harness.Hoisting
import HarnessSynthesis.Proofs.Harness.StruckWords

namespace HarnessSynthesis.Harness.JavaSource

open Source Struck
open Text (isBlank join octets)

/-! ## Removing words -/

section Removing

variable {offsets : List Nat} {position : Nat} {s : Text}

theorem removeWords_word (word : Text) :
    removeWords offsets (.word word.length) position (word ++ s) =
      removeWords offsets (.word 0) (position + octets word) s := by
  induction word generalizing position with
  | nil => rfl
  | cons c word ih =>
    rw [List.length_cons, List.cons_append, removeWords, ih, Text.octets_cons, Nat.add_assoc]

/-- Spaces and tabs behind a word go with it. -/
theorem removeWords_gap {gap : Text} {removal : Removal}
    (behind : removal = .word 0 ∨ removal = .blanks)
    (blank : ∀ c ∈ gap, isInlineBlank c = true) (stops : ∀ c ∈ s.head?, isInlineBlank c = false) :
    removeWords offsets removal position (gap ++ s) =
      removeWords offsets .none (position + octets gap) s := by
  induction gap generalizing position removal with
  | nil =>
    cases s with
    | nil => rcases behind with rfl | rfl <;> rfl
    | cons c s =>
      have visible := stops c rfl
      rcases behind with rfl | rfl <;> simp [removeWords, visible]
  | cons c gap ih =>
    obtain ⟨first, others⟩ := List.forall_mem_cons.1 blank
    have step : removeWords offsets removal position (c :: (gap ++ s)) =
        removeWords offsets .blanks (position + c.utf8Size) (gap ++ s) := by
      rcases behind with rfl | rfl <;> rw [removeWords, if_pos first]
    rw [List.cons_append, step, ih (Or.inr rfl) others, Text.octets_cons, Nat.add_assoc]

theorem removeWords_public (mem : position ∈ offsets) {gap : Text}
    (blank : ∀ c ∈ gap, isInlineBlank c = true) (stops : ∀ c ∈ s.head?, isInlineBlank c = false) :
    removeWords offsets .none position ("public" ++ (gap ++ s)) =
      removeWords offsets .none (position + octets ("public" ++ gap)) s := by
  have word : removeWords offsets (.word 5) (position + 'p'.utf8Size) ("ublic" ++ (gap ++ s)) =
      removeWords offsets (.word 0) (position + 'p'.utf8Size + octets "ublic") (gap ++ s) :=
    removeWords_word "ublic"
  have first : removeWords offsets .none position ("public" ++ (gap ++ s)) =
      removeWords offsets (.word 5) (position + 'p'.utf8Size) ("ublic" ++ (gap ++ s)) :=
    if_pos mem
  rw [first]
  refine word.trans ((removeWords_gap (Or.inl rfl) blank stops).trans ?_)
  rw [Text.octets_append]
  congr 1
  have size : octets "public" = 'p'.utf8Size + octets "ublic" := rfl
  omega

theorem removeWords_cons (absent : position ∉ offsets) (c : Char) :
    removeWords offsets .none position (c :: s) =
      c :: removeWords offsets .none (position + c.utf8Size) s :=
  if_neg absent

end Removing

/-! ## Removed words -/

/-- A text without some of the words `public` in it, each with all spaces and tabs behind it. -/
inductive WithoutPublic : Text → Text → Prop
  | nil : WithoutPublic [] []
  | keep {c : Char} {s s' : Text} (rest : WithoutPublic s s') : WithoutPublic (c :: s) (c :: s')
  | remove {gap s s' : Text} (blank : ∀ c ∈ gap, isInlineBlank c = true)
      (stops : ∀ c ∈ s.head?, isInlineBlank c = false) (rest : WithoutPublic s s') :
      WithoutPublic ("public" ++ (gap ++ s)) s'

variable {t front s : Text} {region : Region}

/-- A character that is visible in front of a stripped text is kept there. -/
theorem keeps_of_stripFrom_eq_cons {c : Char} {rest : Text}
    (stripped : stripFrom .java region s = c :: rest) (visible : ¬ IsBlanking c) :
    region.Keeps := by
  have front : stripFrom .java region s = [] ++ c :: rest := stripped
  obtain ⟨before, behind, -, size, keeps⟩ := exists_of_stripFrom_eq front visible
  cases before with
  | nil => exact keeps
  | cons d before =>
    rw [Text.octets_cons, Text.octets_nil] at size
    have positive := d.utf8Size_pos
    omega

theorem idle_of_isInlineBlank {c : Char} (blank : isInlineBlank c = true) : Idle .java c := by
  rw [isInlineBlank, Bool.or_eq_true, beq_iff_eq, beq_iff_eq] at blank
  rcases blank with rfl | rfl <;> decide

/-- Spaces and tabs of the code or of a string are left as they are. -/
theorem stripFrom_inlineBlanks (keeps : region.Keeps) (belongs : region.Belongs .java)
    (resumed : region.resumed = region) {gap : Text} (blank : ∀ c ∈ gap, isInlineBlank c = true) :
    stripFrom .java region (gap ++ s) = gap ++ stripFrom .java region s := by
  by_cases empty : gap = []
  · rw [empty]
    rfl
  · have idle : ∀ c ∈ gap, Idle .java c := fun c mem => idle_of_isInlineBlank (blank c mem)
    rw [stripFrom_idle_append idle empty keeps belongs, resumed]

/-- What is found in a stripped source stands in the source, with spaces and tabs that are the same
in both. -/
theorem exists_of_mem_publicOffsets (belongs : region.Belongs .java)
    (stripped : t = front ++ stripFrom .java region s) (mem : octets front ∈ publicOffsets t) :
    OutermostPublic publicTypeModifiers t front (stripFrom .java region s) ∧
      ∃ gap rest, s = "public" ++ (gap ++ rest) ∧ (∀ c ∈ gap, isInlineBlank c = true) ∧
        (∀ c ∈ rest.head?, isInlineBlank c = false) ∧
        StartsBlank (gap ++ stripFrom .java region.resumed rest) ∧
        stripFrom .java region s = "public" ++ (gap ++ stripFrom .java region.resumed rest) := by
  have found := (mem_publicOffsets_iff stripped).1 mem
  obtain ⟨behind, word, starts, -⟩ := found.leads
  have visible : ∀ c ∈ "public".toList, ¬ IsBlanking c := by
    unfold IsBlanking
    exact List.all_iff_forall_prop.1 (by decide)
  have keeps : region.Keeps := keeps_of_stripFrom_eq_cons word (visible 'p' (by decide))
  obtain ⟨more, rfl⟩ := (blanked_stripFrom .java region s).isPrefix visible ⟨behind, word.symm⟩
  have idle : ∀ c ∈ "public".toList, Idle .java c := List.all_iff_forall_prop.1 (by decide)
  have front := stripFrom_idle_append idle (by decide) keeps belongs more
  obtain rfl : stripFrom .java region.resumed more = behind :=
    List.append_cancel_left (front.symm.trans word)
  have blank : ∀ c ∈ more.takeWhile isInlineBlank, isInlineBlank c = true :=
    fun c mem => List.mem_takeWhile_imp mem
  have gap := stripFrom_inlineBlanks (s := more.dropWhile isInlineBlank) keeps.resumed
    belongs.resumed region.resumed_resumed blank
  rw [List.takeWhile_append_dropWhile] at gap
  refine ⟨found, more.takeWhile isInlineBlank, more.dropWhile isInlineBlank, ?_, blank, ?_, ?_, ?_⟩
  · rw [List.takeWhile_append_dropWhile]
  · intro c head
    have stops := List.head?_dropWhile_not isInlineBlank more
    rwa [Option.mem_def.1 head] at stops
  · rwa [← gap]
  · rw [← gap, front]

/-- What a character of a source is in the stripped source. -/
def shown (kept : Bool) (c : Char) : Text :=
  if kept then [c] else blank c

theorem octets_shown (kept : Bool) (c : Char) : octets (shown kept c) = c.utf8Size := by
  cases kept with
  | true => rfl
  | false => exact octets_blank c

theorem getLast?_shown_or (kept : Bool) (c : Char) (before : Option Char) :
    (shown kept c).getLast?.or before = (shown kept c).getLast? := by
  have nonempty : shown kept c ≠ [] := fun empty => by
    have size := octets_shown kept c
    rw [empty, Text.octets_nil] at size
    exact c.utf8Size_pos.ne size
  rw [List.getLast?_eq_some_getLast nonempty, Option.some_or]

theorem stripFrom_shown {next : Region} {c : Char} {kept : Bool}
    (step : Step .java region c s kept next) :
    stripFrom .java region (c :: s) = shown kept c ++ stripFrom .java next s :=
  step.stripFrom_eq

theorem length_lt_public (gap rest : Text) :
    rest.length < ("public".toList ++ (gap ++ rest)).length := by
  have six : "public".toList.length = 6 := rfl
  rw [List.length_append, List.length_append, six]
  omega

/-- Removing words takes nothing away but words and the spaces and tabs behind them. By induction on
the length of the source, a word or a character at a time. -/
theorem withoutPublic_removeWords (belongs : region.Belongs .java)
    (stripped : t = front ++ stripFrom .java region s) :
    WithoutPublic s (removeWords (publicOffsets t) .none (octets front) s) := by
  induction size : s.length using Nat.strong_induction_on generalizing front region s with
  | _ n ih =>
    by_cases mem : octets front ∈ publicOffsets t
    · obtain ⟨-, gap, rest, rfl, blank, stops, -, word⟩ :=
        exists_of_mem_publicOffsets belongs stripped mem
      rw [removeWords_public mem blank stops, ← Text.octets_append]
      refine .remove blank stops (ih rest.length ?_ belongs.resumed ?_ rfl)
      · rw [← size]
        exact length_lt_public gap rest
      · rw [stripped, word]
        simp only [List.append_assoc]
    · cases s with
      | nil => exact .nil
      | cons c s =>
        obtain ⟨kept, next, step⟩ := exists_step .java region c s
        rw [removeWords_cons mem, ← octets_shown kept c, ← Text.octets_append]
        refine .keep (ih s.length ?_ (step.belongs belongs) ?_ rfl)
        · rw [← size]
          exact Nat.lt_succ_self _
        · rw [stripped, stripFrom_shown step, List.append_assoc]

theorem withoutPublic_demote (source : Text) : WithoutPublic source (demote source) := by
  have belongs : Region.code.Belongs .java := trivial
  have whole : stripComments .java source = [] ++ stripFrom .java .code source := rfl
  exact withoutPublic_removeWords belongs whole

/-! ## What is left of a stripped source -/

/-- Whether no public type that is found stands directly behind a slash or a backslash. -/
def Detached (t : Text) : Prop :=
  ∀ front rest, OutermostPublic publicTypeModifiers t front rest →
    front.getLast? ≠ some '/' ∧ front.getLast? ≠ some '\\'

/-- Whether, of the part of a stripped source behind a front, what is struck out are the words of
public types that are found. -/
def Strikes (t front : Text) (m : Struck) : Prop :=
  ∀ m₁ k c m₂, m = m₁ ++ (k, c) :: m₂ →
    (OutermostPublic publicTypeModifiers t (front ++ whole m₁) (c :: whole m₂) → k = true) ∧
      (k = true → c = 'p' →
        OutermostPublic publicTypeModifiers t (front ++ whole m₁) (c :: whole m₂))

theorem strikes_nil (t front : Text) : Strikes t front [] :=
  fun _ _ _ _ split => absurd split (by simp)

theorem Strikes.append {a b : Struck}
    (first : ∀ m₁ k c m₂, a = m₁ ++ (k, c) :: m₂ →
      (OutermostPublic publicTypeModifiers t (front ++ whole m₁) (c :: whole (m₂ ++ b)) →
        k = true) ∧
      (k = true → c = 'p' →
        OutermostPublic publicTypeModifiers t (front ++ whole m₁) (c :: whole (m₂ ++ b))))
    (rest : Strikes t (front ++ whole a) b) : Strikes t front (a ++ b) := by
  intro m₁ k c m₂ split
  rcases Text.append_eq_append_cons split with ⟨more, rfl, rfl⟩ | ⟨more, rfl, behind⟩
  · exact first m₁ k c more rfl
  · have inside := rest more k c m₂ behind
    rwa [whole_append, ← List.append_assoc]

/-- A step whose character is kept or whose comment ends with it looks at nothing ahead, unless the
character is a slash. -/
theorem step_of_keeps {next : Region} {c : Char} {s' : Text} {kept : Bool}
    (step : Step .java region c s kept next) (keeps : next.Keeps)
    (noSlash : kept = true → c ≠ '/') : Step .java region c s' kept next := by
  cases step with
  | openTriple _ python => cases python
  | openQuoted delimits => exact .openQuoted delimits fun h => by cases h.1
  | openHash python => cases python
  | openLine => exact keeps.elim
  | openBlock => exact keeps.elim
  | code plain noHash => exact .code plain noHash fun found => noSlash rfl found.2.1
  | closeLine => exact .closeLine
  | lineComment => exact keeps.elim
  | closeBlock => exact keeps.elim
  | blockComment => exact keeps.elim
  | escapeQuoted => exact .escapeQuoted
  | closeQuoted plain closes => exact .closeQuoted plain closes
  | quoted plain inside => exact .quoted plain inside
  | escaped => exact .escaped
  | escapeTriple => exact keeps.elim
  | closeTriple => exact keeps.elim
  | triple => exact keeps.elim
  | tripleEscaped => exact keeps.elim
  | mark => exact .mark

/-- A stripped source behind a front, with what is struck out of it: what stands there when the
words are removed, in front of it a character that is left. -/
structure Leaves (t front : Text) (left : Option Char) (region : Region) (s : Text)
    (m : Struck) : Prop where
  whole : whole m = stripFrom .java region s
  kept : kept m = stripFrom .java region (removeWords (publicOffsets t) .none (octets front) s)
  demoted : Demoted front.getLast? left m
  strikes : Strikes t front m

section Leaves

variable {left : Option Char} {m : Struck}

/-- What is read behind a character stays the same when words are removed there. -/
theorem step_removeWords (detached : Detached t) (belongs : region.Belongs .java) {next : Region}
    {c : Char} {kept : Bool} (step : Step .java region c s kept next)
    (stripped : t = front ++ stripFrom .java region (c :: s)) :
    Step .java region c
      (removeWords (publicOffsets t) .none (octets (front ++ shown kept c)) s) kept next := by
  have stripped' : t = (front ++ shown kept c) ++ stripFrom .java next s := by
    rw [stripped, stripFrom_shown step, List.append_assoc]
  by_cases mem : octets (front ++ shown kept c) ∈ publicOffsets t
  · obtain ⟨found, gap, rest, -, -, -, -, word⟩ :=
      exists_of_mem_publicOffsets (step.belongs belongs) stripped' mem
    have keeps : next.Keeps := keeps_of_stripFrom_eq_cons word (by unfold IsBlanking; decide)
    refine step_of_keeps step keeps ?_
    rintro rfl rfl
    exact (detached _ _ found).1 List.getLast?_concat
  · refine step.of_ahead (by decide) belongs fun d _ => ?_
    cases s with
    | nil => rfl
    | cons e s => rw [removeWords_cons mem, List.head?_cons, List.head?_cons]

theorem eq_of_mem_shown {kept : Bool} {c : Char} (mem : 'p' ∈ shown kept c) :
    shown kept c = ['p'] := by
  cases kept with
  | true => rw [List.mem_singleton.1 mem, shown, if_pos rfl]
  | false => exact absurd (isBlanking_of_mem_blank mem) (by unfold IsBlanking; decide)

/-- A character that begins no removed word is left. -/
theorem Leaves.keep (detached : Detached t) (belongs : region.Belongs .java) {next : Region}
    {c : Char} {kept : Bool} (step : Step .java region c s kept next)
    (stripped : t = front ++ stripFrom .java region (c :: s))
    (absent : octets front ∉ publicOffsets t)
    (rest : Leaves t (front ++ shown kept c) (shown kept c).getLast? next s m) :
    Leaves t front left region (c :: s) (plain (shown kept c) ++ m) where
  whole := by rw [whole_append, whole_plain, rest.whole, stripFrom_shown step]
  kept := by
    rw [kept_append, kept_plain, rest.kept, removeWords_cons absent, ← octets_shown kept c,
      ← Text.octets_append, stripFrom_shown (step_removeWords detached belongs step stripped)]
  demoted := by
    have demoted := rest.demoted
    rw [List.getLast?_append, getLast?_shown_or] at demoted
    exact .plain_append (by rwa [getLast?_shown_or, getLast?_shown_or])
  strikes := by
    refine Strikes.append (fun m₁ k d m₂ split => ?_) (by rw [whole_plain]; exact rest.strikes)
    obtain ⟨rfl, text⟩ := of_map_eq split
    refine ⟨fun found => ?_, fun struck => absurd struck Bool.false_ne_true⟩
    -- A word begins with its first letter, so it would begin at the character itself.
    obtain ⟨behind, word⟩ := found.exists_cons
    obtain rfl : d = 'p' := (List.cons.inj word).1
    rw [eq_of_mem_shown (text ▸ List.mem_append_right _ List.mem_cons_self)] at text
    have first : Struck.whole m₁ = [] := by
      rcases List.append_eq_singleton_iff.1 text.symm with ⟨none, -⟩ | ⟨-, behind⟩
      · exact none
      · exact absurd behind (List.cons_ne_nil _ _)
    rw [first, List.append_nil] at found
    exact absurd ((mem_publicOffsets_iff found.whole).2 found) absent

/-- A removed word is struck out with the spaces and tabs behind it. -/
theorem Leaves.word {gap : Text} (found : octets front ∈ publicOffsets t)
    (public? : OutermostPublic publicTypeModifiers t front
      ("public" ++ (gap ++ stripFrom .java region s)))
    (loose : Loose left) (blank : ∀ c ∈ gap, isInlineBlank c = true)
    (stops : ∀ c ∈ s.head?, isInlineBlank c = false)
    (apart : StartsBlank (gap ++ stripFrom .java region s))
    (stripped : stripFrom .java region ("public" ++ (gap ++ s)) =
      "public" ++ (gap ++ stripFrom .java region s))
    (rest : Leaves t (front ++ ("public" ++ gap)) left region s m) :
    Leaves t front left region ("public" ++ (gap ++ s)) (struck ("public" ++ gap) ++ m) where
  whole := by rw [whole_append, whole_struck, rest.whole, stripped, List.append_assoc]
  kept := by
    rw [kept_append, kept_struck, List.nil_append, rest.kept,
      removeWords_public found blank stops, ← Text.octets_append]
  demoted := by
    have split : struck ("public" ++ gap) ++ m = struck "public" ++ (struck gap ++ m) := by
      rw [struck, List.map_append, List.append_assoc]
      rfl
    have demoted := rest.demoted
    rw [split]
    refine .word loose ?_ (.struck_append loose blank ?_)
    · rwa [whole_append, whole_struck, rest.whole]
    · have last : (front ++ ("public".toList ++ gap)).getLast? = gap.getLast?.or (some 'c') := by
        rw [← List.append_assoc, List.getLast?_append, List.getLast?_append]
        rfl
      rwa [← last]
  strikes := by
    refine Strikes.append (fun m₁ k d m₂ split => ?_) (by rw [whole_struck]; exact rest.strikes)
    obtain ⟨rfl, text⟩ := of_map_eq split
    refine ⟨fun _ => rfl, fun _ first => ?_⟩
    subst first
    have absent : 'p' ∉ "ublic".toList ++ gap := by
      rw [List.mem_append, not_or]
      exact ⟨by decide, fun mem => absurd (blank 'p' mem) (by decide)⟩
    obtain ⟨front', behind⟩ := append_cons_inj_of_not_mem (a := []) List.not_mem_nil absent text
    rwa [whole_append, ← front', ← behind, List.append_nil, rest.whole, List.append_assoc]

/-- Whether a region escapes the next character only if it comes behind a backslash. -/
def EscapedBy (left : Option Char) : Region → Prop
  | .escaped _ => left = some '\\'
  | .mark next => next.Rests
  | _ => True

theorem escapedBy_of_step {next : Region} {c : Char} {kept : Bool}
    (step : Step .java region c s kept next) (belongs : region.Belongs .java)
    (escaped : EscapedBy left region) : EscapedBy (shown kept c).getLast? next := by
  cases step with
  | openTriple _ python => cases python
  | escapeQuoted => rfl
  | escapeTriple | closeTriple | triple | tripleEscaped => cases belongs
  | mark => cases next <;> trivial
  | _ => trivial

/-- Words are removed where they do not stand behind a slash or a backslash. By induction on the
length of the source, a word or a character at a time. -/
theorem exists_leaves (detached : Detached t) (belongs : region.Belongs .java)
    (stripped : t = front ++ stripFrom .java region s)
    (loose : left = front.getLast? ∨ Loose left)
    (escaped : EscapedBy left region) :
    ∃ m, Leaves t front left region s m := by
  induction size : s.length using Nat.strong_induction_on generalizing front region s left with
  | _ n ih =>
    by_cases mem : octets front ∈ publicOffsets t
    · obtain ⟨found, gap, rest, rfl, blank, stops, apart, word⟩ :=
        exists_of_mem_publicOffsets belongs stripped mem
      have loose : Loose left := by
        rcases loose with rfl | loose
        · exact ⟨found.begins, (detached _ _ found).2⟩
        · exact loose
      have resumed : region.resumed = region := by
        cases region with
        | escaped q => exact absurd escaped loose.noEscape
        | _ => rfl
      rw [resumed] at apart word
      have shorter : rest.length < n := size ▸ length_lt_public gap rest
      have stripped' : t = (front ++ ("public" ++ gap)) ++ stripFrom .java region rest := by
        rw [stripped, word]
        simp only [List.append_assoc]
      obtain ⟨m, leaves⟩ := ih rest.length shorter belongs stripped' (Or.inr loose) escaped rfl
      exact ⟨_, .word mem (word ▸ found) loose blank stops apart word leaves⟩
    · cases s with
      | nil => exact ⟨[], rfl, rfl, .nil, strikes_nil t front⟩
      | cons c s =>
        obtain ⟨kept, next, step⟩ := exists_step .java region c s
        have shorter : s.length < n := size ▸ Nat.lt_succ_self s.length
        have stripped' : t = (front ++ shown kept c) ++ stripFrom .java next s := by
          rw [stripped, stripFrom_shown step, List.append_assoc]
        have last : (shown kept c).getLast? = (front ++ shown kept c).getLast? := by
          rw [List.getLast?_append, getLast?_shown_or]
        obtain ⟨m, leaves⟩ := ih s.length shorter (step.belongs belongs) stripped' (Or.inl last)
          (escapedBy_of_step step belongs escaped) rfl
        exact ⟨_, leaves.keep detached belongs step stripped mem⟩

/-- A type is public in what is left exactly when it was public before and the search missed it. -/
theorem Leaves.exists_outermostPublic_iff {modifiers : List Text}
    (words : ∀ w ∈ modifiers, IsWord w) (isPublic : "public".toList ∈ modifiers)
    (leaves : Leaves t [] none .code s m) (whole : t = Struck.whole m) :
    (∃ front rest, OutermostPublic modifiers (Struck.kept m) front rest) ↔
      ∃ front rest, OutermostPublic modifiers t front rest ∧
        ¬ OutermostPublic publicTypeModifiers t front rest := by
  have demoted : Demoted none none m := leaves.demoted
  have strikes := leaves.strikes
  constructor
  · rintro ⟨front, rest, found⟩
    obtain ⟨behind, rfl⟩ := found.exists_cons
    obtain ⟨m₁, m₂, rfl, rfl, rfl⟩ := exists_of_kept_eq found.whole
    refine ⟨Struck.whole m₁, _, whole ▸ (demoted.outermostPublic_iff words isPublic).2 found, ?_⟩
    exact fun missed => absurd ((strikes m₁ false 'p' m₂ rfl).1 missed) Bool.false_ne_true
  · rintro ⟨front, rest, found, missed⟩
    obtain ⟨behind, rfl⟩ := found.exists_cons
    subst whole
    obtain ⟨m₁, k, m₂, rfl, rfl, rfl⟩ := exists_of_whole_eq found.whole
    cases k with
    | true => exact absurd ((strikes m₁ true 'p' m₂ rfl).2 rfl rfl) missed
    | false => exact ⟨_, _, (demoted.outermostPublic_iff words isPublic).1 found⟩

end Leaves

/-! ## Public types of a prepared source -/

/-- The source without its imports and package lines. -/
def keptText (source : Text) : Text :=
  join ['\n'] (keptLines source)

/-- Whether an outermost type of a text is public, with any modifiers that a header may have. -/
def ShowsPublic (t : Text) : Prop :=
  ∃ front rest, OutermostPublic TypedSource.modifierWords t front rest

theorem showsPublic_demote_iff {source : Text} (detached : Detached (stripComments .java source)) :
    ShowsPublic (stripComments .java (demote source)) ↔
      ∃ front rest,
        OutermostPublic TypedSource.modifierWords (stripComments .java source) front rest ∧
          ¬ OutermostPublic publicTypeModifiers (stripComments .java source) front rest := by
  have words : ∀ w ∈ TypedSource.modifierWords, IsWord w := by decide
  have belongs : Region.code.Belongs .java := trivial
  have escaped : EscapedBy none .code := trivial
  have whole : stripComments .java source = [] ++ stripFrom .java .code source := rfl
  obtain ⟨m, leaves⟩ := exists_leaves detached belongs whole (Or.inl rfl) escaped
  have left : Struck.kept m = stripComments .java (demote source) := leaves.kept
  rw [ShowsPublic, ← left]
  exact leaves.exists_outermostPublic_iff words (by decide) leaves.whole.symm

theorem length_lines_stripComments (source : Text) :
    (stripComments .java source).lines.length = source.lines.length := by
  rw [(forall₂_passages source).length_eq, ← map_line_passages, List.length_map]

theorem keptLines_eq_filter (source : Text) :
    keptLines source = ((source.lines.zip (stripComments .java source).lines).filter
      fun x => LineKind.of x.2 = .other).map Prod.fst := by
  rw [keptLines, classifyLines, List.zip_map_right, List.filterMap_map]
  induction source.lines.zip (stripComments .java source).lines with
  | nil => rfl
  | cons x lines ih =>
    rw [List.filterMap_cons, List.filter_cons, ih]
    obtain ⟨line, bare⟩ := x
    cases kind : LineKind.of bare <;> simp [kind]

/-- A source is prepared by taking out each line whose text without comments is an import or a
package line, and some words `public` with the spaces and tabs behind them from the rest. As long as
no such word stands directly behind a slash or a backslash, no outermost type is left public exactly
when each one that was had only modifiers that the search goes over. -/
theorem showsPublic_prepare_iff (source : Text) :
    ((stripComments .java source).lines.length = source.lines.length ∧
      keptLines source = ((source.lines.zip (stripComments .java source).lines).filter
        fun x => LineKind.of x.2 = .other).map Prod.fst) ∧
    WithoutPublic (keptText source) (prepare true source).body ∧
    (Detached (stripComments .java (keptText source)) →
      (¬ ShowsPublic (stripComments .java (prepare true source).body) ↔
        ∀ front rest,
          OutermostPublic TypedSource.modifierWords (stripComments .java (keptText source)) front
            rest →
          OutermostPublic publicTypeModifiers (stripComments .java (keptText source)) front
            rest)) := by
  refine ⟨⟨length_lines_stripComments source, keptLines_eq_filter source⟩,
    withoutPublic_demote (keptText source), fun detached => ?_⟩
  have shows := not_congr (showsPublic_demote_iff detached)
  refine shows.trans ?_
  push Not
  rfl

/-- A final class is not left public. -/
theorem showsPublic_prepare_final : ¬ ShowsPublic (stripComments .java
    (prepare true "import java.util.*;\npublic final class Solution \x7b\x7d").body) := by
  have text : stripComments .java
      (keptText "import java.util.*;\npublic final class Solution \x7b\x7d") =
        'p' :: "ublic final class Solution \x7b\x7d" := by
    decide +kernel
  have single {modifiers : List Text} {front rest : Text}
      (found : OutermostPublic modifiers ('p' :: "ublic final class Solution \x7b\x7d") front
        rest) : front = [] := by
    obtain ⟨behind, rfl⟩ := found.exists_cons
    exact (append_cons_inj_of_not_mem (a := []) List.not_mem_nil (by decide) found.whole).1.symm
  refine ((showsPublic_prepare_iff _).2.2 ?_).2 ?_ <;> rw [text] <;> intro front rest found
  · rw [single found]
    exact ⟨nofun, nofun⟩
  · obtain rfl := single found
    exact (mem_publicOffsets_iff found.whole).1 (by decide +kernel)

/-- A class is left public when a modifier stands there that the search does not go over. -/
theorem showsPublic_prepare_strictfp : ShowsPublic (stripComments .java
    (prepare true "public strictfp class Solution \x7b\x7d").body) := by
  have text : stripComments .java (prepare true "public strictfp class Solution \x7b\x7d").body =
      "public strictfp class Solution \x7b\x7d" := by
    decide +kernel
  have starts {t : Text} : StartsBlank (' ' :: t) := ⟨' ', rfl, rfl⟩
  have type : LeadsToType TypedSource.modifierWords ("class" ++ " Solution \x7b\x7d") :=
    .keyword (by decide) rfl
  have leads : LeadsToType TypedSource.modifierWords
      ("strictfp" ++ ' ' :: ("class" ++ " Solution \x7b\x7d")) :=
    .modifier (by decide) starts (.blank rfl type)
  rw [text]
  exact ⟨[], _, rfl, by decide, rfl, _, rfl, starts, .blank rfl leads⟩

end HarnessSynthesis.Harness.JavaSource
