/-
# Places of a source

A place in a stripped source is a place in its source: what a scanner finds there that is no blank
was kept, so it stands in the code or in a string, behind as many octets of the source. At such a
place a text can be written in without a change to what the scan makes of the rest, as long as
nothing in it or behind it takes part in a mark.
-/

import HarnessSynthesis.Proofs.Source.Stripping

namespace HarnessSynthesis.Source

/-! ## The region at a place -/

/-- The region in which a scan comes to a text behind another one. Unlike a scan of the first text
alone, it has the second one ahead all along. -/
def regionAt (l : Language) : Region → (before rest : Text) → Region
  | region, [], _ => region
  | region, c :: before, rest => regionAt l (region.step l c (before ++ rest)).2 before rest

theorem Step.regionAt_eq {l : Language} {region next : Region} {c : Char} {before rest : Text}
    {kept : Bool} (h : Step l region c (before ++ rest) kept next) :
    regionAt l region (c :: before) rest = regionAt l next before rest := by
  rw [regionAt, h.step_eq]

/-- A character that is kept stands in the code or in a string, unless it ends a line. -/
theorem Step.keeps {l : Language} {region next : Region} {c : Char} {t : Text}
    (h : Step l region c t true next) (visible : ¬ IsBlanking c) : region.Keeps := by
  cases h with
  | closeLine => exact absurd (Or.inr rfl) visible
  | _ => trivial

/-- What is visible in a stripped text stands in its source behind as many octets. -/
theorem exists_of_stripFrom_eq {l : Language} {region : Region} {source front back : Text}
    {c : Char} (stripped : stripFrom l region source = front ++ c :: back)
    (visible : ¬ IsBlanking c) :
    ∃ before rest : Text, source = before ++ c :: rest ∧ before.octets = front.octets ∧
      (regionAt l region before (c :: rest)).Keeps := by
  induction source generalizing region front with
  | nil => exact absurd stripped (by simp)
  | cons d t ih =>
    obtain ⟨kept, next, step⟩ := exists_step l region d t
    rw [step.stripFrom_eq] at stripped
    have later {more : Text} (behind : stripFrom l next t = more ++ c :: back) :
        ∃ before rest : Text, d :: t = before ++ c :: rest ∧
          before.octets = d.utf8Size + more.octets ∧
          (regionAt l region before (c :: rest)).Keeps := by
      obtain ⟨before, rest, rfl, octets, keeps⟩ := ih behind
      refine ⟨d :: before, rest, rfl, by rw [Text.octets_cons, octets], ?_⟩
      rw [step.regionAt_eq]
      exact keeps
    cases kept with
    | true =>
      rw [if_pos rfl, List.singleton_append] at stripped
      cases front with
      | nil =>
        obtain ⟨rfl, -⟩ := List.cons.inj stripped
        exact ⟨[], t, rfl, rfl, step.keeps visible⟩
      | cons e front =>
        obtain ⟨rfl, behind⟩ := List.cons.inj stripped
        exact later behind
    | false =>
      rw [if_neg Bool.false_ne_true] at stripped
      -- the character is not among the blanks, so all of these stand in front of it
      rcases Text.append_eq_append_cons stripped with ⟨more, whole, -⟩ | ⟨more, rfl, behind⟩
      · have inside : c ∈ blank d := whole ▸ List.mem_append_right front List.mem_cons_self
        exact absurd (isBlanking_of_mem_blank inside) visible
      · rw [Text.octets_append, octets_blank]
        exact later behind

/-! ## Regions of a language -/

/-- Whether a scan of a language can come to a region. -/
def Region.Belongs (l : Language) : Region → Prop
  | .quoted q | .escaped q => isDelimiter l q = true
  | .triple _ | .tripleEscaped _ => l = .python
  | .mark next => next.Belongs l
  | .code | .lineComment | .blockComment => True

theorem Step.belongs {l : Language} {region next : Region} {c : Char} {t : Text} {kept : Bool}
    (h : Step l region c t kept next) (belongs : region.Belongs l) : next.Belongs l := by
  cases h with
  | openTriple _ python => exact python
  | openQuoted delimits => exact delimits
  | escapeQuoted | quoted | escaped | escapeTriple | triple | tripleEscaped => exact belongs
  | mark => exact belongs
  | _ => trivial

/-- Outside of Python a step looks ahead for the second character of a mark only. -/
theorem Step.of_ahead {l : Language} (other : l ≠ .python) {region next : Region} {c : Char}
    {t t' : Text} {kept : Bool} (h : Step l region c t kept next) (belongs : region.Belongs l)
    (same : ∀ d ∈ ['/', '*'], t'.head? = some d ↔ t.head? = some d) :
    Step l region c t' kept next := by
  have slash : t'.head? = some '/' ↔ t.head? = some '/' := same '/' (by decide)
  have star : t'.head? = some '*' ↔ t.head? = some '*' := same '*' (by decide)
  cases h with
  | openTriple _ python => exact absurd python other
  | openQuoted delimits => exact .openQuoted delimits fun found => other found.1
  | openHash python => exact .openHash python
  | openLine _ ahead => exact .openLine other (slash.2 ahead)
  | openBlock _ ahead => exact .openBlock other (star.2 ahead)
  | code plain noHash noSlash =>
    exact .code plain noHash fun found =>
      noSlash ⟨found.1, found.2.1, found.2.2.imp slash.1 star.1⟩
  | closeLine => exact .closeLine
  | lineComment inside => exact .lineComment inside
  | closeBlock ahead => exact .closeBlock (slash.2 ahead)
  | blockComment inside => exact .blockComment fun found => inside ⟨found.1, slash.1 found.2⟩
  | escapeQuoted => exact .escapeQuoted
  | closeQuoted plain closes => exact .closeQuoted plain closes
  | quoted plain inside => exact .quoted plain inside
  | escaped => exact .escaped
  | escapeTriple => exact .escapeTriple
  | closeTriple => exact absurd belongs other
  | triple => exact absurd belongs other
  | tripleEscaped => exact .tripleEscaped
  | mark => exact .mark

/-! ## Characters that open and close nothing -/

/-- A character that takes part in no mark, no escape and no end of a string or line. -/
structure Idle (l : Language) (c : Char) : Prop where
  noDelimiter : ¬ isDelimiter l c = true
  noMark : c ∉ ['#', '/', '*', '\\', '\n']

instance (l : Language) (c : Char) : Decidable (Idle l c) :=
  decidable_of_iff (¬ isDelimiter l c = true ∧ c ∉ ['#', '/', '*', '\\', '\n'])
    ⟨fun h => ⟨h.1, h.2⟩, fun h => ⟨h.1, h.2⟩⟩

/-- The region behind an idle character: an escape is over with it. -/
def Region.resumed : Region → Region
  | .escaped q => .quoted q
  | region => region

theorem Region.Keeps.resumed {region : Region} (keeps : region.Keeps) : region.resumed.Keeps := by
  cases region <;> exact keeps

theorem Region.Belongs.resumed {l : Language} {region : Region} (belongs : region.Belongs l) :
    region.resumed.Belongs l := by
  cases region <;> exact belongs

theorem Region.resumed_resumed (region : Region) : region.resumed.resumed = region.resumed := by
  cases region <;> rfl

/-- Whatever is ahead, an idle character of the code or of a string is kept. -/
theorem Idle.step {l : Language} {c : Char} (idle : Idle l c) {region : Region}
    (keeps : region.Keeps) (belongs : region.Belongs l) (t : Text) :
    Step l region c t true region.resumed := by
  have noMark := idle.noMark
  simp only [List.mem_cons, List.not_mem_nil, or_false, not_or] at noMark
  obtain ⟨noHash, noSlash, -, noEscape, noFeed⟩ := noMark
  cases region with
  | code =>
    exact .code idle.noDelimiter (fun found => noHash found.2) fun found => noSlash found.2.1
  | quoted q =>
    refine .quoted noEscape ?_
    rintro (rfl | feed)
    · exact idle.noDelimiter belongs
    · exact noFeed feed.1
  | escaped q => exact .escaped
  | _ => exact False.elim keeps

theorem stripFrom_idle_cons {l : Language} {c : Char} (idle : Idle l c) {region : Region}
    (keeps : region.Keeps) (belongs : region.Belongs l) (t : Text) :
    stripFrom l region (c :: t) = c :: stripFrom l region.resumed t := by
  rw [(idle.step keeps belongs t).stripFrom_eq]
  rfl

/-- Idle text is kept, and behind it the scan is where it was, but for an escape. -/
theorem stripFrom_idle_append {l : Language} {w : Text} (idle : ∀ c ∈ w, Idle l c)
    (nonempty : w ≠ []) {region : Region} (keeps : region.Keeps) (belongs : region.Belongs l)
    (t : Text) : stripFrom l region (w ++ t) = w ++ stripFrom l region.resumed t := by
  induction w generalizing region with
  | nil => exact absurd rfl nonempty
  | cons c w ih =>
    rw [List.forall_mem_cons] at idle
    rw [List.cons_append, stripFrom_idle_cons idle.1 keeps belongs, List.cons_append]
    by_cases last : w = []
    · rw [last]
      rfl
    · rw [ih idle.2 last keeps.resumed belongs.resumed, Region.resumed_resumed]

end HarnessSynthesis.Source
