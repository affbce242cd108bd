/-
# Stripped sources

A stripped source is its source with some characters blanked out where they stand. This module says
so of the octets, in which offsets are counted, and adds that stripping is done once and for all:
where the source was inside of a comment the stripped source is inside of the code, among blanks
that open nothing, and whatever opens something in the stripped source stood in the source already.
-/

import Mathlib.Data.List.Forall2
import HarnessSynthesis.Proofs.Source.Octets
import HarnessSynthesis.Proofs.Source.Regions

namespace HarnessSynthesis.Source

open Text (utf8)

/-! ## Blanking out in place -/

/-- A text and another one that has some of its characters blanked out, each as a whole. -/
inductive Blanked : Text → Text → Prop where
  | nil : Blanked [] []
  | kept (c : Char) {s t : Text} (rest : Blanked s t) : Blanked (c :: s) (c :: t)
  | blanked (c : Char) {s t : Text} (rest : Blanked s t) : Blanked (c :: s) (blank c ++ t)

theorem blanked_stripFrom (l : Language) (region : Region) (t : Text) :
    Blanked t (stripFrom l region t) := by
  induction t generalizing region with
  | nil => exact .nil
  | cons c t ih =>
    obtain ⟨kept, next, step⟩ := exists_step l region c t
    rw [step.stripFrom_eq]
    cases kept with
    | true => exact .kept c (ih next)
    | false => exact .blanked c (ih next)

/-- An octet and what has become of it. -/
def OctetBlanked (o o' : UInt8) : Prop :=
  o' = o ∨ (o ≠ '\n'.toUInt8 ∧ o' = ' '.toUInt8)

theorem octetBlanked_blankOctet (o : UInt8) : OctetBlanked o (blankOctet o) := by
  by_cases feed : o = '\n'.toUInt8
  · exact Or.inl (if_pos feed)
  · exact Or.inr ⟨feed, if_neg feed⟩

/-- Every octet of a text stays or is blanked out, at its place. -/
theorem Blanked.octets {s t : Text} (h : Blanked s t) :
    List.Forall₂ OctetBlanked (utf8 s) (utf8 t) := by
  induction h with
  | nil => exact .nil
  | kept c _ ih =>
    have same : List.Forall₂ OctetBlanked (String.utf8EncodeChar c) (String.utf8EncodeChar c) :=
      List.forall₂_same.2 fun o _ => Or.inl rfl
    rw [Text.utf8_cons, Text.utf8_cons]
    exact List.rel_append same ih
  | blanked c _ ih =>
    have blanks : List.Forall₂ OctetBlanked (String.utf8EncodeChar c)
        ((String.utf8EncodeChar c).map blankOctet) :=
      List.forall₂_map_right_iff.2 (List.forall₂_same.2 fun o _ => octetBlanked_blankOctet o)
    rw [Text.utf8_cons, Text.utf8_append, utf8_blank]
    exact List.rel_append blanks ih

theorem getElem?_of_forall₂ {α β : Type} {r : α → β → Prop} {as : List α} {bs : List β}
    (h : List.Forall₂ r as bs) {i : Nat} {a : α} (place : as[i]? = some a) :
    ∃ b, bs[i]? = some b ∧ r a b := by
  obtain ⟨inside, rfl⟩ := List.getElem?_eq_some_iff.1 place
  have inside' : i < bs.length := h.length_eq ▸ inside
  exact ⟨bs[i], List.getElem?_eq_getElem inside', h.get inside inside'⟩

/-! ## What stands ahead -/

/-- The characters that are left of a character which is blanked out. -/
def IsBlanking (c : Char) : Prop :=
  c = ' ' ∨ c = '\n'

theorem isBlanking_of_mem_blank {c d : Char} (h : d ∈ blank c) : IsBlanking d := by
  rw [blank] at h
  split at h
  · exact Or.inr (List.mem_singleton.1 h)
  · exact Or.inl (List.eq_of_mem_replicate h)

theorem exists_blank_eq_cons (c : Char) : ∃ d b, blank c = d :: b := by
  rw [blank]
  split
  · exact ⟨_, _, rfl⟩
  · obtain ⟨n, size⟩ := Nat.exists_eq_succ_of_ne_zero (Nat.pos_iff_ne_zero.1 c.utf8Size_pos)
    rw [size]
    exact ⟨_, _, List.replicate_succ⟩

/-- A mark without blanks that stands in front of a stripped text stood in front of its source. -/
theorem Blanked.isPrefix {mark s t : Text} (visible : ∀ c ∈ mark, ¬ IsBlanking c)
    (h : Blanked s t) (found : mark <+: t) : mark <+: s := by
  induction mark generalizing s t with
  | nil => exact List.nil_prefix
  | cons d mark ih =>
    rw [List.forall_mem_cons] at visible
    cases h with
    | nil => exact found
    | kept c rest =>
      rw [List.cons_prefix_cons] at found ⊢
      exact ⟨found.1, ih visible.2 rest found.2⟩
    | blanked c rest =>
      obtain ⟨e, b, whole⟩ := exists_blank_eq_cons c
      rw [whole, List.cons_append, List.cons_prefix_cons] at found
      have blanking : IsBlanking e := isBlanking_of_mem_blank (whole ▸ List.mem_cons_self)
      exact absurd (found.1 ▸ blanking) visible.1

theorem Blanked.head?_ne {s t : Text} (h : Blanked s t) {c : Char} (visible : ¬ IsBlanking c)
    (absent : s.head? ≠ some c) : t.head? ≠ some c := by
  rw [ne_eq, ← List.singleton_prefix_iff_head?_eq_some] at absent ⊢
  exact fun found => absent (h.isPrefix (List.forall_mem_singleton.2 visible) found)

theorem Blanked.not_startsWith_pair {s t : Text} (h : Blanked s t) {q : Char}
    (visible : ¬ IsBlanking q) (absent : ¬ Text.startsWith [q, q] s = true) :
    ¬ Text.startsWith [q, q] t = true := by
  rw [Text.startsWith_iff] at absent ⊢
  exact fun found => absent (h.isPrefix
    (List.forall_mem_cons.2 ⟨visible, List.forall_mem_singleton.2 visible⟩) found)

/-! ## Stripping a stripped source -/

/-- The region of a stripped text where its source is in a region: comments are blanks of the
code. -/
def Region.stripped : Region → Region
  | .quoted q => .quoted q
  | .escaped q => .escaped q
  | _ => .code

/-- Marks lead into comments and out of them, so what follows one is code in a stripped text. -/
def Region.Sound : Region → Prop
  | .mark next => next.stripped = .code ∧ next.Sound
  | _ => True

theorem not_isBlanking_of_isDelimiter {l : Language} {q : Char} (h : isDelimiter l q = true) :
    ¬ IsBlanking q := by
  rintro (rfl | rfl) <;> cases l <;> cases h

theorem not_isBlanking_of_mem {c : Char} (h : c ∈ ['/', '*']) : ¬ IsBlanking c := by
  simp only [List.mem_cons, List.not_mem_nil, or_false] at h
  rcases h with rfl | rfl <;> rintro (h | h) <;> cases h

/-- A character that is kept is kept again, and the two scans go on side by side: nothing opens in
front of a stripped text that does not open in front of its source. -/
theorem Step.stripped_of_kept {l : Language} {region next : Region} {c : Char} {t t' : Text}
    (h : Step l region c t true next) (same : Blanked t t') :
    Step l region.stripped c t' true next.stripped := by
  cases h with
  | openQuoted delimits single =>
    refine .openQuoted delimits fun found => ?_
    have absent : ¬ Text.startsWith [c, c] t = true := fun opens => single ⟨found.1, opens⟩
    exact same.not_startsWith_pair (not_isBlanking_of_isDelimiter delimits) absent found.2
  | code plain noHash noSlash =>
    refine .code plain noHash fun found => ?_
    obtain ⟨other, slash, ahead⟩ := found
    rcases ahead with line | block
    · exact same.head?_ne (not_isBlanking_of_mem (by decide))
        (fun opens => noSlash ⟨other, slash, .inl opens⟩) line
    · exact same.head?_ne (not_isBlanking_of_mem (by decide))
        (fun opens => noSlash ⟨other, slash, .inr opens⟩) block
  | closeLine => exact step_code_blank (.inr rfl) t'
  | escapeQuoted => exact .escapeQuoted
  | closeQuoted plain closes => exact .closeQuoted plain closes
  | quoted plain inside => exact .quoted plain inside
  | escaped => exact .escaped

/-- A character is blanked out only among comments, their marks included. -/
theorem Step.stripped_of_blanked {l : Language} {region next : Region} {c : Char} {t : Text}
    (h : Step l region c t false next) (sound : region.Sound) :
    region.stripped = .code ∧ next.stripped = .code := by
  cases h with
  | mark => exact ⟨rfl, sound.1⟩
  | _ => exact ⟨rfl, rfl⟩

theorem Step.sound {l : Language} {region next : Region} {c : Char} {t : Text} {kept : Bool}
    (h : Step l region c t kept next) (sound : region.Sound) : next.Sound := by
  cases h with
  | mark => exact sound.2
  | openTriple => exact ⟨rfl, rfl, trivial⟩
  | closeTriple => exact ⟨rfl, rfl, trivial⟩
  | openLine => exact ⟨rfl, trivial⟩
  | openBlock => exact ⟨rfl, trivial⟩
  | closeBlock => exact ⟨rfl, trivial⟩
  | _ => trivial

theorem stripFrom_code_append (l : Language) {b : Text} (blanks : ∀ c ∈ b, IsBlanking c)
    (t : Text) : stripFrom l .code (b ++ t) = b ++ stripFrom l .code t := by
  induction b with
  | nil => rfl
  | cons c b ih =>
    rw [List.forall_mem_cons] at blanks
    rw [List.cons_append, (step_code_blank blanks.1 _).stripFrom_eq, ih blanks.2]
    rfl

/-- By induction on the source: the scan of the stripped text is in the stripped region all
along. -/
theorem stripFrom_stripped {l : Language} {region : Region} (sound : region.Sound) (t : Text) :
    stripFrom l region.stripped (stripFrom l region t) = stripFrom l region t := by
  induction t generalizing region with
  | nil => rfl
  | cons c t ih =>
    obtain ⟨kept, next, step⟩ := exists_step l region c t
    have again := ih (step.sound sound)
    rw [step.stripFrom_eq]
    cases kept with
    | true =>
      have same : Blanked t (stripFrom l next t) := blanked_stripFrom l next t
      show stripFrom l region.stripped (c :: stripFrom l next t) = c :: stripFrom l next t
      rw [(step.stripped_of_kept same).stripFrom_eq, again]
      rfl
    | false =>
      obtain ⟨here, behind⟩ := step.stripped_of_blanked sound
      rw [behind] at again
      show stripFrom l region.stripped (blank c ++ stripFrom l next t) = _
      rw [here, stripFrom_code_append l fun d => isBlanking_of_mem_blank, again]
      rfl

/-! ## The projection -/

/-- What a stripped source is of its source. The scan over octets, whose jumps can end inside of a
character, gives the same text. -/
structure IsProjection (l : Language) (source stripped : Text) : Prop where
  length : (utf8 stripped).length = (utf8 source).length
  /-- Every octet is the source's octet at its place or a space. -/
  octet (i : Nat) (o : UInt8) (place : (utf8 source)[i]? = some o) :
    (utf8 stripped)[i]? = some o ∨ (utf8 stripped)[i]? = some ' '.toUInt8
  lineFeed (i : Nat) (place : (utf8 source)[i]? = some '\n'.toUInt8) :
    (utf8 stripped)[i]? = some '\n'.toUInt8
  /-- A character is kept or blanked out as a whole. -/
  characters : Blanked source stripped
  /-- The octets that a scan over octets leaves are a text, and it is this one. -/
  decoded : String.fromUTF8? (stripOctets l (utf8 source)).toByteArray =
    some (String.ofList stripped)
  stable : stripComments l stripped = stripped

theorem stripComments_isProjection (l : Language) (source : Text) :
    IsProjection l source (stripComments l source) := by
  have blanked : Blanked source (stripComments l source) := blanked_stripFrom l .code source
  have inPlace : List.Forall₂ OctetBlanked (utf8 source) (utf8 (stripComments l source)) :=
    blanked.octets
  exact {
    length := inPlace.length_eq.symm
    octet := by
      intro i o place
      obtain ⟨o', place', same | ⟨-, space⟩⟩ := getElem?_of_forall₂ inPlace place
      · exact Or.inl (same ▸ place')
      · exact Or.inr (space ▸ place')
    lineFeed := by
      intro i place
      obtain ⟨o', place', same | ⟨visible, -⟩⟩ := getElem?_of_forall₂ inPlace place
      · exact same ▸ place'
      · exact absurd rfl visible
    characters := blanked
    decoded := by
      rw [stripOctets_utf8, Text.fromUTF8?_utf8]
    stable := by
      have sound : Region.code.Sound := trivial
      exact stripFrom_stripped sound source }

/-! ## Sources without comments -/

/-- Inside of code and of strings characters are kept. -/
def Region.Keeps : Region → Prop
  | .code | .quoted _ | .escaped _ => True
  | _ => False

/-- A Python source without number signs and triple quotes stays as it is, wherever its strings
end. -/
theorem stripFrom_eq_self {region : Region} (keeps : region.Keeps) {t : Text}
    (noComment : '#' ∉ t) (noTriple : ∀ q, isDelimiter .python q = true → ¬ [q, q, q] <:+: t) :
    stripFrom .python region t = t := by
  induction t generalizing region with
  | nil => rfl
  | cons c t ih =>
    obtain ⟨kept, next, step⟩ := exists_step .python region c t
    have stays : kept = true ∧ next.Keeps := by
      cases step with
      | openTriple delimits _ ahead =>
        have front : [c, c, c] <+: c :: t :=
          (List.prefix_cons_inj c).2 (Text.startsWith_iff.1 ahead)
        exact absurd front.isInfix (noTriple c delimits)
      | openHash => exact absurd List.mem_cons_self noComment
      | openLine other => exact absurd rfl other
      | openBlock other => exact absurd rfl other
      | openQuoted | code | escapeQuoted | closeQuoted | quoted | escaped => exact ⟨rfl, trivial⟩
      | _ => exact False.elim keeps
    obtain ⟨rfl, keeps⟩ := stays
    rw [stripFrom_cons step.step_eq,
      ih keeps (fun found => noComment (List.mem_cons_of_mem c found))
        fun q delimits found => noTriple q delimits (found.trans (List.suffix_cons c t).isInfix)]
    rfl

end HarnessSynthesis.Source
