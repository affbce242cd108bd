/-
# Comments in octets

Comments can be blanked out in the octets of a source as well as in its characters. A scan of octets
needs five regions only, since it takes a mark or an escape in one step of two or three octets. But
an escape takes just one octet behind its backslash, so a step can end inside of a character, and
what is left of the character is scanned as if it stood there for itself.

The octets of such a remainder lie beyond ASCII, where no scan looks for anything. So the remainder
is treated like the first octet, and the two scans agree: blanking out the octets of a source gives
the octets of the source blanked out.
-/

import HarnessSynthesis.Proofs.Source.Regions
import HarnessSynthesis.Proofs.Text.Search
import HarnessSynthesis.Proofs.Text.Utf8

namespace HarnessSynthesis.Source

open Text (utf8 IsAscii)

/-! ## The scan of octets -/

/-- What a scan of octets is inside of. -/
inductive OctetRegion where
  | code
  | lineComment
  | blockComment
  | quoted (delimiter : UInt8)
  | triple (delimiter : UInt8)
  deriving DecidableEq, Repr

/-- One step of a scan of octets. -/
structure OctetStep where
  /-- How many octets are taken behind the first one. -/
  further : Nat
  kept : Bool
  next : OctetRegion
  deriving DecidableEq, Repr

/-- An octet blanked out. -/
def blankOctet (o : UInt8) : UInt8 :=
  if o = '\n'.toUInt8 then o else ' '.toUInt8

/-- Whether an octet delimits a string of a language. -/
def isDelimiterOctet (l : Language) (o : UInt8) : Bool :=
  o == '"'.toUInt8 || o == '\''.toUInt8 || (o == '`'.toUInt8 && l == .typescript)

/-- The step at an octet, from the octets behind it. -/
def OctetRegion.step (l : Language) (region : OctetRegion) (o : UInt8) (rest : List UInt8) :
    OctetStep :=
  match region with
  | .code =>
    if isDelimiterOctet l o then
      if l = .python ∧ [o, o] <+: rest then ⟨2, false, .triple o⟩ else ⟨0, true, .quoted o⟩
    else if l = .python then
      if o = '#'.toUInt8 then ⟨0, false, .lineComment⟩ else ⟨0, true, .code⟩
    else if o = '/'.toUInt8 ∧ ['/'.toUInt8] <+: rest then ⟨1, false, .lineComment⟩
    else if o = '/'.toUInt8 ∧ ['*'.toUInt8] <+: rest then ⟨1, false, .blockComment⟩
    else ⟨0, true, .code⟩
  | .lineComment => if o = '\n'.toUInt8 then ⟨0, true, .code⟩ else ⟨0, false, .lineComment⟩
  | .blockComment =>
    if o = '*'.toUInt8 ∧ ['/'.toUInt8] <+: rest then ⟨1, false, .code⟩
    else ⟨0, false, .blockComment⟩
  | .quoted q =>
    if o = '\\'.toUInt8 then ⟨1, true, .quoted q⟩
    else if o = q ∨ (o = '\n'.toUInt8 ∧ q ≠ '`'.toUInt8) then ⟨0, true, .code⟩
    else ⟨0, true, .quoted q⟩
  | .triple q =>
    if o = '\\'.toUInt8 then ⟨1, false, .triple q⟩
    else if o = q ∧ [q, q] <+: rest then ⟨2, false, .code⟩
    else ⟨0, false, .triple q⟩

/-- The rest of the octets of a source from within a region, its comments blanked out. -/
def stripOctetsFrom (l : Language) (region : OctetRegion) (os : List UInt8) : List UInt8 :=
  match os with
  | [] => []
  | o :: rest =>
    let step := region.step l o rest
    let taken := o :: rest.take step.further
    (if step.kept then taken else taken.map blankOctet) ++
      stripOctetsFrom l step.next (rest.drop step.further)
  termination_by os.length
  decreasing_by
    simp only [List.length_drop, List.length_cons]
    omega

/-- The octets of a source with its comments blanked out. -/
def stripOctets (l : Language) (os : List UInt8) : List UInt8 :=
  stripOctetsFrom l .code os

theorem stripOctetsFrom_nil (l : Language) (region : OctetRegion) :
    stripOctetsFrom l region [] = [] := by
  rw [stripOctetsFrom]

theorem stripOctetsFrom_cons {l : Language} {region : OctetRegion} {o : UInt8}
    {rest : List UInt8} {further : Nat} {kept : Bool} {next : OctetRegion}
    (h : region.step l o rest = ⟨further, kept, next⟩) :
    stripOctetsFrom l region (o :: rest) =
      (if kept then o :: rest.take further else (o :: rest.take further).map blankOctet) ++
        stripOctetsFrom l next (rest.drop further) := by
  rw [stripOctetsFrom, h]

/-! ## Blanks -/

theorem blankOctet_toUInt8 {c : Char} (ascii : IsAscii c) :
    blankOctet c.toUInt8 = if c = '\n' then '\n'.toUInt8 else ' '.toUInt8 := by
  simp only [blankOctet, Text.toUInt8_inj ascii (show IsAscii '\n' by decide)]
  split
  · rename_i same
    rw [same]
  · rfl

theorem blankOctet_of_le {o : UInt8} (high : 0x80 ≤ o.toNat) : blankOctet o = ' '.toUInt8 :=
  if_neg (Text.ne_toUInt8_of_le high (by decide))

theorem utf8_replicate_space (n : Nat) :
    utf8 (List.replicate n ' ') = List.replicate n ' '.toUInt8 := by
  induction n with
  | zero => rfl
  | succ n ih =>
    rw [List.replicate_succ, Text.utf8_cons_of_isAscii (by decide), ih, List.replicate_succ]

/-- Blanking out a character blanks out its octets. -/
theorem utf8_blank (c : Char) : utf8 (blank c) = (String.utf8EncodeChar c).map blankOctet := by
  by_cases ascii : IsAscii c
  · rw [Text.utf8EncodeChar_of_isAscii ascii, List.map_singleton, blankOctet_toUInt8 ascii, blank]
    split
    · rfl
    · have one : c.utf8Size = 1 := by
        rw [← String.length_utf8EncodeChar, Text.utf8EncodeChar_of_isAscii ascii,
          List.length_singleton]
      rw [one]
      rfl
  · have other : c ≠ '\n' := by
      rintro rfl
      exact ascii (by decide)
    rw [blank, if_neg other, utf8_replicate_space, ← String.length_utf8EncodeChar,
      ← List.map_const']
    refine List.map_congr_left ?_
    intro o mem
    exact (blankOctet_of_le (Text.le_of_mem_utf8EncodeChar ascii mem)).symm

theorem utf8_flatMap_blank (t : Text) : utf8 (t.flatMap blank) = (utf8 t).map blankOctet := by
  induction t with
  | nil => rfl
  | cons c t ih =>
    rw [List.flatMap_cons, Text.utf8_append, utf8_blank, ih, Text.utf8_cons, List.map_append]

/-! ## Where the two scans stand -/

/-- A region of the scan of characters and the one of the scan of octets that it is. The others are
inside of a mark or an escape, where the scan of octets never stands. -/
inductive Agree (l : Language) : Region → OctetRegion → Prop where
  | code : Agree l .code .code
  | lineComment : Agree l .lineComment .lineComment
  | blockComment : Agree l .blockComment .blockComment
  | quoted {q : Char} (delimits : isDelimiter l q = true) : Agree l (.quoted q) (.quoted q.toUInt8)
  | triple {q : Char} (delimits : isDelimiter l q = true) : Agree l (.triple q) (.triple q.toUInt8)

/-- Whether a region's characters are kept where nothing is found. -/
def OctetRegion.keeps : OctetRegion → Bool
  | .code => true
  | .quoted _ => true
  | _ => false

theorem isAscii_of_isDelimiter {l : Language} {q : Char} (h : isDelimiter l q = true) :
    IsAscii q := by
  simp only [isDelimiter, Bool.or_eq_true, Bool.and_eq_true, beq_iff_eq] at h
  rcases h with (rfl | rfl) | ⟨rfl, -⟩ <;> decide

theorem isDelimiterOctet_toUInt8 {l : Language} {c : Char} (ascii : IsAscii c) :
    isDelimiterOctet l c.toUInt8 = isDelimiter l c := by
  have same (d : Char) (hd : IsAscii d) : (c.toUInt8 == d.toUInt8) = (c == d) := by
    rw [Bool.eq_iff_iff, beq_iff_eq, beq_iff_eq, Text.toUInt8_inj ascii hd]
  rw [isDelimiterOctet, isDelimiter, same '"' (by decide), same '\'' (by decide),
    same '`' (by decide)]

theorem isDelimiterOctet_of_le {l : Language} {o : UInt8} (high : 0x80 ≤ o.toNat) :
    isDelimiterOctet l o = false := by
  have differs (d : Char) (hd : IsAscii d) : (o == d.toUInt8) = false :=
    beq_eq_false_iff_ne.2 (Text.ne_toUInt8_of_le high hd)
  rw [isDelimiterOctet, differs '"' (by decide), differs '\'' (by decide), differs '`' (by decide)]
  rfl

/-! ## Beyond ASCII -/

/-- Nothing is found at an octet beyond ASCII. -/
theorem step_of_le {l : Language} {region : Region} {inside : OctetRegion}
    (agree : Agree l region inside) {o : UInt8} (high : 0x80 ≤ o.toNat) (rest : List UInt8) :
    inside.step l o rest = ⟨0, inside.keeps, inside⟩ := by
  have differs (d : Char) (hd : IsAscii d) : o ≠ d.toUInt8 := Text.ne_toUInt8_of_le high hd
  cases agree with
  | code =>
    simp only [OctetRegion.step, isDelimiterOctet_of_le high, differs '#' (by decide),
      differs '/' (by decide), false_and, if_false, Bool.false_eq_true, ite_self]
    rfl
  | lineComment => exact if_neg (differs '\n' (by decide))
  | blockComment => exact if_neg fun found => differs '*' (by decide) found.1
  | quoted delimits =>
    simp only [OctetRegion.step, differs '\\' (by decide), differs '\n' (by decide),
      differs _ (isAscii_of_isDelimiter delimits), false_and, or_self, if_false]
    rfl
  | triple delimits =>
    simp only [OctetRegion.step, differs '\\' (by decide),
      differs _ (isAscii_of_isDelimiter delimits), false_and, if_false]
    rfl

/-- What is left of a character is kept or blanked out as a whole. -/
theorem stripOctetsFrom_append_of_le {l : Language} {region : Region} {inside : OctetRegion}
    (agree : Agree l region inside) {os : List UInt8} (high : ∀ o ∈ os, 0x80 ≤ o.toNat)
    (rest : List UInt8) :
    stripOctetsFrom l inside (os ++ rest) =
      (if inside.keeps then os else os.map blankOctet) ++ stripOctetsFrom l inside rest := by
  induction os with
  | nil =>
    cases inside.keeps <;> rfl
  | cons o os ih =>
    rw [List.forall_mem_cons] at high
    rw [List.cons_append, stripOctetsFrom_cons (step_of_le agree high.1 _), List.take_zero,
      List.drop_zero, ih high.2]
    cases inside.keeps <;> rfl

/-- Nothing is found at a character beyond ASCII. -/
theorem step_of_not_isAscii {l : Language} {region : Region} {inside : OctetRegion}
    (agree : Agree l region inside) {c : Char} (wide : ¬ IsAscii c) (t : Text) :
    Step l region c t inside.keeps region := by
  have differs (d : Char) (hd : IsAscii d) : c ≠ d := Text.ne_of_not_isAscii wide hd
  have noDelimiter (h : isDelimiter l c = true) : False := wide (isAscii_of_isDelimiter h)
  cases agree with
  | code =>
    exact .code noDelimiter (fun hash => differs '#' (by decide) hash.2)
      (fun slash => differs '/' (by decide) slash.2.1)
  | lineComment => exact .lineComment (differs '\n' (by decide))
  | blockComment => exact .blockComment fun found => differs '*' (by decide) found.1
  | @quoted q delimits =>
    have inside : ¬ (c = q ∨ (c = '\n' ∧ q ≠ '`')) :=
      not_or.2 ⟨differs q (isAscii_of_isDelimiter delimits),
        fun feed => differs '\n' (by decide) feed.1⟩
    exact .quoted (differs '\\' (by decide)) inside
  | @triple q delimits =>
    exact .triple (differs '\\' (by decide))
      fun found => differs q (isAscii_of_isDelimiter delimits) found.1

/-! ## Agreement -/

section Agreement

variable {l : Language} {region region' : Region} {inside inside' : OctetRegion} {c d e q : Char}
  {t : Text}

/-- The two scans of a text agree, wherever they stand in front of it. -/
def Agrees (l : Language) (t : Text) : Prop :=
  ∀ ⦃region : Region⦄ ⦃inside : OctetRegion⦄, Agree l region inside →
    stripOctetsFrom l inside (utf8 t) = utf8 (stripFrom l region t)

theorem agrees_nil : Agrees l [] := by
  intro region inside _
  rw [Text.utf8_nil, stripOctetsFrom_nil]
  rfl

theorem Agrees.cons_wide (rest : Agrees l t) (wide : ¬ IsAscii c) (agree : Agree l region inside) :
    stripOctetsFrom l inside (utf8 (c :: t)) = utf8 (stripFrom l region (c :: t)) := by
  have high : ∀ o ∈ String.utf8EncodeChar c, 0x80 ≤ o.toNat :=
    fun _ mem => Text.le_of_mem_utf8EncodeChar wide mem
  rw [Text.utf8_cons, stripOctetsFrom_append_of_le agree high, rest agree,
    (step_of_not_isAscii agree wide t).stripFrom_eq, Text.utf8_append]
  cases inside.keeps
  · rw [← utf8_blank]
    rfl
  · rw [← List.append_nil (String.utf8EncodeChar c)]
    rfl

/-- A step of one octet. -/
theorem Agrees.cons_one (rest : Agrees l t) (kept : Bool) (ascii : IsAscii c)
    (octets : inside.step l c.toUInt8 (utf8 t) = ⟨0, kept, inside'⟩)
    (characters : region.step l c t = (kept, region')) (agree : Agree l region' inside') :
    stripOctetsFrom l inside (utf8 (c :: t)) = utf8 (stripFrom l region (c :: t)) := by
  rw [Text.utf8_cons_of_isAscii ascii, stripOctetsFrom_cons octets, List.take_zero, List.drop_zero,
    rest agree, stripFrom_cons characters, Text.utf8_append]
  cases kept
  · simp only [Bool.false_eq_true, if_false, utf8_blank, Text.utf8EncodeChar_of_isAscii ascii]
  · simp only [if_true, Text.utf8_cons_of_isAscii ascii, Text.utf8_nil]

/-- A mark of two octets. -/
theorem Agrees.cons_two (rest : Agrees l t) (hc : IsAscii c) (hd : IsAscii d)
    (octets : inside.step l c.toUInt8 (utf8 (d :: t)) = ⟨1, false, inside'⟩)
    (characters : region.step l c (d :: t) = (false, .mark region'))
    (agree : Agree l region' inside') :
    stripOctetsFrom l inside (utf8 (c :: d :: t)) = utf8 (stripFrom l region (c :: d :: t)) := by
  have taken : (utf8 (d :: t)).take 1 = [d.toUInt8] ∧ (utf8 (d :: t)).drop 1 = utf8 t := by
    rw [Text.utf8_cons_of_isAscii hd]
    exact ⟨rfl, rfl⟩
  rw [Text.utf8_cons_of_isAscii hc, stripOctetsFrom_cons octets, taken.1, taken.2, rest agree,
    stripFrom_cons characters, stripFrom_cons rfl]
  simp only [Bool.false_eq_true, if_false, Text.utf8_append, utf8_blank,
    Text.utf8EncodeChar_of_isAscii hc, Text.utf8EncodeChar_of_isAscii hd, List.map_cons,
    List.map_nil, List.cons_append, List.nil_append]

/-- A mark of three octets. -/
theorem Agrees.cons_three (rest : Agrees l t) (hc : IsAscii c) (hd : IsAscii d) (he : IsAscii e)
    (octets : inside.step l c.toUInt8 (utf8 (d :: e :: t)) = ⟨2, false, inside'⟩)
    (characters : region.step l c (d :: e :: t) = (false, .mark (.mark region')))
    (agree : Agree l region' inside') :
    stripOctetsFrom l inside (utf8 (c :: d :: e :: t)) =
      utf8 (stripFrom l region (c :: d :: e :: t)) := by
  have taken : (utf8 (d :: e :: t)).take 2 = [d.toUInt8, e.toUInt8] ∧
      (utf8 (d :: e :: t)).drop 2 = utf8 t := by
    rw [Text.utf8_cons_of_isAscii hd, Text.utf8_cons_of_isAscii he]
    exact ⟨rfl, rfl⟩
  rw [Text.utf8_cons_of_isAscii hc, stripOctetsFrom_cons octets, taken.1, taken.2, rest agree,
    stripFrom_cons characters, stripFrom_cons rfl, stripFrom_cons rfl]
  simp only [Bool.false_eq_true, if_false, Text.utf8_append, utf8_blank,
    Text.utf8EncodeChar_of_isAscii hc, Text.utf8EncodeChar_of_isAscii hd,
    Text.utf8EncodeChar_of_isAscii he, List.map_cons, List.map_nil, List.cons_append,
    List.nil_append]

/-- An escape: the octet behind the backslash may be the first one of several, and then the others
are left to the next steps. -/
theorem Agrees.cons_escape (rest : ∀ t' : Text, t'.length ≤ t.length → Agrees l t')
    (kept : Bool) (region' : Region) (ascii : IsAscii c) (agree : Agree l region inside)
    (keeps : inside.keeps = kept)
    (octets : inside.step l c.toUInt8 (utf8 t) = ⟨1, kept, inside⟩)
    (characters : region.step l c t = (kept, region'))
    (behind : ∀ d t', region'.step l d t' = (kept, region)) :
    stripOctetsFrom l inside (utf8 (c :: t)) = utf8 (stripFrom l region (c :: t)) := by
  rw [Text.utf8_cons_of_isAscii ascii, stripOctetsFrom_cons octets,
    stripFrom_cons characters]
  cases t with
  | nil =>
    rw [Text.utf8_nil, List.take_nil, List.drop_nil, stripOctetsFrom_nil, stripFrom_nil]
    cases kept
    · simp only [Bool.false_eq_true, if_false, Text.utf8_append, utf8_blank,
        Text.utf8EncodeChar_of_isAscii ascii, Text.utf8_nil]
    · simp only [if_true, Text.utf8_append, Text.utf8_cons_of_isAscii ascii, Text.utf8_nil]
  | cons d t' =>
    obtain ⟨o, os, whole, high⟩ := Text.exists_utf8EncodeChar d
    have encoded : utf8 (d :: t') = o :: (os ++ utf8 t') := by
      rw [Text.utf8_cons, whole, List.cons_append]
    have taken : (utf8 (d :: t')).take 1 = [o] ∧ (utf8 (d :: t')).drop 1 = os ++ utf8 t' := by
      rw [encoded]
      exact ⟨rfl, rfl⟩
    rw [taken.1, taken.2, stripOctetsFrom_append_of_le agree high,
      rest t' (Nat.le_succ _) agree, stripFrom_cons (behind d t'), keeps]
    cases kept
    · simp only [Bool.false_eq_true, if_false, Text.utf8_append, utf8_blank, whole,
        Text.utf8EncodeChar_of_isAscii ascii, List.map_cons, List.map_nil, List.cons_append,
        List.nil_append]
    · simp only [if_true, Text.utf8_cons_of_isAscii ascii, Text.utf8_cons d, whole,
        List.cons_append, List.nil_append]

/-! ### What stands ahead -/

theorem singleton_isPrefix_utf8 (ascii : IsAscii q) :
    [q.toUInt8] <+: utf8 t ↔ t.head? = some q := by
  have encoded : [q.toUInt8] = utf8 [q] := (Text.utf8_cons_of_isAscii ascii []).symm
  rw [encoded, Text.utf8_isPrefix_iff, List.singleton_prefix_iff_head?_eq_some]

theorem pair_isPrefix_utf8 (ascii : IsAscii q) :
    [q.toUInt8, q.toUInt8] <+: utf8 t ↔ Text.startsWith [q, q] t = true := by
  have encoded : [q.toUInt8, q.toUInt8] = utf8 [q, q] := by
    rw [Text.utf8_cons_of_isAscii ascii, Text.utf8_cons_of_isAscii ascii, Text.utf8_nil]
  rw [encoded, Text.utf8_isPrefix_iff, Text.startsWith_iff]

theorem exists_cons_of_head? (h : t.head? = some q) : ∃ t', t = q :: t' :=
  List.head?_eq_some_iff.1 h

theorem exists_cons_cons_of_startsWith (h : Text.startsWith [q, q] t = true) :
    ∃ t', t = q :: q :: t' := by
  obtain ⟨t', whole⟩ := Text.startsWith_iff.1 h
  exact ⟨t', whole.symm⟩

/-! ### Each region -/

theorem agrees_code (rest : ∀ t' : Text, t'.length ≤ t.length → Agrees l t') (ascii : IsAscii c) :
    stripOctetsFrom l .code (utf8 (c :: t)) = utf8 (stripFrom l .code (c :: t)) := by
  have now := rest t (Nat.le_refl _)
  have octet : isDelimiterOctet l c.toUInt8 = isDelimiter l c := isDelimiterOctet_toUInt8 ascii
  obtain ⟨kept, next, step⟩ := step_code l c t
  have characters := step.step_eq
  cases step with
  | openTriple delimits python ahead =>
    have pair := (pair_isPrefix_utf8 ascii).2 ahead
    obtain ⟨t', rfl⟩ := exists_cons_cons_of_startsWith ahead
    have shorter : t'.length ≤ (c :: c :: t').length := by simp only [List.length_cons]; omega
    refine (rest t' shorter).cons_three ascii ascii ascii ?_ characters (.triple delimits)
    rw [OctetRegion.step, octet, if_pos delimits, if_pos ⟨python, pair⟩]
  | openQuoted delimits single =>
    refine now.cons_one true ascii ?_ characters (.quoted delimits)
    rw [OctetRegion.step, octet, if_pos delimits,
      if_neg fun found => single ⟨found.1, (pair_isPrefix_utf8 ascii).1 found.2⟩]
  | openHash python =>
    refine now.cons_one false ascii ?_ characters .lineComment
    rw [OctetRegion.step, octet, if_neg (not_isDelimiter_of_mem (by decide)), if_pos python,
      if_pos rfl]
  | openLine other ahead =>
    have mark := (singleton_isPrefix_utf8 (by decide)).2 ahead
    obtain ⟨t', rfl⟩ := exists_cons_of_head? ahead
    refine (rest t' (Nat.le_succ _)).cons_two ascii (by decide) ?_ characters .lineComment
    rw [OctetRegion.step, octet, if_neg (not_isDelimiter_of_mem (by decide)), if_neg other,
      if_pos ⟨rfl, mark⟩]
  | openBlock other ahead =>
    have mark := (singleton_isPrefix_utf8 (by decide)).2 ahead
    obtain ⟨t', rfl⟩ := exists_cons_of_head? ahead
    refine (rest t' (Nat.le_succ _)).cons_two ascii (by decide) ?_ characters .blockComment
    have noLine : ¬ ('/'.toUInt8 = '/'.toUInt8 ∧ ['/'.toUInt8] <+: utf8 ('*' :: t')) := by
      rw [singleton_isPrefix_utf8 (by decide)]
      exact fun found => by cases found.2
    rw [OctetRegion.step, octet, if_neg (not_isDelimiter_of_mem (by decide)), if_neg other,
      if_neg noLine, if_pos ⟨rfl, mark⟩]
  | code plain noHash noSlash =>
    refine now.cons_one true ascii ?_ characters .code
    rw [OctetRegion.step, octet, if_neg plain]
    by_cases python : l = .python
    · rw [if_pos python,
        if_neg fun same => noHash ⟨python, (Text.toUInt8_inj ascii (by decide)).1 same⟩]
    · have opens (d : Char) (hd : IsAscii d) (found : c.toUInt8 = '/'.toUInt8 ∧
          [d.toUInt8] <+: utf8 t) : c = '/' ∧ t.head? = some d := by
        rwa [Text.toUInt8_inj ascii (by decide), singleton_isPrefix_utf8 hd] at found
      have noLine (found : c.toUInt8 = '/'.toUInt8 ∧ ['/'.toUInt8] <+: utf8 t) : False :=
        have slash := opens '/' (by decide) found
        noSlash ⟨python, slash.1, Or.inl slash.2⟩
      have noBlock (found : c.toUInt8 = '/'.toUInt8 ∧ ['*'.toUInt8] <+: utf8 t) : False :=
        have slash := opens '*' (by decide) found
        noSlash ⟨python, slash.1, Or.inr slash.2⟩
      rw [if_neg python, if_neg noLine, if_neg noBlock]

theorem agrees_lineComment (rest : Agrees l t) (ascii : IsAscii c) :
    stripOctetsFrom l .lineComment (utf8 (c :: t)) = utf8 (stripFrom l .lineComment (c :: t)) := by
  obtain ⟨kept, next, step⟩ := exists_step l .lineComment c t
  have characters := step.step_eq
  cases step with
  | closeLine => exact rest.cons_one true ascii rfl characters .code
  | lineComment inside =>
    refine rest.cons_one false ascii ?_ characters .lineComment
    exact if_neg fun same => inside ((Text.toUInt8_inj ascii (by decide)).1 same)

theorem agrees_blockComment (rest : ∀ t' : Text, t'.length ≤ t.length → Agrees l t')
    (ascii : IsAscii c) :
    stripOctetsFrom l .blockComment (utf8 (c :: t)) =
      utf8 (stripFrom l .blockComment (c :: t)) := by
  obtain ⟨kept, next, step⟩ := exists_step l .blockComment c t
  have characters := step.step_eq
  cases step with
  | closeBlock ahead =>
    have mark := (singleton_isPrefix_utf8 (by decide)).2 ahead
    obtain ⟨t', rfl⟩ := exists_cons_of_head? ahead
    refine (rest t' (Nat.le_succ _)).cons_two ascii (by decide) ?_ characters .code
    rw [OctetRegion.step, if_pos ⟨rfl, mark⟩]
  | blockComment inside =>
    refine (rest t (Nat.le_refl _)).cons_one false ascii ?_ characters .blockComment
    refine if_neg fun found => inside ?_
    rwa [Text.toUInt8_inj ascii (by decide), singleton_isPrefix_utf8 (by decide)] at found

theorem agrees_quoted (rest : ∀ t' : Text, t'.length ≤ t.length → Agrees l t')
    (delimits : isDelimiter l q = true) (ascii : IsAscii c) :
    stripOctetsFrom l (.quoted q.toUInt8) (utf8 (c :: t)) =
      utf8 (stripFrom l (.quoted q) (c :: t)) := by
  have now := rest t (Nat.le_refl _)
  have octet := isAscii_of_isDelimiter delimits
  have ends : c.toUInt8 = q.toUInt8 ∨ (c.toUInt8 = '\n'.toUInt8 ∧ q.toUInt8 ≠ '`'.toUInt8) ↔
      c = q ∨ (c = '\n' ∧ q ≠ '`') := by
    rw [Text.toUInt8_inj ascii octet, Text.toUInt8_inj ascii (by decide), ne_eq, ne_eq,
      Text.toUInt8_inj octet (by decide)]
  have other (plain : c ≠ '\\') : c.toUInt8 ≠ '\\'.toUInt8 :=
    fun same => plain ((Text.toUInt8_inj ascii (by decide)).1 same)
  obtain ⟨kept, next, step⟩ := exists_step l (.quoted q) c t
  have characters := step.step_eq
  cases step with
  | escapeQuoted =>
    exact Agrees.cons_escape rest true (.escaped q) ascii (.quoted delimits) rfl rfl characters
      fun _ _ => rfl
  | closeQuoted plain closes =>
    refine now.cons_one true ascii ?_ characters .code
    rw [OctetRegion.step, if_neg (other plain), if_pos (ends.2 closes)]
  | quoted plain inside =>
    refine now.cons_one true ascii ?_ characters (.quoted delimits)
    rw [OctetRegion.step, if_neg (other plain), if_neg fun found => inside (ends.1 found)]

theorem agrees_triple (rest : ∀ t' : Text, t'.length ≤ t.length → Agrees l t')
    (delimits : isDelimiter l q = true) (ascii : IsAscii c) :
    stripOctetsFrom l (.triple q.toUInt8) (utf8 (c :: t)) =
      utf8 (stripFrom l (.triple q) (c :: t)) := by
  have octet := isAscii_of_isDelimiter delimits
  have other {d : Char} (hd : IsAscii d) (plain : d ≠ '\\') : d.toUInt8 ≠ '\\'.toUInt8 :=
    fun same => plain ((Text.toUInt8_inj hd (by decide)).1 same)
  obtain ⟨kept, next, step⟩ := exists_step l (.triple q) c t
  have characters := step.step_eq
  cases step with
  | escapeTriple =>
    exact Agrees.cons_escape rest false (.tripleEscaped q) ascii (.triple delimits) rfl rfl
      characters fun _ _ => rfl
  | closeTriple plain ahead =>
    have pair := (pair_isPrefix_utf8 octet).2 ahead
    obtain ⟨t', rfl⟩ := exists_cons_cons_of_startsWith ahead
    have shorter : t'.length ≤ (c :: c :: t').length := by simp only [List.length_cons]; omega
    refine (rest t' shorter).cons_three ascii octet octet ?_ characters .code
    rw [OctetRegion.step, if_neg (other octet plain), if_pos ⟨rfl, pair⟩]
  | triple plain inside =>
    refine (rest t (Nat.le_refl _)).cons_one false ascii ?_ characters (.triple delimits)
    rw [OctetRegion.step, if_neg (other ascii plain)]
    refine if_neg fun found => inside ?_
    rwa [Text.toUInt8_inj ascii octet, pair_isPrefix_utf8 octet] at found

/-- Wherever both can stand, the scan of octets gives the octets of what the scan of characters
gives. -/
theorem agrees (l : Language) (t : Text) : Agrees l t := by
  induction length : t.length using Nat.strongRecOn generalizing t with
  | ind n ih =>
    cases t with
    | nil => exact agrees_nil
    | cons c t =>
      have rest (t' : Text) (h : t'.length ≤ t.length) : Agrees l t' :=
        ih t'.length (by rw [← length, List.length_cons]; omega) t' rfl
      intro region inside agree
      by_cases ascii : IsAscii c
      · cases agree with
        | code => exact agrees_code rest ascii
        | lineComment => exact agrees_lineComment (rest t (Nat.le_refl _)) ascii
        | blockComment => exact agrees_blockComment rest ascii
        | quoted delimits => exact agrees_quoted rest delimits ascii
        | triple delimits => exact agrees_triple rest delimits ascii
      · exact (rest t (Nat.le_refl _)).cons_wide ascii agree

end Agreement

/-- Blanking out the comments in the octets of a source gives the octets of the source without its
comments. -/
theorem stripOctets_utf8 (l : Language) (source : Text) :
    stripOctets l (utf8 source) = utf8 (stripComments l source) :=
  agrees l source .code

end HarnessSynthesis.Source
