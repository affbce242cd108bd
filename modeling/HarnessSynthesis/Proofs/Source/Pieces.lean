/-
# Pieces of a parameter list

A parameter list is cut at its top-level commas. Whether a comma is one depends on everything in
front of it, so a piece taken out of its list could read differently on its own. It does not: behind
a top-level comma no bracket and no quote is open, and the only thing the splitter still remembers,
that the character just passed may be the shaft of an arrow, a comma is not. The same holds behind
blanks. A splitter that stands like this is as good as one that starts.

It follows that trimming a list does not change its parameters, and that parameters written one
behind the other with commas between are split into the same parameters again.
-/

import HarnessSynthesis.Proofs.Text.Trim
import HarnessSynthesis.Source.Parameter

namespace HarnessSynthesis.Source

open Text (Blank isBlank)

/-! ## Where a splitter stands -/

namespace SplitState

/-- The splitter in front of a list. -/
def start : SplitState := ⟨0, .outside, none⟩

/-- Where a splitter stands behind a text. -/
def after (s : SplitState) (t : Text) : SplitState :=
  t.foldl next s

@[simp] theorem after_nil (s : SplitState) : s.after [] = s := rfl

@[simp] theorem after_cons (s : SplitState) (c : Char) (t : Text) :
    s.after (c :: t) = (s.next c).after t := rfl

theorem after_append (s : SplitState) (p t : Text) : s.after (p ++ t) = (s.after p).after t :=
  List.foldl_append

/-- No bracket is open and no quote. -/
def Closed (s : SplitState) : Prop :=
  s.depth = 0 ∧ s.quoting = .outside

/-- Nothing that was passed makes a difference to what follows. -/
structure Fresh (s : SplitState) : Prop where
  closed : s.Closed
  noShaft : s.previous ≠ some '=' ∧ s.previous ≠ some '-'

theorem fresh_start : start.Fresh :=
  ⟨⟨rfl, rfl⟩, by decide⟩

/-- A comma separates wherever nothing is open, and nowhere else. -/
theorem separates_iff {s : SplitState} {c : Char} :
    s.separates c = true ↔ c = ',' ∧ s.Closed := by
  simp only [separates, Closed, Bool.and_eq_true, beq_iff_eq, and_assoc]

theorem Fresh.next_eq {s : SplitState} (fresh : s.Fresh) (c : Char) : s.next c = start.next c := by
  obtain ⟨depth, quoting, previous⟩ := s
  obtain ⟨⟨rfl, rfl⟩, noEquals, noDash⟩ := fresh
  have noArrow : ¬ (c = '>' ∧ (previous = some '=' ∨ previous = some '-')) := fun h =>
    h.2.elim noEquals noDash
  simp [next, start, noArrow]

theorem Fresh.separates_eq {s : SplitState} (fresh : s.Fresh) (c : Char) :
    s.separates c = start.separates c := by
  rw [Bool.eq_iff_iff, separates_iff, separates_iff]
  exact ⟨fun h => ⟨h.1, fresh_start.closed⟩, fun h => ⟨h.1, fresh.closed⟩⟩

theorem Fresh.closed_after_iff {s : SplitState} (fresh : s.Fresh) (t : Text) :
    (s.after t).Closed ↔ (start.after t).Closed := by
  cases t with
  | nil => exact ⟨fun _ => fresh_start.closed, fun _ => fresh.closed⟩
  | cons c t => rw [after_cons, after_cons, fresh.next_eq]

/-- Behind a comma where nothing is open. -/
theorem Closed.fresh_next_comma {s : SplitState} (closed : s.Closed) : (s.next ',').Fresh := by
  obtain ⟨depth, quoting, previous⟩ := s
  obtain ⟨rfl, rfl⟩ := closed
  exact ⟨⟨rfl, rfl⟩, by simp [next, opensQuote, opensBracket, closesBracket]⟩

/-! ### Blanks -/

/-- What a blank is not. -/
theorem ne_of_isBlank {c d : Char} (blank : isBlank c = true) (other : isBlank d = false) :
    c ≠ d := by
  rintro rfl
  rw [blank] at other
  cases other

theorem opensQuote_of_isBlank {c : Char} (blank : isBlank c = true) : opensQuote c = false := by
  simp only [opensQuote, Bool.or_eq_false_iff, beq_eq_false_iff_ne]
  exact ⟨⟨ne_of_isBlank blank (by decide), ne_of_isBlank blank (by decide)⟩,
    ne_of_isBlank blank (by decide)⟩

/-- A blank opens and closes nothing outside of quotes. -/
theorem next_of_isBlank {depth : Nat} {previous : Option Char} {c : Char}
    (blank : isBlank c = true) :
    (⟨depth, .outside, previous⟩ : SplitState).next c = ⟨depth, .outside, some c⟩ := by
  have opens : opensBracket c = false := by
    simp only [opensBracket, Bool.or_eq_false_iff, beq_eq_false_iff_ne]
    exact ⟨⟨⟨ne_of_isBlank blank (by decide), ne_of_isBlank blank (by decide)⟩,
      ne_of_isBlank blank (by decide)⟩, ne_of_isBlank blank (by decide)⟩
  have closes : closesBracket c = false := by
    simp only [closesBracket, Bool.or_eq_false_iff, beq_eq_false_iff_ne]
    exact ⟨⟨⟨ne_of_isBlank blank (by decide), ne_of_isBlank blank (by decide)⟩,
      ne_of_isBlank blank (by decide)⟩, ne_of_isBlank blank (by decide)⟩
  have notArrow : c ≠ '>' := ne_of_isBlank blank (by decide)
  simp [next, opensQuote_of_isBlank blank, opens, closes, notArrow]

theorem separates_of_isBlank {s : SplitState} {c : Char} (blank : isBlank c = true) :
    s.separates c = false := by
  rw [← Bool.not_eq_true, separates_iff]
  exact fun h => ne_of_isBlank blank (by decide) h.1

theorem Fresh.after_blank {s : SplitState} {b : Text} (fresh : s.Fresh) (blank : Blank b) :
    (s.after b).Fresh := by
  induction b generalizing s with
  | nil => exact fresh
  | cons c b ih =>
    obtain ⟨first, others⟩ := Text.blank_cons.1 blank
    refine ih ?_ others
    rw [fresh.next_eq, start, next_of_isBlank first]
    exact ⟨⟨rfl, rfl⟩, fun h => ne_of_isBlank first (by decide) (Option.some.inj h),
      fun h => ne_of_isBlank first (by decide) (Option.some.inj h)⟩

/-- The quote that is open, if one is. -/
def openQuote? (s : SplitState) : Option Char :=
  match s.quoting with
  | .outside => none
  | .inside q => some q
  | .escaped q => some q

/-- What is open as a quote is a quote. -/
def Sound (s : SplitState) : Prop :=
  ∀ q, s.openQuote? = some q → opensQuote q = true

theorem Sound.next {s : SplitState} (sound : s.Sound) (c : Char) : (s.next c).Sound := by
  obtain ⟨depth, quoting, previous⟩ := s
  cases quoting with
  | escaped q => exact sound
  | inside q =>
    simp only [SplitState.next]
    split
    · exact sound
    · split
      · exact nofun
      · exact sound
  | outside =>
    simp only [SplitState.next]
    split
    · rename_i opens
      rintro q ⟨⟩
      exact opens
    · repeat' split
      all_goals exact nofun

theorem Sound.after {s : SplitState} (sound : s.Sound) (t : Text) : (s.after t).Sound := by
  induction t generalizing s with
  | nil => exact sound
  | cons c t ih => exact ih (sound.next c)

theorem sound_start : start.Sound := nofun

/-- Blanks close nothing, not even a quote. -/
theorem Sound.closed_of_closed_after {s : SplitState} (sound : s.Sound) {b : Text}
    (blank : Blank b) (closed : (s.after b).Closed) : s.Closed := by
  induction b generalizing s with
  | nil => exact closed
  | cons c b ih =>
    obtain ⟨first, others⟩ := Text.blank_cons.1 blank
    have behind : (s.next c).Closed := ih (sound.next c) others closed
    obtain ⟨depth, quoting, previous⟩ := s
    cases quoting with
    | escaped q => exact absurd behind.2 nofun
    | inside q =>
      have quote : opensQuote q = true := sound q rfl
      have other : c ≠ q := by
        rintro rfl
        rw [opensQuote_of_isBlank first] at quote
        cases quote
      have mark : c ≠ '\\' := ne_of_isBlank first (by decide)
      simp only [SplitState.next, if_neg mark, if_neg other] at behind
      exact absurd behind.2 nofun
    | outside =>
      rw [next_of_isBlank first] at behind
      exact behind

end SplitState

open SplitState

/-! ## Pieces -/

theorem consPiece_ne_nil (c : Char) (pieces : List Text) : consPiece c pieces ≠ [] := by
  cases pieces <;> exact nofun

theorem piecesFrom_ne_nil (s : SplitState) (t : Text) : piecesFrom s t ≠ [] := by
  cases t with
  | nil => exact nofun
  | cons c t =>
    rw [piecesFrom]
    split
    · exact nofun
    · exact consPiece_ne_nil c _

theorem SplitState.Fresh.piecesFrom_eq {s : SplitState} (fresh : s.Fresh) (t : Text) :
    piecesFrom s t = piecesFrom start t := by
  cases t with
  | nil => rfl
  | cons c t => rw [piecesFrom, piecesFrom, fresh.next_eq, fresh.separates_eq]

/-- A text in front of the first of several pieces. -/
def prepend (p : Text) (pieces : List Text) : List Text :=
  p.foldr consPiece pieces

@[simp] theorem prepend_nil (pieces : List Text) : prepend [] pieces = pieces := rfl

@[simp] theorem prepend_cons (c : Char) (p : Text) (pieces : List Text) :
    prepend (c :: p) pieces = consPiece c (prepend p pieces) := rfl

@[simp] theorem prepend_piece (p piece : Text) (pieces : List Text) :
    prepend p (piece :: pieces) = (p ++ piece) :: pieces := by
  induction p with
  | nil => rfl
  | cons c p ih => rw [prepend_cons, ih, consPiece, List.cons_append]

/-- A splitter that stands at `s` finds no separator in a text. -/
def Unsplit (s : SplitState) (p : Text) : Prop :=
  piecesFrom s p = [p]

theorem unsplit_nil (s : SplitState) : Unsplit s [] := rfl

theorem unsplit_cons {s : SplitState} {c : Char} {p : Text} :
    Unsplit s (c :: p) ↔ s.separates c = false ∧ Unsplit (s.next c) p := by
  obtain ⟨piece, pieces, cut⟩ := List.exists_cons_of_ne_nil (piecesFrom_ne_nil (s.next c) p)
  rw [Unsplit, Unsplit, piecesFrom, cut]
  cases s.separates c <;> simp [consPiece]

theorem unsplit_append {s : SplitState} {p t : Text} :
    Unsplit s (p ++ t) ↔ Unsplit s p ∧ Unsplit (s.after p) t := by
  induction p generalizing s with
  | nil => simp [unsplit_nil]
  | cons c p ih => rw [List.cons_append, unsplit_cons, ih, unsplit_cons, after_cons, and_assoc]

theorem unsplit_of_blank {s : SplitState} {b : Text} (blank : Blank b) : Unsplit s b := by
  induction b generalizing s with
  | nil => exact unsplit_nil s
  | cons c b ih =>
    obtain ⟨first, others⟩ := Text.blank_cons.1 blank
    exact unsplit_cons.2 ⟨separates_of_isBlank first, ih others⟩

/-- The pieces of a text behind one that holds no separator. -/
theorem piecesFrom_append {s : SplitState} {p : Text} (unsplit : Unsplit s p) (t : Text) :
    piecesFrom s (p ++ t) = prepend p (piecesFrom (s.after p) t) := by
  induction p generalizing s with
  | nil => rfl
  | cons c p ih =>
    obtain ⟨passes, others⟩ := unsplit_cons.1 unsplit
    rw [List.cons_append, piecesFrom, passes, ih others, prepend_cons, after_cons]
    rfl

/-! ## Parts of a list -/

/-- A text that is one piece when a list begins with it. -/
def Whole (p : Text) : Prop :=
  Unsplit start p

/-- Texts that are the pieces of a list: each is one piece, and nothing is open where another
follows. -/
structure Parts (ps : List Text) : Prop where
  whole : ∀ p ∈ ps, Whole p
  closed : ps.Pairwise fun p _ => (start.after p).Closed

theorem parts_nil : Parts [] :=
  ⟨nofun, List.Pairwise.nil⟩

theorem Parts.cons {p : Text} {ps : List Text} (whole : Whole p)
    (closed : ps ≠ [] → (start.after p).Closed) (parts : Parts ps) : Parts (p :: ps) := by
  refine ⟨List.forall_mem_cons.2 ⟨whole, parts.whole⟩, List.pairwise_cons.2 ⟨?_, parts.closed⟩⟩
  intro q hq
  exact closed (List.ne_nil_of_mem hq)

theorem Parts.sublist {ps qs : List Text} (parts : Parts qs) (sub : ps.Sublist qs) : Parts ps :=
  ⟨fun p hp => parts.whole p (sub.subset hp), parts.closed.sublist sub⟩

/-- Cut at the separators, a text falls into a first piece and parts. -/
theorem exists_piecesFrom (s : SplitState) (t : Text) :
    ∃ p ps, piecesFrom s t = p :: ps ∧ Unsplit s p ∧ (ps ≠ [] → (s.after p).Closed) ∧
      Parts ps := by
  induction t generalizing s with
  | nil => exact ⟨[], [], rfl, unsplit_nil s, fun h => absurd rfl h, parts_nil⟩
  | cons c t ih =>
    obtain ⟨p, ps, cut, unsplit, closed, parts⟩ := ih (s.next c)
    rw [piecesFrom, cut]
    cases separated : s.separates c with
    | false => exact ⟨c :: p, ps, rfl, unsplit_cons.2 ⟨separated, unsplit⟩, closed, parts⟩
    | true =>
      obtain ⟨rfl, nothingOpen⟩ := separates_iff.1 separated
      have fresh : (s.next ',').Fresh := nothingOpen.fresh_next_comma
      rw [Unsplit, fresh.piecesFrom_eq] at unsplit
      rw [fresh.closed_after_iff] at closed
      exact ⟨[], p :: ps, rfl, unsplit_nil s, fun _ => nothingOpen, parts.cons unsplit closed⟩

theorem parts_piecesFrom_start (t : Text) : Parts (piecesFrom start t) := by
  obtain ⟨p, ps, cut, unsplit, closed, parts⟩ := exists_piecesFrom start t
  rw [cut]
  exact parts.cons unsplit closed

/-! ### Trimmed parts -/

theorem Whole.trim {p : Text} (whole : Whole p) : Whole p.trim := by
  obtain ⟨b, b', before, -, cut⟩ := Text.exists_eq_append_trim p
  rw [Whole, cut, unsplit_append, unsplit_append] at whole
  have unsplit := whole.2.1
  rwa [Unsplit, (fresh_start.after_blank before).piecesFrom_eq] at unsplit

theorem closed_after_trim {p : Text} (closed : (start.after p).Closed) :
    (start.after p.trim).Closed := by
  obtain ⟨b, b', before, behind, cut⟩ := Text.exists_eq_append_trim p
  rw [cut, after_append, after_append] at closed
  have inner := ((sound_start.after b).after p.trim).closed_of_closed_after behind closed
  exact ((fresh_start.after_blank before).closed_after_iff _).1 inner

theorem Parts.trim {ps : List Text} (parts : Parts ps) : Parts (ps.map Text.trim) := by
  refine ⟨?_, ?_⟩
  · intro p hp
    obtain ⟨q, hq, rfl⟩ := List.mem_map.1 hp
    exact (parts.whole q hq).trim
  · rw [List.pairwise_map]
    exact parts.closed.imp closed_after_trim

theorem parts_splitParameters (list : Text) : Parts (splitParameters list) :=
  (parts_piecesFrom_start list).trim.sublist List.filter_sublist

/-- Parameters are trimmed, and none is empty. -/
theorem trimmed_of_mem_splitParameters {list p : Text} (h : p ∈ splitParameters list) :
    p.trim = p ∧ p ≠ [] := by
  obtain ⟨trimmed, nonempty⟩ := List.mem_filter.1 h
  obtain ⟨q, -, rfl⟩ := List.mem_map.1 trimmed
  exact ⟨Text.trim_trim q, of_decide_eq_true nonempty⟩

/-! ### Padded parts -/

theorem SplitState.Closed.after_blank {s : SplitState} {b : Text} (closed : s.Closed)
    (blank : Blank b) : (s.after b).Closed := by
  induction b generalizing s with
  | nil => exact closed
  | cons c b ih =>
    obtain ⟨first, others⟩ := Text.blank_cons.1 blank
    obtain ⟨depth, quoting, previous⟩ := s
    obtain ⟨rfl, rfl⟩ := closed
    rw [after_cons, next_of_isBlank first]
    exact ih ⟨rfl, rfl⟩ others

/-- A text with the blanks around it. -/
structure Padded where
  before : Text
  text : Text
  behind : Text
  blank_before : Blank before
  blank_behind : Blank behind

namespace Padded

def written (p : Padded) : Text :=
  p.before ++ (p.text ++ p.behind)

theorem trim_written (p : Padded) : p.written.trim = p.text.trim := by
  rw [written, Text.trim_append_of_blank_left p.blank_before,
    Text.trim_append_of_blank_right p.blank_behind]

theorem whole_written {p : Padded} (whole : Whole p.text) : Whole p.written := by
  refine unsplit_append.2 ⟨unsplit_of_blank p.blank_before, unsplit_append.2 ⟨?_, ?_⟩⟩
  · rw [Unsplit, (fresh_start.after_blank p.blank_before).piecesFrom_eq]
    exact whole
  · exact unsplit_of_blank p.blank_behind

theorem closed_after_written {p : Padded} (closed : (start.after p.text).Closed) :
    (start.after p.written).Closed := by
  rw [written, after_append, after_append]
  exact Closed.after_blank (((fresh_start.after_blank p.blank_before).closed_after_iff _).2 closed)
    p.blank_behind

theorem parts_written {ps : List Padded} (parts : Parts (ps.map text)) :
    Parts (ps.map written) := by
  refine ⟨?_, ?_⟩
  · intro t ht
    obtain ⟨p, hp, rfl⟩ := List.mem_map.1 ht
    exact whole_written (parts.whole p.text (List.mem_map_of_mem hp))
  · have closed := parts.closed
    rw [List.pairwise_map] at closed ⊢
    exact closed.imp closed_after_written

end Padded

/-! ## Splitting again -/

/-- Parts with commas between are the pieces of their list. -/
theorem piecesFrom_join {p : Text} {ps : List Text} (parts : Parts (p :: ps)) :
    piecesFrom start (Text.join [','] (p :: ps)) = p :: ps := by
  induction ps generalizing p with
  | nil => exact parts.whole p List.mem_cons_self
  | cons q ps ih =>
    have closed : (start.after p).Closed :=
      (List.pairwise_cons.1 parts.closed).1 q List.mem_cons_self
    have separated : (start.after p).separates ',' = true := separates_iff.2 ⟨rfl, closed⟩
    calc
      piecesFrom start (Text.join [','] (p :: q :: ps))
          = piecesFrom start (p ++ ',' :: Text.join [','] (q :: ps)) := by
        rw [Text.join, List.append_assoc, List.singleton_append]
        exact nofun
      _ = prepend p ([] :: piecesFrom start (Text.join [','] (q :: ps))) := by
        rw [piecesFrom_append (parts.whole p List.mem_cons_self), piecesFrom, if_pos separated,
          closed.fresh_next_comma.piecesFrom_eq]
      _ = p :: q :: ps := by
        rw [ih (parts.sublist (List.sublist_cons_self p _)), prepend_piece, List.append_nil]

/-- Parts with commas and any blanks between are split into the parts, trimmed, as far as they are
not empty. -/
theorem splitParameters_join_written {ps : List Padded} (parts : Parts (ps.map Padded.text)) :
    splitParameters (Text.join [','] (ps.map Padded.written)) =
      ((ps.map Padded.text).map Text.trim).filter (· ≠ []) := by
  cases ps with
  | nil => rfl
  | cons p ps =>
    have written := Padded.parts_written parts
    have trimmed : ((p :: ps).map Padded.written).map Text.trim =
        ((p :: ps).map Padded.text).map Text.trim := by
      rw [List.map_map, List.map_map]
      exact List.map_congr_left fun q _ => q.trim_written
    rw [List.map_cons] at written trimmed
    rw [List.map_cons, splitParameters, ← start, piecesFrom_join written, trimmed]

/-- Parameters that are trimmed and not empty stay as they are. -/
theorem filter_map_trim {ps : List Text} (trimmed : ∀ p ∈ ps, p.trim = p ∧ p ≠ []) :
    (ps.map Text.trim).filter (· ≠ []) = ps := by
  have same : ps.map Text.trim = ps :=
    (List.map_congr_left fun p hp => (trimmed p hp).1).trans (List.map_id ps)
  rw [same, List.filter_eq_self]
  exact fun p hp => decide_eq_true (trimmed p hp).2

/-- Spaces behind the commas belong to the parameters behind them. -/
theorem join_eq_join_cons_space (p : Text) (ps : List Text) :
    Text.join ", " (p :: ps) = Text.join [','] (p :: ps.map (' ' :: ·)) := by
  have push (c : Char) (p : Text) (ps : List Text) :
      Text.join [','] ((c :: p) :: ps) = c :: Text.join [','] (p :: ps) := by
    cases ps <;> rfl
  induction ps generalizing p with
  | nil => rfl
  | cons q ps ih =>
    calc
      Text.join ", " (p :: q :: ps) = p ++ ", " ++ Text.join ", " (q :: ps) := rfl
      _ = p ++ [','] ++ Text.join [','] ((' ' :: q) :: ps.map (' ' :: ·)) := by
        rw [ih, push, List.append_assoc, List.append_assoc]
        rfl

/-- Parts written with commas and spaces between are split into the parts, trimmed, as far as they
are not empty. -/
theorem splitParameters_join_eq_filter {ps : List Text} (parts : Parts ps) :
    splitParameters (Text.join ", " ps) = (ps.map Text.trim).filter (· ≠ []) := by
  cases ps with
  | nil => rfl
  | cons p ps =>
    let padded : List Padded := ⟨[], p, [], Text.blank_nil, Text.blank_nil⟩ ::
      ps.map fun q => ⟨[' '], q, [], Text.blank_space, Text.blank_nil⟩
    have texts : padded.map Padded.text = p :: ps := by
      simp only [padded, List.map_cons, List.map_map]
      exact congrArg _ (List.map_id ps)
    have written : padded.map Padded.written = p :: ps.map (' ' :: ·) := by
      simp only [padded, List.map_cons, List.map_map, Padded.written, List.append_nil,
        List.nil_append]
      refine congrArg _ (List.map_congr_left fun q _ => ?_)
      exact congrArg (' ' :: ·) (List.append_nil q)
    rw [join_eq_join_cons_space, ← written, ← texts]
    rw [← texts] at parts
    exact splitParameters_join_written parts

/-- Parameters written with commas and spaces between are split into the same parameters. -/
theorem splitParameters_join {ps : List Text} (parts : Parts ps)
    (trimmed : ∀ p ∈ ps, p.trim = p ∧ p ≠ []) : splitParameters (Text.join ", " ps) = ps := by
  rw [splitParameters_join_eq_filter parts, filter_map_trim trimmed]

/-- Blanks behind a text are behind its last piece. -/
theorem exists_piecesFrom_append_blank (s : SplitState) (t : Text) {b : Text} (blank : Blank b) :
    ∃ ps p, piecesFrom s t = ps ++ [p] ∧ piecesFrom s (t ++ b) = ps ++ [p ++ b] := by
  induction t generalizing s with
  | nil => exact ⟨[], [], rfl, unsplit_of_blank blank⟩
  | cons c t ih =>
    obtain ⟨ps, p, cut, cut'⟩ := ih (s.next c)
    rw [List.cons_append, piecesFrom, piecesFrom, cut, cut']
    cases s.separates c with
    | true => exact ⟨[] :: ps, p, rfl, rfl⟩
    | false =>
      cases ps with
      | nil => exact ⟨[], c :: p, rfl, rfl⟩
      | cons q ps => exact ⟨(c :: q) :: ps, p, rfl, rfl⟩

/-- Trimming a list changes none of its parameters. -/
theorem splitParameters_trim (list : Text) : splitParameters list.trim = splitParameters list := by
  obtain ⟨b, b', before, behind, cut⟩ := Text.exists_eq_append_trim list
  obtain ⟨ps, p, inner, outer⟩ := exists_piecesFrom_append_blank start list.trim behind
  have front : piecesFrom start list = prepend b (ps ++ [p ++ b']) := by
    rw [cut, piecesFrom_append (unsplit_of_blank before),
      (fresh_start.after_blank before).piecesFrom_eq, outer]
  have same :
      (piecesFrom start list).map Text.trim = (piecesFrom start list.trim).map Text.trim := by
    rw [front, inner]
    cases ps with
    | nil =>
      simp [Text.trim_append_of_blank_left before, Text.trim_append_of_blank_right behind]
    | cons q ps =>
      simp [Text.trim_append_of_blank_left before, Text.trim_append_of_blank_right behind]
  rw [splitParameters, splitParameters, ← start, same]

end HarnessSynthesis.Source
