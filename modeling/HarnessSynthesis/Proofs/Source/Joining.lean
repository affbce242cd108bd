/-
# Joining parameters

What a parameter may look like is said here without the splitter: quotes and brackets are closed in
pairs, and commas stand inside of them. A splitter passes such a text from end to end and has open
behind it what was open in front of it, so parameters of this kind are found again in any list that
they are written into. A list of another kind may be split where no one would, but not in two ways:
its parameters written into a list once more are the same, and they are texts of the first list from
which only commas and blanks were taken.
-/

import HarnessSynthesis.Proofs.Source.Pieces

namespace HarnessSynthesis.Source

open Text (Blank isBlank)

/-! ## Well-formed parameters -/

/-- The `>` of an arrow stands directly behind an equals sign or a dash. -/
def IsArrow (previous : Option Char) (c : Char) : Prop :=
  c = '>' ∧ (previous = some '=' ∨ previous = some '-')

instance (previous : Option Char) (c : Char) : Decidable (IsArrow previous c) :=
  inferInstanceAs (Decidable (_ ∧ _))

/-- What can stand between two quotes `q`: no further one, unless a backslash precedes it. -/
inductive Quoted (q : Char) : Text → Prop
  | nil : Quoted q []
  | char {c : Char} {t : Text} (other : c ≠ q) (plain : c ≠ '\\') (rest : Quoted q t) :
      Quoted q (c :: t)
  | escape {c : Char} {t : Text} (rest : Quoted q t) : Quoted q ('\\' :: c :: t)

/-- Text in which every quote and every bracket is closed and no bracket is closed that was not
opened, behind the character `previous`. Whether brackets are open around it is told by `inside`:
only there it may have commas of its own. -/
inductive Enclosed : (inside : Bool) → (previous : Option Char) → Text → Prop
  | nil {inside : Bool} {previous : Option Char} : Enclosed inside previous []
  | char {inside : Bool} {previous : Option Char} {c : Char} {t : Text}
      (noQuote : opensQuote c = false) (opensNone : opensBracket c = false)
      (closesNone : closesBracket c = true → IsArrow previous c) (comma : c = ',' → inside = true)
      (rest : Enclosed inside (some c) t) : Enclosed inside previous (c :: t)
  | quoted {inside : Bool} {previous : Option Char} {q : Char} {s t : Text}
      (quote : opensQuote q = true) (content : Quoted q s) (rest : Enclosed inside (some q) t) :
      Enclosed inside previous (q :: (s ++ q :: t))
  | bracketed {inside : Bool} {previous : Option Char} {o c : Char} {s t : Text}
      (opens : opensBracket o = true) (content : Enclosed true (some o) s)
      (closes : closesBracket c = true) (noArrow : ¬ IsArrow (o :: s).getLast? c)
      (rest : Enclosed inside (some c) t) : Enclosed inside previous (o :: (s ++ c :: t))

/-- Text without brackets, quotes and commas opens and closes nothing. -/
theorem Enclosed.append_plain {inside : Bool} {previous : Option Char} {p t : Text}
    (plain : (p.all fun c =>
      !opensQuote c && !opensBracket c && !closesBracket c && c != ',') = true)
    (rest : Enclosed inside (p.getLast?.or previous) t) : Enclosed inside previous (p ++ t) := by
  induction p generalizing previous with
  | nil => exact rest
  | cons c p ih =>
    simp only [List.all_cons, Bool.and_eq_true, Bool.not_eq_true', bne_iff_ne] at plain
    obtain ⟨⟨⟨⟨noQuote, opensNone⟩, closesNone⟩, noComma⟩, others⟩ := plain
    refine .char noQuote opensNone (fun closes => ?_) (fun comma => absurd comma noComma) (ih ?_ ?_)
    · rw [closesNone] at closes
      cases closes
    · simpa using others
    · rw [List.getLast?_cons] at rest
      cases h : p.getLast? <;> simpa [h] using rest

namespace SplitState

theorem previous_next (s : SplitState) (c : Char) : (s.next c).previous = some c := by
  obtain ⟨depth, quoting, previous⟩ := s
  cases quoting <;> simp only [next] <;> repeat' split
  all_goals rfl

theorem previous_after (s : SplitState) (t : Text) :
    (s.after t).previous = t.getLast?.or s.previous := by
  induction t generalizing s with
  | nil => rfl
  | cons c t ih =>
    rw [after_cons, ih, previous_next, List.getLast?_cons]
    cases t.getLast? <;> rfl

end SplitState

open SplitState

/-- From `s` a splitter comes to `s'` over a text, and finds no separator there. -/
structure Passes (s : SplitState) (t : Text) (s' : SplitState) : Prop where
  unsplit : Unsplit s t
  after_eq : s.after t = s'

theorem passes_nil (s : SplitState) : Passes s [] s :=
  ⟨unsplit_nil s, rfl⟩

theorem Passes.cons {s s' : SplitState} {c : Char} {t : Text} (noComma : s.separates c = false)
    (rest : Passes (s.next c) t s') : Passes s (c :: t) s' :=
  ⟨unsplit_cons.2 ⟨noComma, rest.unsplit⟩, rest.after_eq⟩

theorem Passes.append {s s' s'' : SplitState} {p t : Text} (front : Passes s p s')
    (rest : Passes s' t s'') : Passes s (p ++ t) s'' := by
  obtain ⟨unsplit, rfl⟩ := front
  exact ⟨unsplit_append.2 ⟨unsplit, rest.unsplit⟩, by rw [after_append, rest.after_eq]⟩

theorem Passes.previous_eq {s s' : SplitState} {t : Text} (passes : Passes s t s') :
    s'.previous = t.getLast?.or s.previous := by
  rw [← passes.after_eq, previous_after]

namespace SplitState

variable {depth : Nat} {previous : Option Char} {q c : Char}

/-- Inside of quotes nothing separates. -/
theorem separates_of_quoting_ne {s : SplitState} (quoted : s.quoting ≠ .outside) (c : Char) :
    s.separates c = false := by
  rw [← Bool.not_eq_true, separates_iff]
  exact fun h => quoted h.2.2

theorem separates_of_ne {s : SplitState} (other : c = ',' → 0 < s.depth) :
    s.separates c = false := by
  rw [← Bool.not_eq_true, separates_iff]
  exact fun h => Nat.ne_of_gt (other h.1) h.2.1

theorem next_plain (noQuote : opensQuote c = false) (opensNone : opensBracket c = false)
    (closesNone : closesBracket c = true → IsArrow previous c) :
    (⟨depth, .outside, previous⟩ : SplitState).next c = ⟨depth, .outside, some c⟩ := by
  simp only [next, noQuote, opensNone, Bool.false_eq_true, if_false]
  by_cases closes : closesBracket c = true
  · exact if_pos (closesNone closes)
  · rw [if_neg closes, ite_self]

theorem next_opensQuote (quote : opensQuote q = true) :
    (⟨depth, .outside, previous⟩ : SplitState).next q = ⟨depth, .inside q, some q⟩ := by
  simp only [next, if_pos quote]

theorem next_closing (quote : opensQuote q = true) :
    (⟨depth, .inside q, previous⟩ : SplitState).next q = ⟨depth, .outside, some q⟩ := by
  have plain : q ≠ '\\' := by
    rintro rfl
    cases quote
  simp only [next, if_neg plain, if_pos]

theorem opensQuote_of_bracket (bracket : opensBracket c = true ∨ closesBracket c = true) :
    opensQuote c = false := by
  simp only [opensBracket, closesBracket, Bool.or_eq_true, beq_iff_eq] at bracket
  rcases bracket with (((rfl | rfl) | rfl) | rfl) | (((rfl | rfl) | rfl) | rfl) <;> rfl

theorem opensBracket_of_closesBracket (closes : closesBracket c = true) :
    opensBracket c = false := by
  simp only [closesBracket, Bool.or_eq_true, beq_iff_eq] at closes
  rcases closes with ((rfl | rfl) | rfl) | rfl <;> rfl

theorem next_opensBracket (opens : opensBracket c = true) :
    (⟨depth, .outside, previous⟩ : SplitState).next c = ⟨depth + 1, .outside, some c⟩ := by
  simp [next, opensQuote_of_bracket (Or.inl opens), opens]

theorem next_closesBracket (closes : closesBracket c = true) (noArrow : ¬ IsArrow previous c) :
    (⟨depth, .outside, previous⟩ : SplitState).next c = ⟨depth - 1, .outside, some c⟩ := by
  rw [IsArrow] at noArrow
  simp [next, opensQuote_of_bracket (Or.inr closes), opensBracket_of_closesBracket closes, closes,
    noArrow]

end SplitState

/-- A string is passed up to its closing quote. -/
theorem Quoted.passes {q : Char} {s : Text} (content : Quoted q s) (depth : Nat)
    (previous : Option Char) :
    ∃ last, Passes ⟨depth, .inside q, previous⟩ s ⟨depth, .inside q, last⟩ := by
  induction content generalizing previous with
  | nil => exact ⟨previous, passes_nil _⟩
  | @char c t other plain _ ih =>
    obtain ⟨last, rest⟩ := ih (some c)
    refine ⟨last, .cons (separates_of_quoting_ne Quoting.noConfusion c) ?_⟩
    simpa only [SplitState.next, if_neg plain, if_neg other] using rest
  | @escape c t _ ih =>
    obtain ⟨last, rest⟩ := ih (some c)
    refine ⟨last, .cons (separates_of_quoting_ne Quoting.noConfusion _) (.cons ?_ rest)⟩
    exact separates_of_quoting_ne Quoting.noConfusion c

/-- Enclosed text is passed wherever the brackets around it are open. -/
theorem Enclosed.passes {inside : Bool} {previous : Option Char} {t : Text}
    (enclosed : Enclosed inside previous t) (depth : Nat) (deep : inside = true → 0 < depth) :
    ∃ last, Passes ⟨depth, .outside, previous⟩ t ⟨depth, .outside, last⟩ := by
  induction enclosed generalizing depth with
  | @nil inside previous => exact ⟨previous, passes_nil _⟩
  | @char inside previous c t noQuote opensNone closesNone comma _ ih =>
    obtain ⟨last, rest⟩ := ih depth deep
    rw [← next_plain noQuote opensNone closesNone] at rest
    exact ⟨last, .cons (separates_of_ne fun h => deep (comma h)) rest⟩
  | @quoted inside previous q s t quote content _ ih =>
    obtain ⟨last, rest⟩ := ih depth deep
    obtain ⟨last', string⟩ := content.passes depth (some q)
    have noComma : q ≠ ',' := by
      rintro rfl
      cases quote
    have opened : (⟨depth, .outside, previous⟩ : SplitState).next q = ⟨depth, .inside q, some q⟩ :=
      next_opensQuote quote
    have closed : (⟨depth, .inside q, last'⟩ : SplitState).next q = ⟨depth, .outside, some q⟩ :=
      next_closing quote
    rw [← closed] at rest
    rw [← opened] at string
    exact ⟨last, .cons (separates_of_ne fun h => absurd h noComma)
      (string.append (.cons (separates_of_quoting_ne Quoting.noConfusion q) rest))⟩
  | @bracketed inside previous o c s t opens _ closes noArrow _ inner outer =>
    obtain ⟨last, rest⟩ := outer depth deep
    obtain ⟨last', content⟩ := inner (depth + 1) fun _ => Nat.succ_pos depth
    have behind : last' = (o :: s).getLast? := by
      rw [List.getLast?_cons]
      exact content.previous_eq.trans (by cases s.getLast? <;> rfl)
    rw [← behind] at noArrow
    have noComma {c : Char} (bracket : opensBracket c = true ∨ closesBracket c = true) :
        c ≠ ',' := by
      rintro rfl
      rcases bracket with h | h <;> cases h
    have closed : (⟨depth + 1, .outside, last'⟩ : SplitState).next c = ⟨depth, .outside, some c⟩ :=
      next_closesBracket closes noArrow
    have opened : (⟨depth, .outside, previous⟩ : SplitState).next o =
        ⟨depth + 1, .outside, some o⟩ := next_opensBracket opens
    rw [← closed] at rest
    rw [← opened] at content
    exact ⟨last, .cons (separates_of_ne fun h => absurd h (noComma (Or.inl opens)))
      (content.append (.cons (separates_of_ne fun _ => Nat.succ_pos depth) rest))⟩

theorem Enclosed.whole {p : Text} (enclosed : Enclosed false none p) : Whole p :=
  (enclosed.passes 0 nofun).choose_spec.unsplit

theorem Enclosed.closed {p : Text} (enclosed : Enclosed false none p) :
    (start.after p).Closed := by
  obtain ⟨last, passes⟩ := enclosed.passes 0 nofun
  rw [start, passes.after_eq]
  exact ⟨rfl, rfl⟩

/-- The text of a parameter, with the blanks around it. It is trimmed and not empty, everything in
it is closed, and its commas are inside of brackets or quotes. -/
structure WrittenParameter extends Padded where
  nonempty : text ≠ []
  trimmed : text.trim = text
  enclosed : Enclosed false none text

namespace WrittenParameter

theorem parts (ps : List WrittenParameter) :
    Parts ((ps.map toPadded).map Padded.text) := by
  have enclosed : ∀ t ∈ (ps.map toPadded).map Padded.text, Enclosed false none t := by
    intro t ht
    obtain ⟨_, found, rfl⟩ := List.mem_map.1 ht
    obtain ⟨p, -, rfl⟩ := List.mem_map.1 found
    exact p.enclosed
  exact ⟨fun t ht => (enclosed t ht).whole,
    List.pairwise_of_forall_mem_list fun t ht _ _ => (enclosed t ht).closed⟩

theorem splitParameters_join (ps : List WrittenParameter) :
    splitParameters (Text.join [','] (ps.map fun p => p.written)) = ps.map fun p => p.text := by
  have texts : (ps.map toPadded).map Padded.text = ps.map fun p => p.text := List.map_map
  have written : (ps.map toPadded).map Padded.written = ps.map fun p => p.written := List.map_map
  rw [← written, splitParameters_join_written (parts ps), texts, filter_map_trim]
  intro _ found
  obtain ⟨p, -, rfl⟩ := List.mem_map.1 found
  exact ⟨p.trimmed, p.nonempty⟩

end WrittenParameter

/-! ## Parameters in their list -/

/-- Commas and blanks only. -/
def Separating (t : Text) : Prop :=
  ∀ c ∈ t, isBlank c = true ∨ c = ','

theorem Separating.append {g t : Text} (front : Separating g) (rest : Separating t) :
    Separating (g ++ t) :=
  List.forall_mem_append.2 ⟨front, rest⟩

theorem separating_of_blank {b : Text} (blank : Blank b) : Separating b :=
  fun c hc => Or.inl (blank c hc)

theorem separating_comma : Separating [','] :=
  List.forall_mem_singleton.2 (Or.inr rfl)

/-- Texts that stand in another one, in their order and apart from one another, with nothing but
commas and blanks beside them. -/
inductive Spread : List Text → Text → Prop
  | nil {gap : Text} (separating : Separating gap) : Spread [] gap
  | cons {gap p t : Text} {ps : List Text} (separating : Separating gap) (rest : Spread ps t) :
      Spread (p :: ps) (gap ++ (p ++ t))

theorem Spread.append_left {ps : List Text} {t : Text} (spread : Spread ps t) {gap : Text}
    (separating : Separating gap) : Spread ps (gap ++ t) := by
  cases spread with
  | nil rest => exact .nil (separating.append rest)
  | cons inner rest =>
    rw [← List.append_assoc]
    exact .cons (separating.append inner) rest

/-- The pieces of a text with commas between are the text. -/
theorem join_piecesFrom (s : SplitState) (t : Text) : Text.join [','] (piecesFrom s t) = t := by
  induction t generalizing s with
  | nil => rfl
  | cons c t ih =>
    obtain ⟨piece, pieces, cut⟩ := List.exists_cons_of_ne_nil (piecesFrom_ne_nil (s.next c) t)
    have rest := ih (s.next c)
    rw [cut] at rest
    rw [piecesFrom, cut]
    cases separated : s.separates c with
    | true =>
      rw [(separates_iff.1 separated).1, ← rest]
      rfl
    | false =>
      rw [← rest]
      cases pieces <;> rfl

/-- A piece in front of others brings at most itself, trimmed. -/
theorem Spread.piece {ps : List Text} {t : Text} (spread : Spread ps t) (piece : Text) :
    Spread ([piece.trim].filter (· ≠ []) ++ ps) (piece ++ t) := by
  obtain ⟨b, b', before, behind, cut⟩ := Text.exists_eq_append_trim piece
  have rest := spread.append_left (separating_of_blank behind)
  rw [cut, List.append_assoc, List.append_assoc, ← cut]
  by_cases empty : piece.trim = []
  · rw [empty]
    exact rest.append_left (separating_of_blank before)
  · rw [List.filter_cons_of_pos (by simpa using empty)]
    exact .cons (separating_of_blank before) rest

theorem spread_join (pieces : List Text) :
    Spread ((pieces.map Text.trim).filter (· ≠ [])) (Text.join [','] pieces) := by
  induction pieces with
  | nil => exact .nil nofun
  | cons piece pieces ih =>
    have behind : Spread ((pieces.map Text.trim).filter (· ≠ []))
        (if pieces = [] then [] else [','] ++ Text.join [','] pieces) := by
      split
      · rename_i none
        rw [none]
        exact .nil nofun
      · exact ih.append_left separating_comma
    have joined : Text.join [','] (piece :: pieces) =
        piece ++ if pieces = [] then [] else [','] ++ Text.join [','] pieces := by
      cases pieces with
      | nil => exact (List.append_nil piece).symm
      | cons q pieces => exact List.append_assoc _ _ _
    rw [joined, List.map_cons, ← List.singleton_append, List.filter_append]
    exact behind.piece piece

theorem spread_splitParameters (list : Text) : Spread (splitParameters list) list := by
  have spread := spread_join (piecesFrom start list)
  rwa [join_piecesFrom] at spread

/-! ## Splitting and joining -/

/-- Splitting undoes joining: parameters in which everything is closed are found again between
commas with any blanks around them. And whatever text is split, joining its parameters gives a list
of the same parameters, which are trimmed texts of the original one in their order. -/
theorem splitParameters_inverts_join :
    (∀ ps : List WrittenParameter,
      splitParameters (Text.join [','] (ps.map fun p => p.written)) = ps.map fun p => p.text) ∧
    ∀ list : Text,
      splitParameters (Text.join ", " (splitParameters list)) = splitParameters list ∧
      (∀ p ∈ splitParameters list, p.trim = p ∧ p ≠ []) ∧
      Spread (splitParameters list) list := by
  refine ⟨WrittenParameter.splitParameters_join, fun list => ⟨?again, ?trimmed, ?spread⟩⟩
  case again =>
    exact Source.splitParameters_join (parts_splitParameters list)
      fun _ => trimmed_of_mem_splitParameters
  case trimmed => exact fun _ => trimmed_of_mem_splitParameters
  case spread => exact spread_splitParameters list

/-- A parameter whose type has a comma in brackets and an arrow behind them. -/
def WrittenParameter.callback : WrittenParameter where
  before := []
  text := "f: (a, b) => c"
  behind := ['\t']
  blank_before := Text.blank_nil
  blank_behind := Text.blank_cons.2 ⟨by decide, Text.blank_nil⟩
  nonempty := by decide
  trimmed := by decide
  enclosed :=
    .append_plain (p := "f: ") (by decide) <|
      .bracketed (o := '(') (s := "a, b") (c := ')') (by decide)
        (.append_plain (p := ['a']) (by decide) <|
          .char (c := ',') (by decide) (by decide) (by decide) (by decide) <|
            .append_plain (p := " b") (by decide) .nil)
        (by decide) (by decide) <|
      .append_plain (p := " =") (by decide) <|
        .char (c := '>') (by decide) (by decide) (by decide) (by decide) <|
          .append_plain (p := " c") (by decide) .nil

/-- A parameter whose default is a quote behind a backslash and a comma. -/
def WrittenParameter.separator : WrittenParameter where
  before := [' ']
  text := "sep=\"\\\",\""
  behind := []
  blank_before := Text.blank_space
  blank_behind := Text.blank_nil
  nonempty := by decide
  trimmed := by decide
  enclosed :=
    .append_plain (p := "sep=") (by decide) <|
      .quoted (q := '"') (s := "\\\",") (by decide) (.escape (.char (by decide) (by decide) .nil))
        .nil

theorem splitParameters_inverts_join_callback :
    splitParameters "f: (a, b) => c\t, sep=\"\\\",\"" =
      [("f: (a, b) => c" : Text), ("sep=\"\\\",\"" : Text)] :=
  splitParameters_inverts_join.1 [.callback, .separator]

end HarnessSynthesis.Source
