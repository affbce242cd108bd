/-
# Signatures of Python

Two scanners go over the parameters of a definition. One looks for the parenthesis that closes the
list, the other splits at the commas what stands in front of it. Only the second one knows quotes.
So a parenthesis in a string may end the list too early or too late: the first may lose parameters,
the second the whole definition. Here it is said exactly when a definition on one line is found with
as many parameters as were written, whatever their defaults and annotations hold.
-/

import HarnessSynthesis.Proofs.Entry.Arity
import HarnessSynthesis.Proofs.Source.Joining
import HarnessSynthesis.Proofs.Source.Parentheses
import HarnessSynthesis.Proofs.Source.Stripping
import HarnessSynthesis.Proofs.Text.Joined
import HarnessSynthesis.Proofs.Text.Search

namespace HarnessSynthesis

open Source
open Text (isBlank)

namespace PythonSource

/-! ## Places where nothing is defined -/

theorem beginsLines_definition? : definition?.BeginsLines := by
  intro previous inLine t
  rw [definition?, inLine]
  rfl

/-- What follows the parameters of a definition: the end of its head, and a body of one line. -/
def tail : Text := "):\n    pass\n"

theorem occurrencesFrom_tail {passed list : Text} (inLine : lineBegins passed.head? = false)
    (noFeed : '\n' ∉ list) : occurrencesFrom definition? passed (list ++ tail) = [] := by
  have lines : list ++ tail = (list ++ "):") ++ '\n' :: ' ' :: ("   pass" ++ ['\n']) := by
    rw [List.append_assoc]
    rfl
  have noFeed' : '\n' ∉ list ++ "):" := by
    rw [List.mem_append, not_or]
    exact ⟨noFeed, by decide⟩
  have reversed : (list ++ "):").reverse ++ passed = ':' :: ')' :: (list.reverse ++ passed) := by
    rw [List.reverse_append]
    rfl
  have body : definition? (some '\n') (' ' :: ("   pass" ++ ['\n'])) = none := by decide
  rw [lines, beginsLines_definition?.occurrencesFrom_append inLine noFeed', reversed,
    occurrencesFrom_cons_of_none (beginsLines_definition? (by rfl) _),
    occurrencesFrom_cons_of_none body,
    beginsLines_definition?.occurrencesFrom_append (by rfl) (by decide)]
  exact (occurrencesFrom_cons_of_none (beginsLines_definition? (by rfl) _)).trans
    (by rw [occurrencesFrom])

/-! ## A definition of one line -/

/-- A definition of some name and parameters, with an empty body. -/
def signature (name list : Text) : Text :=
  "def " ++ (name ++ '(' :: (list ++ tail))

/-- The candidate for a list between the parentheses of a definition. -/
def candidateOf (name inside behind : Text) : Candidate :=
  Candidate.of "def " name (Text.join ", " (withoutReceiver (splitParameters inside)))
    (returnType? behind) 0

/-- The definition is read when its name starts with a letter of ASCII or a low line. -/
theorem definition?_signature {c : Char} {rest : Text}
    (word : ∀ d ∈ c :: rest, Text.isWordChar d = true) (list : Text) :
    definition? none (signature (c :: rest) list) =
      if Text.isNameStart c then
        some (⟨"def ", c :: rest, list ++ tail⟩, list ++ tail)
      else none := by
  have keyword : Text.afterPrefix? "def"
      (skipAsync ((signature (c :: rest) list).dropWhile isInlineBlank)) =
        some (' ' :: (c :: rest ++ '(' :: (list ++ tail))) := rfl
  have noBlank : isInlineBlank c = false := by
    rw [isInlineBlank, Bool.or_eq_false_iff, beq_eq_false_iff_ne, beq_eq_false_iff_ne]
    have first := word c List.mem_cons_self
    constructor <;> rintro rfl <;> exact absurd first (by decide)
  have spaced : inlineBlanks? (' ' :: (c :: rest ++ '(' :: (list ++ tail))) =
      some (c :: rest ++ '(' :: (list ++ tail)) := by
    rw [inlineBlanks?, if_pos (by decide), List.cons_append,
      List.dropWhile_cons_of_neg (by rw [noBlank]; exact Bool.false_ne_true)]
  have others : ∀ d ∈ rest, Text.isWordChar d = true := fun d hd =>
    word d (List.mem_cons_of_mem c hd)
  have taken : (rest ++ '(' :: (list ++ tail)).takeWhile Text.isWordChar = rest := by
    rw [List.takeWhile_append_of_pos others, List.takeWhile_cons_of_neg (by decide),
      List.append_nil]
  have left : (rest ++ '(' :: (list ++ tail)).dropWhile Text.isWordChar =
      '(' :: (list ++ tail) := by
    rw [List.dropWhile_append_of_pos others, List.dropWhile_cons_of_neg (by decide)]
  have named : name? Text.isNameStart Text.isWordChar (c :: rest ++ '(' :: (list ++ tail)) =
      if Text.isNameStart c then some (c :: rest, '(' :: (list ++ tail)) else none := by
    rw [List.cons_append, name?, taken, left]
  have lead : TypescriptSource.leadOf (signature (c :: rest) list)
      (c :: rest ++ '(' :: (list ++ tail)) = "def " := by
    rw [TypescriptSource.leadOf, signature, List.length_append, Nat.add_sub_cancel, List.take_left]
  have begun : (guard (lineBegins none = true) : Option Unit) = some () := rfl
  rw [definition?, begun]
  simp only [keyword, Option.bind_eq_bind, Option.bind_some, spaced, named, lead]
  cases Text.isNameStart c with
  | false => rfl
  | true => rfl

/-- The definition is found when its name starts as the scanner expects, and nothing else is. -/
theorem occurrences_signature {c : Char} {rest list : Text}
    (word : ∀ d ∈ c :: rest, Text.isWordChar d = true) (noFeed : '\n' ∉ list) :
    occurrences definition? (signature (c :: rest) list) =
      if Text.isNameStart c then [⟨[], "def ", c :: rest, list ++ tail⟩] else [] := by
  have inName : '\n' ∉ c :: rest := fun found => absurd (word _ found) (by decide)
  have read := definition?_signature word list
  cases starts : Text.isNameStart c with
  | false =>
    rw [starts] at read
    rw [if_neg Bool.false_ne_true] at read ⊢
    have line : signature (c :: rest) list =
        'd' :: (("ef " ++ (c :: rest ++ '(' :: list)) ++ tail) := by
      rw [List.append_assoc, List.append_assoc, List.cons_append]
      rfl
    rw [line] at read
    rw [occurrences, line, occurrencesFrom_cons_of_none read]
    refine occurrencesFrom_tail (by rfl) ?_
    simp only [List.mem_append, List.mem_cons, not_or] at inName ⊢
    exact ⟨by decide, inName, by decide, noFeed⟩
  | true =>
    rw [starts, if_pos rfl] at read
    rw [if_pos rfl]
    have whole : signature (c :: rest) list =
        ("def " ++ (c :: rest ++ ['('])) ++ (list ++ tail) := by
      rw [List.append_assoc, List.append_assoc]
      rfl
    have reversed : ("def " ++ (c :: rest ++ ['('])).reverse ++ [] =
        '(' :: ((c :: rest).reverse ++ "def ".toList.reverse) := by
      rw [List.reverse_append, List.reverse_append, List.append_nil, List.append_assoc]
      rfl
    rw [whole] at read
    rw [occurrences, whole, occurrencesFrom_append_of_some (by simp) read, reversed,
      occurrencesFrom_tail (by rfl) noFeed]
    rfl

theorem candidates_signature {c : Char} {rest list : Text}
    (word : ∀ d ∈ c :: rest, Text.isWordChar d = true) (ordinary : isSpecial (c :: rest) = false)
    (noFeed : '\n' ∉ list) :
    candidates (signature (c :: rest) list) =
      if Text.isNameStart c then
        ((closeBracket? '(' ')' 0 (list ++ tail)).map fun cut =>
          candidateOf (c :: rest) cut.1 cut.2).toList
      else [] := by
  rw [candidates, occurrences_signature word noFeed]
  cases Text.isNameStart c with
  | false => rfl
  | true =>
    rw [if_pos rfl, if_pos rfl, List.filterMap_cons, List.filterMap_nil, ordinary]
    cases closeBracket? '(' ')' 0 (list ++ tail) <;> rfl

/-! ## Parameters of one line -/

/-- A parameter as it is written: text of one line in which everything is closed, as a splitter sees
it, and in which stripping has nothing to do. -/
structure LineParameter where
  text : Text
  nonempty : text ≠ []
  trimmed : text.trim = text
  enclosed : Enclosed false none text
  noFeed : '\n' ∉ text
  noComment : '#' ∉ text
  noTriple : ∀ q, isDelimiter .python q = true → ¬ [q, q, q] <:+: text

/-- The texts of parameters in the list of a definition. -/
def listOf (ps : List LineParameter) : Text :=
  Text.join ", " (ps.map LineParameter.text)

theorem not_mem_listOf {c : Char} (ps : List LineParameter) (unused : c ∉ ", ".toList)
    (absent : ∀ p : LineParameter, c ∉ p.text) : c ∉ listOf ps := by
  intro found
  rcases Text.mem_of_mem_join found with between | ⟨t, ht, inside⟩
  · exact unused between
  · obtain ⟨p, -, rfl⟩ := List.mem_map.1 ht
    exact absent p inside

theorem ne_of_isDelimiter {q c : Char} (delimits : isDelimiter .python q = true)
    (other : isDelimiter .python c = false) : c ∉ [q, q, q] := by
  intro found
  have same : c = q := by simpa using found
  rw [same, delimits] at other
  cases other

theorem noTriple_listOf (ps : List LineParameter) {q : Char}
    (delimits : isDelimiter .python q = true) : ¬ [q, q, q] <:+: listOf ps := by
  induction ps with
  | nil => exact fun inside => absurd (List.infix_nil.1 inside) (List.cons_ne_nil _ _)
  | cons p ps ih =>
    cases ps with
    | nil => exact p.noTriple q delimits
    | cons p' ps =>
      have further : ¬ [q, q, q] <:+: [] ++ ' ' :: listOf (p' :: ps) :=
        Text.not_isInfix_append_cons (ne_of_isDelimiter delimits (by decide))
          (fun inside => absurd (List.infix_nil.1 inside) (List.cons_ne_nil _ _)) ih
      have list : listOf (p :: p' :: ps) =
          p.text ++ ',' :: ([] ++ ' ' :: listOf (p' :: ps)) :=
        List.append_assoc _ _ _
      rw [list]
      exact Text.not_isInfix_append_cons (ne_of_isDelimiter delimits (by decide))
        (p.noTriple q delimits) further

theorem stripComments_signature {name : Text} (word : ∀ c ∈ name, Text.isWordChar c = true)
    (ps : List LineParameter) :
    stripComments .python (signature name (listOf ps)) = signature name (listOf ps) := by
  refine stripFrom_eq_self (show Region.code.Keeps from trivial) ?noComment ?noTriple
  case noComment =>
    have inName : '#' ∉ name := fun found => absurd (word _ found) (by decide)
    have inList : '#' ∉ listOf ps := not_mem_listOf ps (by decide) LineParameter.noComment
    simp only [signature, List.mem_append, List.mem_cons, not_or]
    exact ⟨by decide, inName, by decide, inList, by decide⟩
  case noTriple =>
    intro q delimits
    have whole : signature name (listOf ps) =
        ("def " ++ name) ++ '(' :: (listOf ps ++ ')' :: ":\n    pass\n") := by
      rw [List.append_assoc]
      rfl
    have quote : q = '"' ∨ q = '\'' := by simpa [isDelimiter] using delimits
    have inFront : q ∉ "def " ++ name := by
      rw [List.mem_append, not_or]
      rcases quote with rfl | rfl <;>
        exact ⟨by decide, fun found => absurd (word _ found) (by decide)⟩
    have inTail : q ∉ ":\n    pass\n".toList := by
      rcases quote with rfl | rfl <;> decide
    have absent {t : Text} (unused : q ∉ t) : ¬ [q, q, q] <:+: t := fun inside =>
      unused (inside.subset List.mem_cons_self)
    rw [whole]
    exact Text.not_isInfix_append_cons (ne_of_isDelimiter delimits (by decide)) (absent inFront)
      (Text.not_isInfix_append_cons (ne_of_isDelimiter delimits (by decide))
        (noTriple_listOf ps delimits) (absent inTail))

theorem findCandidates_signature {c : Char} {rest : Text}
    (word : ∀ d ∈ c :: rest, Text.isWordChar d = true) (ordinary : isSpecial (c :: rest) = false)
    (ps : List LineParameter) :
    findCandidates .python (signature (c :: rest) (listOf ps)) =
      if Text.isNameStart c then
        ((closeBracket? '(' ')' 0 (listOf ps ++ tail)).map fun cut =>
          candidateOf (c :: rest) cut.1 cut.2).toList
      else [] := by
  have noFeed : '\n' ∉ listOf ps := not_mem_listOf ps (by decide) LineParameter.noFeed
  rw [findCandidates, stripComments_signature word]
  simp only [candidates_signature word ordinary noFeed]
  cases Text.isNameStart c with
  | false =>
    exact Candidate.arrange_toList (o := none) fun d found => absurd found (Option.not_mem_none d)
  | true =>
    refine Candidate.arrange_toList fun d found => ?_
    obtain ⟨cut, -, rfl⟩ := Option.map_eq_some_iff.1 found
    rfl

/-! ## What is read as the list -/

/-- What is read as the parameters of a definition: the text up to the parenthesis that closes the
list when quotes do not count. -/
structure ReadsAs (list inside : Text) : Prop where
  isPrefix : inside ++ [')'] <+: list ++ [')']
  matched : Matched 0 inside

/-- Reading ends at the latest in front of the tail. -/
theorem exists_closeBracket?_iff {list inside : Text} :
    (∃ behind, closeBracket? '(' ')' 0 (list ++ tail) = some (inside, behind)) ↔
      ReadsAs list inside := by
  have whole : list ++ tail = (list ++ [')']) ++ ":\n    pass\n" := by
    rw [List.append_assoc]
    rfl
  constructor
  · rintro ⟨behind, read⟩
    obtain ⟨place, matched⟩ := closeBracket?_eq_some_iff.1 read
    refine ⟨?_, matched⟩
    by_contra beyond
    have front : inside ++ [')'] <+: (list ++ [')']) ++ ":\n    pass\n" :=
      ⟨behind, by rw [← whole, place, List.append_assoc]; rfl⟩
    obtain ⟨t, -, within⟩ := Text.exists_append_singleton_of_isPrefix front beyond
    exact absurd (within.subset (List.mem_append_right t (List.mem_singleton_self ')'))) (by decide)
  · rintro ⟨⟨rest, same⟩, matched⟩
    refine ⟨rest ++ ":\n    pass\n", closeBracket?_eq_some_iff.2 ⟨?_, matched⟩⟩
    rw [whole, ← same]
    simp only [List.append_assoc, List.cons_append, List.nil_append]

/-- What is read is the whole list, or it ends inside of a parameter. -/
theorem ReadsAs.eq_or_exists {ps : List LineParameter} {inside : Text}
    (reads : ReadsAs (listOf ps) inside) :
    inside = listOf ps ∨ ∃ front p back cut, ps = front ++ p :: back ∧ cut ++ [')'] <+: p.text ∧
      inside = Text.join ", " (front.map LineParameter.text ++ [cut]) := by
  by_cases within : inside ++ [')'] <+: listOf ps
  · obtain ⟨front, p, back, cut, pieces, short, rfl⟩ :=
      Text.exists_of_isPrefix_join (by decide) within
    obtain ⟨front, others, rfl, rfl, behind⟩ := List.map_eq_append_iff.1 pieces
    obtain ⟨p, back, rfl, rfl, rfl⟩ := List.map_eq_cons_iff.1 behind
    exact Or.inr ⟨front, p, back, cut, rfl, short, rfl⟩
  · obtain ⟨t, rfl, last⟩ := Text.exists_append_singleton_of_isPrefix reads.isPrefix within
    have empty : t = [] := by
      have size := last.length_le
      rw [List.length_append, List.length_singleton] at size
      exact List.eq_nil_of_length_eq_zero (by omega)
    exact Or.inl (by rw [empty, List.append_nil])

theorem not_enclosed_close {inside : Bool} {t : Text} : ¬ Enclosed inside none (')' :: t) := by
  intro enclosed
  cases enclosed with
  | char _ _ closesNone => exact absurd (closesNone rfl) (by decide)
  | quoted quote => cases quote
  | bracketed opens => cases opens

/-- A beginning of a parameter in front of a parenthesis is not blank. -/
theorem LineParameter.trim_ne_nil {p : LineParameter} {cut : Text}
    (short : cut ++ [')'] <+: p.text) : cut.trim ≠ [] := by
  obtain ⟨rest, same⟩ := short
  cases cut with
  | nil =>
    have enclosed := p.enclosed
    rw [← same] at enclosed
    exact absurd enclosed not_enclosed_close
  | cons c cut =>
    have trimmed := p.trimmed
    rw [← same] at trimmed
    have visible : isBlank c = false := Text.isBlank_head_of_trim_eq_self trimmed
    intro empty
    have blank := Text.blank_of_trim_eq_nil empty c List.mem_cons_self
    rw [visible] at blank
    cases blank

theorem splitParameters_cut (front : List LineParameter) {p : LineParameter} {cut : Text}
    (short : cut ++ [')'] <+: p.text) :
    splitParameters (Text.join ", " (front.map LineParameter.text ++ [cut])) =
      front.map LineParameter.text ++ [cut.trim] := by
  have whole : Whole cut := by
    obtain ⟨rest, same⟩ := short
    have unsplit := p.enclosed.whole
    rw [← same, List.append_assoc] at unsplit
    exact (unsplit_append.1 unsplit).1
  have parts : Parts (front.map LineParameter.text ++ [cut]) := by
    constructor
    · rw [List.forall_mem_append, List.forall_mem_singleton, List.forall_mem_map]
      exact ⟨fun p _ => p.enclosed.whole, whole⟩
    · rw [List.pairwise_append, List.pairwise_map]
      refine ⟨List.pairwise_of_forall fun p _ => p.enclosed.closed, List.pairwise_singleton _ _, ?_⟩
      rw [List.forall_mem_map]
      exact fun p _ _ _ => p.enclosed.closed
  have last : ([cut].map Text.trim).filter (· ≠ []) = [cut.trim] :=
    List.filter_eq_self.2 (List.forall_mem_singleton.2
      (decide_eq_true (LineParameter.trim_ne_nil short)))
  rw [splitParameters_join_eq_filter parts, List.map_append, List.filter_append, last,
    filter_map_trim]
  rw [List.forall_mem_map]
  exact fun p _ => ⟨p.trimmed, p.nonempty⟩

theorem splitParameters_listOf (ps : List LineParameter) :
    splitParameters (listOf ps) = ps.map LineParameter.text := by
  refine splitParameters_join ⟨?whole, ?closed⟩ ?trimmed
  case whole =>
    rw [List.forall_mem_map]
    exact fun p _ => p.enclosed.whole
  case closed =>
    rw [List.pairwise_map]
    exact List.pairwise_of_forall fun p _ => p.enclosed.closed
  case trimmed =>
    rw [List.forall_mem_map]
    exact fun p _ => ⟨p.trimmed, p.nonempty⟩

theorem listOf_dropLast_isPrefix (ps : List LineParameter) : listOf ps.dropLast <+: listOf ps := by
  rcases List.eq_nil_or_concat ps with rfl | ⟨front, p, rfl⟩
  · exact List.prefix_refl _
  · rw [List.concat_eq_append, List.dropLast_concat, listOf, listOf, List.map_append]
    exact Text.join_isPrefix_append _ _

/-- Where reading ends inside of a parameter that others follow, it does not come to the last. -/
theorem not_listOf_dropLast_isPrefix (front : List LineParameter) {p : LineParameter} {cut : Text}
    (short : cut ++ [')'] <+: p.text) {back : List LineParameter} (more : back ≠ []) :
    ¬ listOf (front ++ p :: back).dropLast <+:
      Text.join ", " (front.map LineParameter.text ++ [cut]) := by
  intro within
  obtain ⟨q, back, rfl⟩ := List.exists_cons_of_ne_nil more
  have longer : Text.join ", " (front.map LineParameter.text ++ [cut ++ [')']]) <+:
      Text.join ", " (front.map LineParameter.text ++
        p.text :: (q :: back).dropLast.map LineParameter.text) :=
    Text.join_isPrefix _ short _
  rw [Text.join_append_singleton_append] at longer
  have texts : listOf (front ++ p :: q :: back).dropLast =
      Text.join ", " (front.map LineParameter.text ++
        p.text :: (q :: back).dropLast.map LineParameter.text) := by
    rw [List.dropLast_append_cons, List.dropLast_cons_cons, listOf, List.map_append, List.map_cons]
  rw [texts] at within
  have size := (longer.trans within).length_le
  rw [List.length_append, List.length_singleton] at size
  omega

/-- Without a receiver in front all parameters stay. -/
theorem withoutReceiver_texts {ps : List LineParameter}
    (bound : ∀ p ∈ ps.head?, isReceiver p.text = false) :
    withoutReceiver (ps.map LineParameter.text) = ps.map LineParameter.text := by
  cases ps with
  | nil => rfl
  | cons p ps =>
    rw [List.map_cons, withoutReceiver_cons, bound p rfl, if_neg Bool.false_ne_true]

/-- As many parameters are counted as were written just when all but the last are read to their
end, and of a sole parameter nothing is read that looks like a receiver. -/
theorem ReadsAs.length_eq_iff {ps : List LineParameter} {inside : Text}
    (reads : ReadsAs (listOf ps) inside) (bound : ∀ p ∈ ps.head?, isReceiver p.text = false) :
    (withoutReceiver (splitParameters inside)).length = ps.length ↔
      listOf ps.dropLast <+: inside ∧ (ps.length = 1 → isReceiver inside.trim = false) := by
  rcases reads.eq_or_exists with rfl | ⟨front, p, back, cut, rfl, short, rfl⟩
  case inl =>
    rw [splitParameters_listOf, withoutReceiver_texts bound, List.length_map]
    refine iff_of_true rfl ⟨listOf_dropLast_isPrefix ps, fun sole => ?_⟩
    obtain ⟨p, rfl⟩ := List.length_eq_one_iff.1 sole
    show isReceiver p.text.trim = false
    rw [p.trimmed]
    exact bound p rfl
  case inr =>
    rw [splitParameters_cut front short, length_withoutReceiver, List.length_append,
      List.length_map, List.length_singleton, List.length_append, List.length_cons]
    cases back with
    | cons q back =>
      refine iff_of_false ?_ fun h =>
        not_listOf_dropLast_isPrefix front short (List.cons_ne_nil q back) h.1
      rw [List.length_cons]
      omega
    | nil =>
      have within : listOf (front ++ [p]).dropLast <+:
          Text.join ", " (front.map LineParameter.text ++ [cut]) := by
        rw [List.dropLast_concat]
        exact Text.join_isPrefix_append _ _
      rw [and_iff_right within, List.length_nil]
      cases front with
      | nil =>
        show 0 + 1 - (if isReceiver (Text.trim cut) = true then 1 else 0) = 0 + (0 + 1) ↔
          (0 + (0 + 1) = 1 → isReceiver (Text.trim cut) = false)
        cases isReceiver (Text.trim cut) <;> decide
      | cons r front =>
        have head : isReceiver r.text = false := bound r rfl
        rw [List.map_cons, List.cons_append, List.head?_cons, Option.any_some, head,
          if_neg Bool.false_ne_true, List.length_cons]
        exact iff_of_true rfl fun sole => by omega

theorem argumentCount_candidateOf (name inside behind : Text) :
    (candidateOf name inside behind).argumentCount =
      (withoutReceiver (splitParameters inside)).length := by
  rw [← splitParameters_withoutReceiver, splitParameters_trim]
  rfl

/-! ## Definitions that are found -/

/-- A definition of one line is found, with all its parameters, exactly when its name starts with a
letter of ASCII or a low line and its parenthesis is closed, quotes not counting, behind all
parameters but the last. Of a sole parameter what is read must not look like a receiver. -/
theorem findCandidates_signature_iff {name : Text} {ps : List LineParameter}
    (nonempty : name ≠ []) (word : ∀ c ∈ name, Text.isWordChar c = true)
    (ordinary : isSpecial name = false) (bound : ∀ p ∈ ps.head?, isReceiver p.text = false) :
    (∃ c, findCandidates .python (signature name (listOf ps)) = [c] ∧ c.name = name ∧
        c.argumentCount = ps.length) ↔
      name.head?.any Text.isNameStart = true ∧
        ∃ inside, ReadsAs (listOf ps) inside ∧ listOf ps.dropLast <+: inside ∧
          (ps.length = 1 → isReceiver inside.trim = false) := by
  obtain ⟨c, rest, rfl⟩ := List.exists_cons_of_ne_nil nonempty
  rw [findCandidates_signature word ordinary, List.head?_cons, Option.any_some]
  cases Text.isNameStart c with
  | false =>
    refine iff_of_false ?_ fun h => Bool.false_ne_true h.1
    rintro ⟨found, none, -⟩
    cases none
  | true =>
    rw [if_pos rfl, and_iff_right rfl]
    constructor
    · rintro ⟨found, one, -, counted⟩
      obtain ⟨⟨inside, behind⟩, read, rfl⟩ :=
        Option.map_eq_some_iff.1 (Option.toList_eq_singleton_iff.1 one)
      have reads := exists_closeBracket?_iff.1 ⟨behind, read⟩
      rw [argumentCount_candidateOf] at counted
      exact ⟨inside, reads, (reads.length_eq_iff bound).1 counted⟩
    · rintro ⟨inside, reads, enough⟩
      obtain ⟨behind, read⟩ := exists_closeBracket?_iff.2 reads
      refine ⟨candidateOf (c :: rest) inside behind, by rw [read]; rfl, rfl, ?_⟩
      rw [argumentCount_candidateOf]
      exact (reads.length_eq_iff bound).2 enough

/-- Where the parentheses of each parameter are in pairs, those in quotes included, the list is read
to its end and all parameters are kept as they are written. -/
theorem findCandidates_signature_of_pairs {c : Char} {rest : Text} {ps : List LineParameter}
    (word : ∀ d ∈ c :: rest, Text.isWordChar d = true) (ordinary : isSpecial (c :: rest) = false)
    (starts : Text.isNameStart c = true) (bound : ∀ p ∈ ps.head?, isReceiver p.text = false)
    (pairs : ∀ p ∈ ps, Matched 0 p.text) :
    ∃ d, findCandidates .python (signature (c :: rest) (listOf ps)) = [d] ∧ d.name = c :: rest ∧
      d.argumentCount = ps.length ∧ d.arguments = (listOf ps).trim := by
  have reads : ReadsAs (listOf ps) (listOf ps) := by
    refine ⟨List.prefix_refl _, matched_join ?_⟩
    rw [List.forall_mem_map]
    exact pairs
  have kept : withoutReceiver (splitParameters (listOf ps)) = ps.map LineParameter.text := by
    rw [splitParameters_listOf, withoutReceiver_texts bound]
  obtain ⟨behind, read⟩ := exists_closeBracket?_iff.2 reads
  refine ⟨candidateOf (c :: rest) (listOf ps) behind, ?found, rfl, ?counted, ?written⟩
  case found =>
    rw [findCandidates_signature word ordinary, if_pos starts, read]
    rfl
  case counted => rw [argumentCount_candidateOf, kept, List.length_map]
  case written =>
    show Text.trim (Text.join ", " (withoutReceiver (splitParameters (listOf ps)))) = _
    rw [kept, listOf]

theorem noTriple_of_contains {t : Text} (double : Text.contains ['"', '"', '"'] t = false)
    (single : Text.contains ['\'', '\'', '\''] t = false) :
    ∀ q, isDelimiter .python q = true → ¬ [q, q, q] <:+: t := by
  intro q delimits
  have quote : q = '"' ∨ q = '\'' := by simpa [isDelimiter] using delimits
  rcases quote with rfl | rfl
  · exact Text.not_isInfix_of_contains_eq_false double
  · exact Text.not_isInfix_of_contains_eq_false single

/-- A parameter whose default is a pair of parentheses in quotes. -/
def LineParameter.brackets : LineParameter where
  text := "b=\"()\""
  nonempty := by decide
  trimmed := by decide
  enclosed := .append_plain (p := "b=") (by decide) <|
    .quoted (q := '"') (s := "()") (by decide)
      (.char (by decide) (by decide) (.char (by decide) (by decide) .nil)) .nil
  noFeed := by decide
  noComment := by decide
  noTriple := noTriple_of_contains (by decide) (by decide)

/-- A parameter whose default is a closing parenthesis in quotes. -/
def LineParameter.closing : LineParameter where
  text := "a=\")\""
  nonempty := by decide
  trimmed := by decide
  enclosed := .append_plain (p := "a=") (by decide) <|
    .quoted (q := '"') (s := [')']) (by decide) (.char (by decide) (by decide) .nil) .nil
  noFeed := by decide
  noComment := by decide
  noTriple := noTriple_of_contains (by decide) (by decide)

/-- With the closing parenthesis in the last parameter both are counted. -/
theorem findCandidates_signature_iff_brackets :
    ∃ c, findCandidates .python (signature ['f'] (listOf [.brackets, .closing])) = [c] ∧
      c.name = ['f'] ∧ c.argumentCount = 2 := by
  have reads : ReadsAs (listOf [.brackets, .closing]) "b=\"()\", a=\"" :=
    exists_closeBracket?_iff.1 ⟨"\"):\n    pass\n", by decide +kernel⟩
  have word : ∀ d ∈ ['f'], Text.isWordChar d = true := List.forall_mem_singleton.2 (by decide)
  refine (findCandidates_signature_iff (by decide) word (by decide) ?_).2
    ⟨by decide, _, reads, by decide, by decide⟩
  rintro p ⟨⟩
  decide +kernel

/-- With it in the first parameter only this one is counted, and not even to its end. -/
theorem findCandidates_signature_closing :
    signature ['f'] (listOf [.closing, .brackets]) =
        "def f(a=\")\", b=\"()\"):\n    pass\n".toList ∧
      isSpecial ['f'] = false ∧ isReceiver LineParameter.closing.text = false ∧
      ¬ ∃ c, findCandidates .python (signature ['f'] (listOf [.closing, .brackets])) = [c] ∧
        c.name = ['f'] ∧ c.argumentCount = 2 := by
  refine ⟨by decide +kernel, by decide, by decide +kernel, ?_⟩
  have read : closeBracket? '(' ')' 0 (listOf [.closing, .brackets] ++ tail) =
      some ("a=\"".toList, "\", b=\"()\"):\n    pass\n".toList) := by decide +kernel
  have one : (withoutReceiver (splitParameters "a=\"")).length = 1 := by decide +kernel
  rintro ⟨c, found, -, counted⟩
  have word : ∀ d ∈ ['f'], Text.isWordChar d = true := List.forall_mem_singleton.2 (by decide)
  rw [findCandidates_signature word (by decide), if_pos (by decide), read] at found
  obtain ⟨rfl, -⟩ := List.cons.inj found
  rw [argumentCount_candidateOf, one] at counted
  cases counted

end PythonSource

end HarnessSynthesis
