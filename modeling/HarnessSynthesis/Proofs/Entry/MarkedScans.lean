/-
# Scans of marked texts

The scanners of methods and classes hit both texts of a marked one at the same places. None hits in
the word itself, nor goes on from it over what stands behind, and behind a hit the same is found.
-/

import HarnessSynthesis.Proofs.Entry.MarkedHeaders

namespace HarnessSynthesis.TypedSource

open Source
open scoped Text.OfCharacters
open Text (isBlank isAsciiBlank isNameChar isNameStart isWordChar)

namespace Marked

variable {m : Marked}

/-! ## Bodies -/

section Bodies

variable {fuel fuel' : Nat}

theorem bodyFollows_append_of_blank {gap : Text} (blank : Text.Blank gap) (t : Text) :
    bodyFollows fuel (gap ++ t) = bodyFollows fuel t := by
  cases fuel with
  | zero => rfl
  | succ fuel => rw [bodyFollows, bodyFollows, Text.trimStart_append_of_blank blank]

theorem startsWith_brace_written (spaced : Spaced m) :
    Text.startsWith ['{'] (written m) = Text.startsWith ['{'] (bare m) := by
  cases m with
  | nil => rfl
  | cons x m =>
    obtain ⟨k, c⟩ := x
    have brace (t : Text) : Text.startsWith ['{'] (c :: t) = decide ('{' = c) := by
      rw [Bool.eq_iff_iff, Text.startsWith_iff, List.cons_prefix_cons, decide_eq_true_iff]
      exact and_iff_left (List.nil_prefix)
    cases k with
    | false => rw [written_cons_false, bare_cons, brace, brace]
    | true =>
      have other : '{' ≠ c := by
        rintro rfl
        exact absurd (spaced.startsType List.mem_cons_self) (by decide)
      rw [bare_cons, brace, decide_eq_false other]
      rfl

/-- A tail word is read off both texts or off neither. -/
theorem anyOf?_cases {words : List Text} (names : ∀ w ∈ words, w ≠ [] ∧ ∀ c ∈ w, ¬ Breaks c)
    (spaced : Spaced m) (plain : Plain m) :
    (∃ w b, w ≠ [] ∧ m = unmarked w ++ b ∧ anyOf? words (bare m) = some (w, bare b) ∧
        anyOf? words (written m) = some (w, written b)) ∨
      anyOf? words (bare m) = none ∧ anyOf? words (written m) = none := by
  induction words with
  | nil => exact Or.inr ⟨rfl, rfl⟩
  | cons w words ih =>
    rw [List.forall_mem_cons] at names
    obtain ⟨⟨nonempty, goesOn⟩, others⟩ := names
    rw [anyOf?, anyOf?, List.findSome?_cons, List.findSome?_cons]
    rcases afterPrefix?_cases goesOn nonempty spaced plain with
      ⟨b, rfl, -, read, read'⟩ | ⟨none, none'⟩
    · refine Or.inl ⟨w, b, nonempty, rfl, ?_, ?_⟩
      · rw [read]
        rfl
      · rw [read']
        rfl
    · rw [none, none']
      exact ih others

theorem exists_takeWhile (p : Char → Bool) (m : Marked) : ∃ a b, m = a ++ b ∧
    (∀ c ∈ bare a, p c = true) ∧ ∀ c ∈ (bare b).head?, p c = false := by
  refine ⟨m.takeWhile fun x => p x.2, m.dropWhile fun x => p x.2,
    List.takeWhile_append_dropWhile.symm, fun c mem => ?_, fun c found => ?_⟩
  · obtain ⟨x, inRun, rfl⟩ := List.mem_map.1 mem
    exact List.mem_takeWhile_imp (p := fun x : Bool × Char => p x.2) inRun
  · rw [head?_bare] at found
    obtain ⟨x, first, rfl⟩ := Option.map_eq_some_iff.1 found
    have stop := List.head?_dropWhile_not (fun x : Bool × Char => p x.2) m
    rw [first] at stop
    simpa using stop

/-- More than one character follows in front of a body in both texts or in neither. -/
theorem startsLong_written (plain : Plain m) :
    ((written m).head?.any isBlank && 2 ≤ (written m).length) =
      ((bare m).head?.any isBlank && 2 ≤ (bare m).length) := by
  match m with
  | [] => rfl
  | [(k, c)] =>
    obtain rfl : k = false := plain (k, c) rfl
    rfl
  | (k, c) :: y :: m =>
    obtain rfl : k = false := plain (k, c) rfl
    have long : 2 ≤ (written ((false, c) :: y :: m)).length :=
      Nat.le_trans (Nat.le_add_left 2 m.length)
        (length_le_length_written (m := (false, c) :: y :: m))
    have long' : 2 ≤ (bare ((false, c) :: y :: m)).length := by
      rw [length_bare]
      exact Nat.le_add_left 2 _
    rw [decide_eq_true long, decide_eq_true long']
    rfl

/-- Thrown types are read up to a body in both texts or in neither. -/
theorem throws_written (spaced : Spaced m) (plain : Plain m) :
    (((written m).takeWhile isThrowsChar).head?.any isBlank &&
        2 ≤ ((written m).takeWhile isThrowsChar).length &&
          Text.startsWith ['{'] ((written m).dropWhile isThrowsChar)) =
      (((bare m).takeWhile isThrowsChar).head?.any isBlank &&
        2 ≤ ((bare m).takeWhile isThrowsChar).length &&
          Text.startsWith ['{'] ((bare m).dropWhile isThrowsChar)) := by
  obtain ⟨a, b, rfl, inside, stops⟩ := exists_takeWhile isThrowsChar m
  have static : ∀ c ∈ "static ".toList, isThrowsChar c = true := by decide +kernel
  have inside' : ∀ c ∈ written a, isThrowsChar c = true := fun c mem =>
    (mem_written mem).elim (inside c) (static c)
  obtain ⟨front, rest⟩ := Text.takeWhile_dropWhile_append inside stops
  rw [bare_append, front, rest, written_append]
  by_cases plain' : Plain b
  · obtain ⟨front', rest'⟩ := Text.takeWhile_dropWhile_append (t := written b) inside' (by
      rwa [head?_written plain', ← head?_bare])
    rw [front', rest', startsWith_brace_written spaced.right, startsLong_written plain.left]
  · -- the character behind the word stops both, and it is no brace
    obtain ⟨c, b, rfl⟩ := exists_of_not_plain plain'
    have stop : isThrowsChar c = false := stops c rfl
    have all : ∀ d ∈ written a ++ "static ".toList, isThrowsChar d = true :=
      List.forall_mem_append.2 ⟨inside', static⟩
    have rest' := (Text.takeWhile_dropWhile_append (t := c :: written b) all (by
      rintro d ⟨⟩
      exact stop)).2
    have same : written a ++ written ((true, c) :: b) =
        written a ++ "static ".toList ++ c :: written b := by
      rw [written_cons, List.append_assoc]
      rfl
    have noBrace (t : Text) : Text.startsWith ['{'] (c :: t) = false := by
      refine Text.startsWith_eq_false fun front => ?_
      obtain ⟨rfl, -⟩ := List.cons_prefix_cons.1 front
      exact absurd (spaced.right.startsType List.mem_cons_self) (by decide)
    rw [same, rest', bare_cons, noBrace, noBrace, Bool.and_false, Bool.and_false]

/-- A body follows in both texts or in neither. -/
theorem bodyFollows_written (spaced : Spaced m)
    (noBody : ∀ a c b, m = a ++ (true, c) :: b → ∀ fuel, bodyFollows fuel (c :: bare b) = false)
    (enough : m.length < fuel) (enough' : (written m).length < fuel') :
    bodyFollows fuel' (written m) = bodyFollows fuel (bare m) := by
  induction fuel generalizing m fuel' with
  | zero => cases enough
  | succ fuel ih =>
    cases fuel' with
    | zero => cases enough'
    | succ fuel' =>
      obtain ⟨gap, m, rfl, blank, stops⟩ := exists_gap m
      rw [bare_append, bare_unmarked, written_append, written_unmarked,
        bodyFollows_append_of_blank blank, bodyFollows_append_of_blank blank]
      match m with
      | [] => rfl
      | (true, c) :: m =>
        rw [bare_cons, noBody (unmarked gap) c m rfl]
        rfl
      | (false, c) :: m =>
        have visible : isBlank c = false := (stops _ rfl).resolve_left Bool.false_ne_true
        have plain : Plain ((false, c) :: m) := plain_cons.2 rfl
        have spaced' := spaced.right
        have brace := startsWith_brace_written spaced'
        have start : Text.trimStart (written ((false, c) :: m)) = written ((false, c) :: m) :=
          Text.trimStart_cons_of_not_isBlank visible
        have start' : Text.trimStart (bare ((false, c) :: m)) = bare ((false, c) :: m) :=
          Text.trimStart_cons_of_not_isBlank visible
        have short : ((false, c) :: m).length ≤ fuel := by
          rw [List.length_append] at enough
          omega
        have short' : (written ((false, c) :: m)).length ≤ fuel' := by
          rw [written_append, List.length_append] at enough'
          omega
        rw [bodyFollows, bodyFollows]
        dsimp only
        rw [start, start', brace]
        split
        · rfl
        · have names : ∀ w ∈ tailWords, w ≠ [] ∧ ∀ c ∈ w, ¬ Breaks c := by decide +kernel
          rcases anyOf?_cases names spaced' plain with
            ⟨w, b, nonempty, whole, read, read'⟩ | ⟨none, none'⟩
          · rw [read, read']
            dsimp only
            rw [whole] at short short' spaced' noBody
            rw [List.length_append, unmarked, List.length_map] at short
            rw [written_append, written_unmarked, List.length_append] at short'
            have positive := List.length_pos_iff.2 nonempty
            refine ih spaced'.right (fun a d b' same => ?_) (by omega) (by omega)
            exact noBody (unmarked gap ++ (unmarked w ++ a)) d b' (by rw [same]; simp)
          · rw [none, none']
            dsimp only
            rcases afterPrefix?_cases (w := "throws") (by decide) (by decide) spaced' plain with
              ⟨b, whole, plain', read, read'⟩ | ⟨none, none'⟩
            · rw [read, read']
              rw [whole] at spaced'
              exact throws_written spaced'.right plain'
            · rw [none, none']

end Bodies

/-! ## Hits -/

section Hits

variable {α : Type} {scan : Scanner α}

/-- Whether a scanner takes the same part off both texts of a marked one and finds what is
related. -/
def ReadsBoth (R : Marked → α → α → Prop) (m : Marked) (p p' : α × Text) : Prop :=
  ∃ x y, m = x ++ y ∧ x ≠ [] ∧ p.2 = bare y ∧ p'.2 = written y ∧ R y p.1 p'.1

theorem ReadsBoth.remark {R : Marked → α → α → Prop} {k : Bool} {c : Char} {p p' : α × Text}
    (both : ReadsBoth R ((false, c) :: m) p p') : ReadsBoth R ((k, c) :: m) p p' := by
  obtain ⟨x, y, split, nonempty, related⟩ := both
  obtain ⟨first, x, rfl⟩ := List.exists_cons_of_ne_nil nonempty
  obtain ⟨-, rest⟩ := List.cons.inj split
  exact ⟨(k, c) :: x, y, congrArg ((k, c) :: ·) rest, List.cons_ne_nil _ _, related⟩

/-- Whether a scanner reads the same at a place of both texts of a marked one, and nothing in the
word. -/
structure ReadsAt (scan : Scanner α) (R : Marked → α → α → Prop) (a : Marked) (k : Bool) (c : Char)
    (b : Marked) : Prop where
  word : k = true → ∀ u v, "static ".toList = u ++ v → v ≠ [] →
    scan (written a ++ u).getLast? (v ++ c :: written b) = none
  both : Option.Rel (ReadsBoth R ((k, c) :: b)) (scan (bare a).getLast? (c :: bare b))
    (scan (written a ++ Marked.word k).getLast? (c :: written b))

/-- Whether two hits of a scanner are at one place of a marked text and found what is related. -/
def HitsAt (scan : Scanner α) (R : Marked → α → α → Prop) (m : Marked) (h h' : Hit α) : Prop :=
  ∃ a k c b x y, m = a ++ (k, c) :: b ∧ (k, c) :: b = x ++ y ∧ h.before = bare a ∧
    h'.before = written a ++ word k ∧
    scan (bare a).getLast? (c :: bare b) = some (h.found, bare y) ∧ R y h.found h'.found

namespace ReadsAt

variable {R : Marked → α → α → Prop} {a b : Marked} {k : Bool} {c : Char}

/-- The word at a place is passed over. -/
theorem occurrencesFrom_written (reads : ReadsAt scan R a k c b) :
    occurrencesFrom scan (written a).reverse (written ((k, c) :: b)) =
      occurrencesFrom scan (written a ++ Marked.word k).reverse (c :: written b) := by
  rw [written_cons, occurrencesFrom_append_of_none, List.reverse_append]
  intro u v split more
  cases k with
  | false => exact absurd (List.append_eq_nil_iff.1 split.symm).2 more
  | true =>
    rw [← List.reverse_append, List.head?_reverse]
    exact reads.word rfl u v split more

theorem none_or_some (reads : ReadsAt scan R a k c b) :
    (scan (bare a).getLast? (c :: bare b) = none ∧
        scan (written a ++ Marked.word k).getLast? (c :: written b) = none) ∨
      ∃ found found' x y, b = x ++ y ∧ R y found found' ∧
        scan (bare a).getLast? (c :: bare b) = some (found, bare y) ∧
        scan (written a ++ Marked.word k).getLast? (c :: written b) = some (found', written y) := by
  have both := reads.both
  generalize scan (bare a).getLast? (c :: bare b) = o at both ⊢
  generalize scan (written a ++ Marked.word k).getLast? (c :: written b) = o' at both ⊢
  cases both with
  | none => exact Or.inl ⟨rfl, rfl⟩
  | @some p p' both =>
    obtain ⟨x, y, split, nonempty, behind, behind', related⟩ := both
    obtain ⟨first, x, rfl⟩ := List.exists_cons_of_ne_nil nonempty
    obtain ⟨-, rest⟩ := List.cons.inj split
    refine Or.inr ⟨p.1, p'.1, x, y, rest, related, ?_, ?_⟩
    · rw [← behind]
    · rw [← behind']

end ReadsAt

/-- Scanners that read the same at each place hit at the same places. -/
theorem forall₂_occurrences {R : Marked → α → α → Prop}
    (reads : ∀ a k c b, m = a ++ (k, c) :: b → ReadsAt scan R a k c b) :
    List.Forall₂ (HitsAt scan R m) (occurrences scan (bare m)) (occurrences scan (written m)) := by
  have from' (n : Nat) (a b : Marked) (whole : m = a ++ b) (size : b.length ≤ n) :
      List.Forall₂ (HitsAt scan R m) (occurrencesFrom scan (bare a).reverse (bare b))
        (occurrencesFrom scan (written a).reverse (written b)) := by
    induction n generalizing a b with
    | zero =>
      rw [List.eq_nil_of_length_eq_zero (Nat.le_zero.1 size)]
      rw [bare_nil, written_nil, occurrencesFrom, occurrencesFrom]
      exact .nil
    | succ n ih =>
      cases b with
      | nil =>
        rw [bare_nil, written_nil, occurrencesFrom, occurrencesFrom]
        exact .nil
      | cons x b =>
        obtain ⟨k, c⟩ := x
        have here := reads a k c b whole
        rw [here.occurrencesFrom_written, bare_cons]
        rcases here.none_or_some with
          ⟨read, read'⟩ | ⟨found, found', x, y, rfl, related, read, read'⟩
        · rw [occurrencesFrom_cons_of_none (by rwa [List.head?_reverse]),
            occurrencesFrom_cons_of_none (by rwa [List.head?_reverse])]
          have next := ih (a ++ [(k, c)]) b (by rw [whole, List.append_assoc]; rfl)
            (Nat.le_of_succ_le_succ size)
          simpa [written_cons] using next
        · have next := ih (a ++ (k, c) :: x) y (by rw [whole, List.append_assoc]; rfl) (by
            rw [List.length_cons, List.length_append] at size
            omega)
          have cut : c :: bare (x ++ y) = (c :: bare x) ++ bare y := by simp
          have cut' : c :: written (x ++ y) = (c :: written x) ++ written y := by simp
          rw [cut] at read ⊢
          rw [cut'] at read' ⊢
          rw [occurrencesFrom_append_of_some (List.cons_ne_nil _ _) (by rwa [List.head?_reverse]),
            occurrencesFrom_append_of_some (List.cons_ne_nil _ _) (by rwa [List.head?_reverse])]
          refine .cons ?_ (by simpa [written_cons] using next)
          exact ⟨a, k, c, x ++ y, (k, c) :: x, y, whole, rfl, List.reverse_reverse _,
            List.reverse_reverse _, by rw [cut]; exact read, related⟩
  exact from' m.length [] m rfl (Nat.le_refl _)

end Hits

/-! ### Names in front of a parenthesis -/

section Callable

/-- A name is read off both texts or off neither. -/
theorem name?_cases (spaced : Spaced m) (plain : Plain m) :
    (∃ name b, name ≠ [] ∧ m = unmarked name ++ b ∧
        name? isNameStart isWordChar (bare m) = some (name, bare b) ∧
        name? isNameStart isWordChar (written m) = some (name, written b)) ∨
      name? isNameStart isWordChar (bare m) = none ∧
        name? isNameStart isWordChar (written m) = none := by
  match m with
  | [] => exact Or.inr ⟨rfl, rfl⟩
  | (k, c) :: m =>
    obtain rfl := plain_cons.1 plain
    cases starts : isNameStart c with
    | false =>
      have other : ¬ isNameStart c = true := by simp [starts]
      exact Or.inr ⟨if_neg other, if_neg other⟩
    | true =>
      have goesOn := not_breaks_of_isWordChar (Text.isWordChar_of_isNameStart starts)
      obtain ⟨run, b, rfl, all, plain', stops⟩ :=
        exists_run (fun _ => not_breaks_of_isWordChar) spaced.tail (spaced.plain goesOn)
      have stops' (t : Text) (head : t.head? = b.head?.map Prod.snd) :
          ∀ c ∈ t.head?, isWordChar c = false := by
        rw [head]
        intro c found
        obtain ⟨x, first, rfl⟩ := Option.map_eq_some_iff.1 found
        exact stops x first
      refine Or.inl ⟨c :: run, b, List.cons_ne_nil _ _, rfl, ?_, ?_⟩
      · obtain ⟨front, rest⟩ := Text.takeWhile_dropWhile_append all (stops' _ (head?_bare b))
        rw [bare_cons, bare_append, bare_unmarked, name?, if_pos starts, front, rest]
      · obtain ⟨front, rest⟩ :=
          Text.takeWhile_dropWhile_append all (stops' _ (head?_written plain'))
        rw [written_cons_false, written_append, written_unmarked, name?, if_pos starts, front, rest]

theorem afterPrefix?_singleton_eq_none {c : Char} {t : Text} (other : t.head? ≠ some c) :
    Text.afterPrefix? [c] t = none := by
  refine Text.afterPrefix?_eq_none fun front => other ?_
  obtain ⟨rest, rfl⟩ := front
  rfl

/-- Behind blanks a parenthesis is read off both texts or off neither. -/
theorem parenthesis_cases (spaced : Spaced m) :
    (∃ gap b, m = unmarked gap ++ (false, '(') :: b ∧
        Text.afterPrefix? ['('] (Text.trimStart (bare m)) = some (bare b) ∧
        Text.afterPrefix? ['('] (Text.trimStart (written m)) = some (written b)) ∨
      Text.afterPrefix? ['('] (Text.trimStart (bare m)) = none ∧
        Text.afterPrefix? ['('] (Text.trimStart (written m)) = none := by
  obtain ⟨gap, m, rfl, blank, stops⟩ := exists_gap m
  rw [bare_append, bare_unmarked, Text.trimStart_append_of_blank blank, written_append,
    written_unmarked, Text.trimStart_append_of_blank blank]
  match m with
  | [] => exact Or.inr ⟨rfl, rfl⟩
  | (true, c) :: m =>
    have ahead := (spaced.right.starts [] c m rfl).2
    refine Or.inr ⟨afterPrefix?_singleton_eq_none fun same => ?_, rfl⟩
    exact absurd (ahead '(' same) (by decide)
  | (false, c) :: m =>
    have visible : isBlank c = false := (stops _ rfl).resolve_left Bool.false_ne_true
    rw [bare_cons, written_cons_false, Text.trimStart_cons_of_not_isBlank visible,
      Text.trimStart_cons_of_not_isBlank visible]
    by_cases opens : c = '('
    · subst opens
      exact Or.inl ⟨gap, m, rfl, rfl, rfl⟩
    · have other (t : Text) : (c :: t).head? ≠ some '(' := fun same => opens (Option.some.inj same)
      exact Or.inr
        ⟨afterPrefix?_singleton_eq_none (other _), afterPrefix?_singleton_eq_none (other _)⟩

/-- Whether the same name is found in front of the rest of either text. -/
def NamedBoth (y : Marked) (found found' : Text × Text) : Prop :=
  found.1 = found'.1 ∧ found.2 = bare y ∧ found'.2 = written y

theorem rel_callable? {previous previous' : Option Char} (spaced : Spaced m) (plain : Plain m)
    (begins : wordMayBegin previous = wordMayBegin previous') :
    Option.Rel (ReadsBoth NamedBoth m) (callable? previous (bare m))
      (callable? previous' (written m)) := by
  rw [callable?, callable?, begins]
  cases wordMayBegin previous' with
  | false => exact .none
  | true =>
    simp only [guard_true, Option.bind_eq_bind, Option.pure_def, Option.bind_some]
    rcases name?_cases spaced plain with ⟨name, b, nonempty, rfl, read, read'⟩ | ⟨none, none'⟩
    · rw [read, read', Option.bind_some, Option.bind_some]
      dsimp only
      rcases parenthesis_cases spaced.right with ⟨gap, y, rfl, opens, opens'⟩ | ⟨none, none'⟩
      · rw [opens, opens']
        refine .some ⟨unmarked name ++ (unmarked gap ++ [(false, '(')]), y, by simp, by simp,
          rfl, rfl, rfl, rfl, rfl⟩
      · rw [none, none']
        exact .none
    · rw [none, none']
      exact .none

/-- No word begins within the one that is written in. -/
theorem wordMayBegin_static {u v : Text} (split : "static ".toList = u ++ v) (more : v ≠ [])
    (nonempty : u ≠ []) (t : Text) : wordMayBegin (t ++ u).getLast? = false := by
  have front : u = "static ".toList.take u.length := by rw [split, List.take_left]
  have size := congrArg List.length split
  rw [List.length_append] at size
  have positive := List.length_pos_iff.2 nonempty
  have positive' := List.length_pos_iff.2 more
  have within : u.length ∈ List.range' 1 6 := by
    have : "static ".toList.length = 7 := by decide
    rw [List.mem_range'_1]
    omega
  have last : (t ++ u).getLast? = u.getLast? := by
    obtain ⟨c, u, rfl⟩ := List.exists_cons_of_ne_nil nonempty
    exact List.getLast?_append_cons t c u
  rw [last, front]
  exact (by decide +kernel : ∀ n ∈ List.range' 1 6,
    wordMayBegin ("static ".toList.take n).getLast? = false) _ within

/-- A scanner of words that does not read the one written in reads nothing that begins in it. -/
theorem eq_none_of_static {α : Type} {scan : Scanner α} {rest u v : Text}
    (words : ∀ previous t, wordMayBegin previous = false → scan previous t = none)
    (whole : ∀ previous, scan previous ("static ".toList ++ rest) = none)
    (split : "static ".toList = u ++ v) (more : v ≠ []) (t : Text) :
    scan (t ++ u).getLast? (v ++ rest) = none := by
  by_cases empty : u = []
  · obtain rfl : "static ".toList = v := by rw [split, empty, List.nil_append]
    exact whole _
  · exact words _ _ (wordMayBegin_static split more empty t)

theorem callable?_eq_none_of_name {t name rest : Text}
    (read : name? isNameStart isWordChar t = some (name, rest))
    (noParen : Text.afterPrefix? ['('] (Text.trimStart rest) = none) (previous : Option Char) :
    callable? previous t = none := by
  rw [callable?]
  simp only [read, noParen, Option.bind_eq_bind, Option.bind_some, Option.bind_none]
  cases wordMayBegin previous <;> rfl

/-- No parenthesis follows the word, since a type or a name does. -/
theorem callable?_static {b : Marked} {c : Char} (spaced : Spaced ((true, c) :: b))
    (previous : Option Char) : callable? previous ("static ".toList ++ c :: written b) = none := by
  have ahead := (spaced.starts [] c b rfl).2
  have static : IsName isNameStart isWordChar "static" :=
    ⟨'s', "tatic", by decide, by decide, by decide +kernel⟩
  have name : name? isNameStart isWordChar ("static ".toList ++ c :: written b) =
      some ("static".toList, ' ' :: c :: written b) :=
    static.name?_append_cons (by decide) (c :: written b)
  have noParen : Text.afterPrefix? ['('] (Text.trimStart (' ' :: c :: written b)) = none := by
    rcases parenthesis_cases spaced.unmark with ⟨gap, y, -, opens, -⟩ | ⟨-, none⟩
    · have start := Text.afterPrefix?_eq_some_iff.1 opens
      rw [bare_cons] at start
      rw [start] at ahead
      exact absurd (ahead '(' rfl) (by decide)
    · exact none
  exact callable?_eq_none_of_name name noParen previous

theorem readsAt_callable? (spaced : Spaced m)
    (noName : ∀ a c b, m = a ++ (true, c) :: b →
      ∀ previous, callable? previous (c :: bare b) = none)
    {a b : Marked} {k : Bool} {c : Char} (whole : m = a ++ (k, c) :: b) :
    ReadsAt callable? NamedBoth a k c b := by
  have spaced' : Spaced ((false, c) :: b) := (whole ▸ spaced).right.unmark
  have plain : Plain ((false, c) :: b) := plain_cons.2 rfl
  constructor
  · rintro rfl u v split more
    refine eq_none_of_static (fun previous t none => ?_)
      (callable?_static (whole ▸ spaced).right) split more _
    rw [callable?, none]
    rfl
  · cases k with
    | false =>
      refine rel_callable? spaced' plain ?_
      rw [word, if_neg Bool.false_ne_true, List.append_nil, getLast?_written]
    | true =>
      have both := rel_callable? spaced' plain
        (rfl : wordMayBegin (written a ++ word true).getLast? = _)
      rw [bare_cons, noName a c b whole, written_cons_false] at both
      rw [noName a c b whole]
      generalize callable? (written a ++ word true).getLast? (c :: written b) = o at both ⊢
      cases both
      exact .none

end Callable

/-! ### Keywords of classes -/

section Classes

/-- Blanks up to another character are read off both texts or off neither. -/
theorem blanks?_cases (plain : Plain m)
    (apart : ∀ gap c y, m = unmarked gap ++ (true, c) :: y → ¬ Text.Blank gap) :
    (∃ gap y, m = unmarked gap ++ y ∧ Plain y ∧ blanks? (bare m) = some (bare y) ∧
        blanks? (written m) = some (written y)) ∨
      blanks? (bare m) = none ∧ blanks? (written m) = none := by
  match m with
  | [] => exact Or.inr ⟨rfl, rfl⟩
  | (k, d) :: m =>
    obtain rfl := plain_cons.1 plain
    cases space : isBlank d with
    | false =>
      have other : ¬ isBlank d = true := by simp [space]
      exact Or.inr ⟨if_neg other, if_neg other⟩
    | true =>
      obtain ⟨gap, y, rfl, blank, stops⟩ := exists_gap m
      have plain' : Plain y := by
        by_contra marked
        obtain ⟨e, y, rfl⟩ := exists_of_not_plain marked
        exact apart (d :: gap) e y rfl (Text.blank_cons.2 ⟨space, blank⟩)
      have stop (t : Text) (head : t.head? = y.head?.map Prod.snd) : Text.trimStart t = t := by
        refine Text.dropWhile_eq_self ?_
        rw [head]
        intro c found
        obtain ⟨x, first, rfl⟩ := Option.map_eq_some_iff.1 found
        exact (stops x first).resolve_left (by rw [plain' x first]; exact Bool.false_ne_true)
      refine Or.inl ⟨d :: gap, y, rfl, plain', ?_, ?_⟩
      · rw [bare_cons, blanks?, if_pos space, bare_append, bare_unmarked,
          Text.trimStart_append_of_blank blank, stop _ (head?_bare y)]
      · rw [written_cons_false, blanks?, if_pos space, written_append, written_unmarked,
          Text.trimStart_append_of_blank blank, stop _ (head?_written plain')]

theorem rel_class? {previous previous' : Option Char} (spaced : Spaced m) (plain : Plain m)
    (begins : wordMayBegin previous = wordMayBegin previous')
    (apart : wordMayBegin previous = true → ∀ gap c b,
      m = unmarked ("class" ++ gap) ++ (true, c) :: b → ¬ Text.Blank gap) :
    Option.Rel (ReadsBoth (fun _ _ _ => True) m) (class? previous (bare m))
      (class? previous' (written m)) := by
  rw [class?, class?, ← begins]
  cases mayBegin : wordMayBegin previous with
  | false => exact .none
  | true =>
    simp only [guard_true, Option.bind_eq_bind, Option.pure_def, Option.bind_some]
    rcases afterPrefix?_cases (w := "class") (by decide) (by decide) spaced plain with
      ⟨b, rfl, plain', read, read'⟩ | ⟨none, none'⟩
    case inr =>
      rw [none, none']
      exact .none
    rw [read, read', Option.bind_some, Option.bind_some]
    rcases blanks?_cases plain' fun gap c y whole => apart mayBegin gap c y (by
        rw [whole, ← List.append_assoc, unmarked, unmarked, unmarked, List.map_append]) with
      ⟨gap, y, rfl, plain'', spaces, spaces'⟩ | ⟨none, none'⟩
    case inr =>
      rw [none, none']
      exact .none
    rw [spaces, spaces', Option.bind_some, Option.bind_some]
    rcases name?_cases spaced.right.right plain'' with
      ⟨name, y, nonempty, rfl, named, named'⟩ | ⟨none, none'⟩
    · rw [named, named']
      refine .some ⟨unmarked "class" ++ (unmarked gap ++ unmarked name), y, by simp, ?_, rfl, rfl,
        trivial⟩
      exact List.append_ne_nil_of_left_ne_nil (by decide) _
    · rw [none, none']
      exact .none

/-- Behind a mark a word may begin. -/
theorem Spaced.wordMayBegin {a b : Marked} {c : Char} (spaced : Spaced (a ++ (true, c) :: b)) :
    Source.wordMayBegin (bare a).getLast? = true := by
  rcases List.eq_nil_or_concat a with rfl | ⟨a, ⟨k, d⟩, rfl⟩
  · rfl
  · rw [List.concat_eq_append] at spaced ⊢
    have breaks := spaced.apart a k d c b (by simp)
    rw [bare_append, bare_cons, bare_nil, List.getLast?_concat, Source.wordMayBegin,
      Option.any_some, breaks.noWord]
    rfl

/-- A word may begin behind one text of a marked one if it may behind the other. -/
theorem Spaced.wordMayBegin_eq {a b : Marked} {k : Bool} {c : Char}
    (spaced : Spaced (a ++ (k, c) :: b)) : Source.wordMayBegin (bare a).getLast? =
      Source.wordMayBegin (written a ++ word k).getLast? := by
  cases k with
  | false => rw [word, if_neg Bool.false_ne_true, List.append_nil, getLast?_written]
  | true =>
    have last : (written a ++ word true).getLast? = some ' ' := by
      have split : word true = "static".toList ++ [' '] := by decide
      rw [split, ← List.append_assoc, List.getLast?_concat]
    rw [spaced.wordMayBegin, last]
    rfl

theorem trimEnd_keyword {gap : Text} (blank : Text.Blank gap) (t : Text) :
    (t ++ "class" ++ gap).trimEnd = t ++ "class" := by
  refine Text.dropEndWhile_append blank fun c last => ?_
  have split : "class".toList = "clas".toList ++ ['s'] := by decide
  rw [split, ← List.append_assoc, List.getLast?_concat] at last
  cases last
  decide

theorem readsAt_class? (spaced : Spaced m)
    (noKeyword : ∀ a c b, m = a ++ (true, c) :: b → ∀ start,
      (bare a).trimEnd = start ++ "class" → wordMayBegin start.getLast? = false)
    {a b : Marked} {k : Bool} {c : Char} (whole : m = a ++ (k, c) :: b) :
    ReadsAt class? (fun _ _ _ => True) a k c b := by
  have spaced' : Spaced ((false, c) :: b) := (whole ▸ spaced).right.unmark
  have plain : Plain ((false, c) :: b) := plain_cons.2 rfl
  constructor
  · rintro rfl u v split more
    refine eq_none_of_static (fun previous t none => ?_) (fun previous => ?_) split more _
    · rw [class?, none]
      rfl
    · rw [class?]
      cases wordMayBegin previous <;> rfl
  · have begins := (whole ▸ spaced : Spaced (a ++ (k, c) :: b)).wordMayBegin_eq
    have both := rel_class? spaced' plain begins fun mayBegin gap d y split blank => by
      have keyword :
          (false, c) :: b = (false, 'c') :: (unmarked ("lass" ++ gap) ++ (true, d) :: y) := split
      obtain ⟨rfl, rfl⟩ : c = 'c' ∧ b = unmarked ("lass" ++ gap) ++ (true, d) :: y := by
        simpa using keyword
      have front : m = (a ++ (k, 'c') :: unmarked ("lass" ++ gap)) ++ (true, d) :: y := by
        rw [whole, List.append_assoc]
        rfl
      have split : bare (a ++ (k, 'c') :: unmarked ("lass" ++ gap)) = bare a ++ "class" ++ gap := by
        rw [bare_append, bare_cons, bare_unmarked, List.append_assoc]
        rfl
      have last := noKeyword _ d y front (bare a) (by rw [split, trimEnd_keyword blank])
      rw [mayBegin] at last
      cases last
    rw [bare_cons, written_cons_false] at both
    generalize class? (bare a).getLast? (c :: bare b) = o,
      class? (written a ++ word k).getLast? (c :: written b) = o' at both ⊢
    cases both with
    | none => exact .none
    | some both => exact .some both.remark

end Classes

end Marked

end HarnessSynthesis.TypedSource
