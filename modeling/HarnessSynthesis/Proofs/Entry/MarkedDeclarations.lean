/-
# Declarations of marked texts

A text is marked where `static` is written into it. Where the word is apart from what stands in
front, no name is read across it, so the words, the bodies and the keywords in both texts are the
same. In front of a name both texts have the same lead up to the type. If the type is marked, its
lead in the written text has one modifier more, and if it is not, there is no other mark of a
method in front of the name: a declaration has one place of its type.
-/

import HarnessSynthesis.Proofs.Entry.LackingStatic
import HarnessSynthesis.Proofs.Entry.MarkedScans
import HarnessSynthesis.Proofs.Entry.MarkedTypes

namespace HarnessSynthesis.TypedSource

open Source
open scoped Text.OfCharacters
open Text (isBlank isAsciiBlank isNameChar isNameStart isWordChar)

/-! ## Places of the word -/

section Places

variable {front rest t : Text}

/-- At the place of a method its type begins. -/
theorem exists_typeAt_of_mem (whole : t = front ++ rest)
    (mem : Text.octets front ∈ methodOffsets t) :
    ∃ type named, rest = type ++ named ∧ TypeAt front type named := by
  obtain ⟨candidate, found, placed⟩ := List.mem_filterMap.1 mem
  obtain ⟨hit, occurs, declared⟩ := List.mem_filterMap.1 found
  obtain ⟨-, place⟩ := Option.ite_none_right_eq_some.1 placed
  obtain ⟨front', type, named, whole', -, size, -, typeAt⟩ := typeAt_of_declared? occurs declared
  obtain ⟨rfl, rfl⟩ := append_inj_of_octets (whole'.symm.trans whole)
    (size.trans (Option.some.inj place))
  exact ⟨type, named, rfl, typeAt⟩

/-- At the place of a class its keyword stands. -/
theorem startsClass_of_mem (whole : t = front ++ rest)
    (mem : Text.octets front ∈ classOffsets t) : StartsClass rest := by
  obtain ⟨hit, occurs, placed⟩ := List.mem_filterMap.1 mem
  obtain ⟨rest', behind, whole', read⟩ := exists_of_mem_occurrences takes_class? occurs
  obtain ⟨-, size⟩ := Option.ite_none_right_eq_some.1 placed
  obtain ⟨rfl, rfl⟩ := append_inj_of_octets (whole'.symm.trans whole) (Option.some.inj size)
  exact startsClass_of_class? read

namespace StartsClass

/-- The keyword is no name in front of a parenthesis. -/
theorem callable?_eq_none (starts : StartsClass t) (previous : Option Char) :
    callable? previous t = none := by
  obtain ⟨gap, name, behind, rfl, blank, nonempty, c, more, rfl, first, -⟩ := starts
  obtain ⟨d, gap, rfl⟩ := List.exists_cons_of_ne_nil nonempty
  have keyword : IsName isNameStart isWordChar "class" :=
    ⟨'c', "lass", by decide, by decide, by decide +kernel⟩
  have stops := Text.isWordChar_of_isBlank (blank d List.mem_cons_self)
  have read := keyword.name?_append_cons stops (gap ++ (c :: more ++ behind))
  have noParenthesis :
      Text.afterPrefix? ['('] (Text.trimStart (d :: (gap ++ (c :: more ++ behind)))) = none := by
    rw [← List.cons_append, Text.trimStart_append_of_blank blank, List.cons_append,
      Text.trimStart_cons_of_not_isBlank (Text.isBlank_of_isNameStart first)]
    refine Text.afterPrefix?_eq_none fun ⟨rest, same⟩ => ?_
    obtain ⟨rfl, -⟩ := List.cons.inj same
    exact absurd first (by decide)
  rw [List.cons_append, callable?]
  simp only [read, noParenthesis, Option.bind_eq_bind, Option.bind_some, Option.bind_none]
  cases wordMayBegin previous <;> rfl

/-- The keyword is no tail of a body. -/
theorem bodyFollows_eq_false (starts : StartsClass t) (fuel : Nat) :
    bodyFollows fuel t = false := by
  obtain ⟨gap, name, behind, rfl, -⟩ := starts
  generalize gap ++ (name ++ behind) = rest
  have start : "class".toList ++ rest = 'c' :: ('l' :: ("ass".toList ++ rest)) := rfl
  cases fuel with
  | zero => rfl
  | succ fuel =>
    rw [bodyFollows, start]
    dsimp only
    rw [Text.trimStart_cons_of_not_isBlank (by decide)]
    rfl

/-- In front of a name the keyword of a class is one still. -/
theorem atKeyword {named : Text} (ends : Ends t named) (starts : StartsClass (t ++ named)) :
    Marked.AtKeyword t := by
  obtain ⟨gap, name, behind, keyword, blank, nonempty, -⟩ := starts
  obtain ⟨more, same, rest⟩ := ends.exists_of_append (by decide +kernel) keyword
  refine ⟨more, same, fun d head => ?_⟩
  obtain ⟨e, gap, rfl⟩ := List.exists_cons_of_ne_nil nonempty
  obtain ⟨more, rfl⟩ := List.head?_eq_some_iff.1 head
  obtain ⟨rfl, -⟩ := List.cons.inj rest
  exact blank _ List.mem_cons_self

end StartsClass

end Places

/-! ## Marked places -/

/-- Whether `static` is a word of its own behind a text. -/
structure Apart (front : Text) : Prop where
  last : ∀ c ∈ front.getLast?, Marked.Breaks c
  blanks : ∀ c ∈ front.takeEndWhile isBlank, isAsciiBlank c = true
  keyword : ∀ start ∈ Text.beforeSuffix? "class" front.trimEnd, wordMayBegin start.getLast? = false

instance (front : Text) : Decidable (Apart front) :=
  decidable_of_iff ((∀ c ∈ front.getLast?, Marked.Breaks c) ∧
      (∀ c ∈ front.takeEndWhile isBlank, isAsciiBlank c = true) ∧
        ∀ start ∈ Text.beforeSuffix? "class" front.trimEnd, wordMayBegin start.getLast? = false)
    ⟨fun h => ⟨h.1, h.2.1, h.2.2⟩, fun h => ⟨h.1, h.2, h.3⟩⟩

/-- The blanks behind which the word stands are blanks of ASCII. -/
theorem Apart.isAsciiBlank {front gap : Text} (apart : Apart (front ++ gap))
    (blank : Text.Blank gap) : ∀ c ∈ gap, Text.isAsciiBlank c = true := by
  intro c mem
  refine apart.blanks c ?_
  rw [Text.takeEndWhile, List.reverse_append, List.mem_reverse,
    List.takeWhile_append_of_pos blank.reverse]
  exact List.mem_append_left _ (List.mem_reverse.2 mem)

namespace Marked

/-- Whether the marks of a text are where `static` is written into it, each a word of its own. -/
structure Marking (m : Marked) : Prop where
  marked : ∀ a k c b, m = a ++ (k, c) :: b →
    (k = true ↔ Text.octets (bare a) ∈ methodOffsets (bare m) ++ classOffsets (bare m))
  apart : ∀ a c b, m = a ++ (true, c) :: b → Apart (bare a)

/-- A text with its places marked. -/
theorem marking_mark {t : Text}
    (apart : ∀ place ∈ methodOffsets t ++ classOffsets t, ∀ p ∈ Text.splitAtOctet? place t,
      Apart p.1) : Marking (mark (methodOffsets t ++ classOffsets t) 0 t) where
  marked a k c b whole := by
    rw [bare_mark]
    simpa using mark_eq_append_cons whole
  apart a c b whole := by
    have place := (mark_eq_append_cons whole).1 rfl
    have split := congrArg bare whole
    rw [bare_mark, bare_append] at split
    rw [Nat.zero_add] at place
    refine apart _ place (bare a, bare ((true, c) :: b)) ?_
    rw [split]
    exact Text.splitAtOctet?_append _ _

namespace Marking

variable {m a b : Marked} {c : Char}

/-- At a mark a type begins or the keyword of a class stands. -/
theorem typeAt_or_startsClass (marking : Marking m) (whole : m = a ++ (true, c) :: b) :
    (∃ type named, c :: bare b = type ++ named ∧ TypeAt (bare a) type named) ∨
      StartsClass (c :: bare b) := by
  have split : bare m = bare a ++ c :: bare b := by rw [whole, bare_append, bare_cons]
  exact (List.mem_append.1 ((marking.marked a true c b whole).1 rfl)).imp
    (exists_typeAt_of_mem split) (startsClass_of_mem split)

theorem spaced (marking : Marking m) : Spaced m where
  starts a c b whole := by
    rcases marking.typeAt_or_startsClass whole with ⟨type, named, same, place⟩ | starts
    · obtain ⟨d, head, starts⟩ := place.starts
      obtain ⟨type', rfl⟩ := List.head?_eq_some_iff.1 head
      obtain ⟨rfl, -⟩ := List.cons.inj same
      refine ⟨starts, fun e found => ?_⟩
      obtain ⟨f, rest, start, visible⟩ := place.exists_visible
      rw [same, place.trimStart_append, start] at found
      cases found
      exact visible
    · obtain ⟨gap, name, behind, keyword, -⟩ := starts
      obtain ⟨rfl, -⟩ : c = 'c' ∧ bare b = "lass" ++ (gap ++ (name ++ behind)) :=
        List.cons.inj keyword
      refine ⟨Or.inl (by decide), fun d found => ?_⟩
      rw [Text.trimStart_cons_of_not_isBlank (by decide)] at found
      cases found
      exact Or.inl (by decide)
  apart a k d c b whole := by
    refine (marking.apart (a ++ [(k, d)]) c b (by rw [whole, List.append_assoc]; rfl)).last d ?_
    rw [bare_append, bare_cons, bare_nil, List.getLast?_concat]
    rfl

theorem callable?_eq_none (marking : Marking m) (whole : m = a ++ (true, c) :: b)
    (previous : Option Char) : callable? previous (c :: bare b) = none := by
  rcases marking.typeAt_or_startsClass whole with ⟨type, named, same, place⟩ | starts
  · rw [same]
    exact place.callable?_eq_none previous
  · exact starts.callable?_eq_none previous

theorem bodyFollows_eq_false (marking : Marking m) (whole : m = a ++ (true, c) :: b) (fuel : Nat) :
    bodyFollows fuel (c :: bare b) = false := by
  rcases marking.typeAt_or_startsClass whole with ⟨type, named, same, place⟩ | starts
  · rw [same]
    exact place.bodyFollows_eq_false fuel
  · exact starts.bodyFollows_eq_false fuel

theorem wordMayBegin_eq_false (marking : Marking m) (whole : m = a ++ (true, c) :: b)
    (start : Text) (keyword : (bare a).trimEnd = start ++ "class") :
    wordMayBegin start.getLast? = false :=
  (marking.apart a c b whole).keyword start (Text.beforeSuffix?_eq_some_iff.2 keyword)

end Marking

/-! ## In front of a name -/

/-- Whether a declaration begins between two parts of a text and goes on up to a name. -/
structure InFront (m start segment named : Marked) : Prop where
  whole : m = start ++ (segment ++ named)
  cut : cutSegment (bare start ++ bare segment) = (bare start, bare segment)
  cut_written : cutSegment (written (start ++ segment)) = (written start, written segment)
  begins : wordMayBegin (bare start ++ bare segment).getLast? = true
  first : ∃ c ∈ (bare named).head?, isNameStart c = true

namespace InFront

variable {m start segment named x x' y y' : Marked} {c c' : Char}

theorem ends {k : Bool} (front : InFront m start segment named)
    (split : segment = x ++ (k, c) :: y) : Ends (c :: bare y) (bare named) where
  nonempty := List.cons_ne_nil _ _
  last := by
    have begins := front.begins
    rwa [split, bare_append, bare_cons, ← List.append_assoc, List.getLast?_append_cons] at begins
  first := front.first

theorem eq_append_cons {k : Bool} (front : InFront m start segment named)
    (split : segment = x ++ (k, c) :: y) : m = (start ++ x) ++ (k, c) :: (y ++ named) := by
  rw [front.whole, split]
  simp

theorem cutSegment_eq (marking : Marking m) (front : InFront m start segment named)
    (split : segment = x ++ (true, c) :: y) :
    cutSegment (bare (start ++ x)) = (bare start, bare x) := by
  have starts : StartsType c :=
    (marking.spaced.starts _ _ _ (front.eq_append_cons split)).1
  rw [bare_append]
  refine cutSegment_of_inside front.cut (by rw [split, bare_append, bare_cons]) ?_
  rintro rfl
  exact absurd starts (by decide)

/-- A marked keyword of a class is one up to the name, too. -/
theorem atKeyword (front : InFront m start segment named) (split : segment = x ++ (true, c) :: y)
    (starts : StartsClass (c :: bare (y ++ named))) : AtKeyword (c :: bare y) := by
  rw [bare_append, ← List.cons_append] at starts
  exact starts.atKeyword (front.ends split)

theorem exists_typeAt (front : InFront m start segment named)
    (split : segment = x ++ (true, c) :: y)
    (mem : Text.octets (bare (start ++ x)) ∈ methodOffsets (bare m)) : ∃ type named',
      c :: bare (y ++ named) = type ++ named' ∧ TypeAt (bare (start ++ x)) type named' := by
  have whole := congrArg bare (front.eq_append_cons split)
  rw [bare_append, bare_cons] at whole
  exact exists_typeAt_of_mem whole mem

/-- In front of a name there is one place of a type. -/
theorem eq_of_mem (marking : Marking m) (front : InFront m start segment named)
    (split : segment = x ++ (true, c) :: y) (split' : segment = x' ++ (true, c') :: y')
    (mem : Text.octets (bare (start ++ x)) ∈ methodOffsets (bare m))
    (mem' : Text.octets (bare (start ++ x')) ∈ methodOffsets (bare m)) : x = x' := by
  obtain ⟨type, named₁, same, place⟩ := front.exists_typeAt split mem
  obtain ⟨type', named₂, same', place'⟩ := front.exists_typeAt split' mem'
  have whole : bare (start ++ x) ++ (type ++ named₁) = bare (start ++ x') ++ (type' ++ named₂) := by
    have both :=
      congrArg bare ((front.eq_append_cons split).symm.trans (front.eq_append_cons split'))
    rwa [bare_append, bare_cons, same, bare_append (a := start ++ x'), bare_cons, same'] at both
  have equal := place.front_eq place' whole (by
    rw [front.cutSegment_eq marking split, front.cutSegment_eq marking split'])
  have size := congrArg List.length equal
  simp only [bare_append, List.length_append, length_bare, Nat.add_left_cancel_iff] at size
  exact (List.append_inj (split.symm.trans split') size).1

/-- A lead up to a marked type. -/
theorem exists_lead_of_mem (marking : Marking m) (front : InFront m start segment named)
    (split : segment = x ++ (true, c) :: y)
    (mem : Text.octets (bare (start ++ x)) ∈ methodOffsets (bare m)) :
    ∃ words, Lead modifierWords (bare segment) words (c :: bare y) ∧
      HeaderItem.read (c :: bare y) = .type := by
  obtain ⟨type, named', same, place⟩ := front.exists_typeAt split mem
  obtain ⟨words, lead⟩ := place.lead
  rw [front.cutSegment_eq marking split] at lead
  have spaced : Spaced ((true, c) :: (y ++ named)) :=
    (front.eq_append_cons split ▸ marking.spaced).right
  have head : (c :: bare y).head? = type.head? := by
    obtain ⟨d, first, -⟩ := place.starts
    obtain ⟨type', rfl⟩ := List.head?_eq_some_iff.1 first
    rw [(List.cons.inj same).1]
    rfl
  have plain : ¬ StartsArguments (c :: bare y) := by
    intro opens
    have ahead := (spaced.left (a := (true, c) :: y)).starts [] c y rfl
    exact absurd (ahead.2 '(' opens) (by decide)
  obtain ⟨passed, whole, lead'⟩ := lead.congr head plain
  obtain rfl := List.append_cancel_right whole
  refine ⟨words, ?_, (front.ends split).read_append_iff.1 ?_⟩
  · rwa [split, bare_append, bare_cons]
  · rw [← bare_cons (k := true), ← bare_append, List.cons_append, bare_cons, same]
    exact place.stops_append

end InFront

/-- Whether two parts of a text in front of a name are a lead and what it leaves, with no other
place of a type. -/
structure Led (m start x y : Marked) (words : List Text) : Prop where
  lead : Lead modifierWords (bare (x ++ y)) words (bare y)
  visible : ∀ c ∈ (bare y).head?, isAsciiBlank c = false
  stops : HeaderItem.read (bare y) = .type ∨ HeaderItem.read (bare y) = .unclosed
  only : ∀ x' c y', x ++ y = x' ++ (true, c) :: y' →
    Text.octets (bare (start ++ x')) ∈ methodOffsets (bare m) → x' = x

/-- There is a lead in front of each name. -/
theorem InFront.exists_led {m start segment named : Marked} (marking : Marking m)
    (front : InFront m start segment named) :
    ∃ x y words, segment = x ++ y ∧ Led m start x y words := by
  by_cases place : ∃ x c y, segment = x ++ (true, c) :: y ∧
      Text.octets (bare (start ++ x)) ∈ methodOffsets (bare m)
  · obtain ⟨x, c, y, split, mem⟩ := place
    obtain ⟨words, lead, type⟩ := front.exists_lead_of_mem marking split mem
    have starts := (marking.spaced.starts _ _ _ (front.eq_append_cons split)).1
    refine ⟨x, (true, c) :: y, words, split, ?_, visible_cons c _ starts.isAsciiBlank,
      Or.inl type, ?_⟩
    · rwa [← split]
    · intro x' c' y' split' mem'
      exact (front.eq_of_mem marking split (split.trans split') mem mem').symm
  · obtain ⟨words, rest, lead, visible, stops⟩ := exists_lead (bare segment)
    obtain ⟨passed, whole⟩ := lead.suffix
    obtain ⟨x, y, rfl, rfl, rfl⟩ := exists_of_bare_eq_append whole.symm
    exact ⟨x, y, words, rfl, lead, visible, stops, fun x' c y' split mem =>
      absurd ⟨x', c, y', split, mem⟩ place⟩

/-- A text without a mark at its first character. -/
def unmarkHead : Marked → Marked
  | [] => []
  | (_, c) :: m => (false, c) :: m

theorem bare_unmarkHead (m : Marked) : bare m.unmarkHead = bare m := by
  cases m <;> rfl

theorem plain_unmarkHead (m : Marked) : Plain m.unmarkHead := by
  cases m with
  | nil => exact nofun
  | cons x m => exact plain_cons.2 rfl

theorem Spaced.unmarkHead {m : Marked} (spaced : Spaced m) : Spaced m.unmarkHead := by
  cases m with
  | nil => exact spaced
  | cons x m => exact spaced.unmark

namespace Led

variable {m start x y named : Marked} {words : List Text}

/-- All marks but the one of the type are at keywords of classes. -/
theorem atKeyword {x' y' : Marked} {c : Char} (marking : Marking m)
    (front : InFront m start (x ++ y) named) (led : Led m start x y words)
    (split : x ++ y = x' ++ (true, c) :: y') (other : x' ≠ x) : AtKeyword (c :: bare y') := by
  have whole := front.eq_append_cons split
  have split' := congrArg bare whole
  rw [bare_append, bare_cons] at split'
  have mem := (List.mem_append.1 ((marking.marked _ _ _ _ whole).1 rfl)).resolve_left fun mem =>
    other (led.only x' c y' split mem)
  exact front.atKeyword split (startsClass_of_mem split' mem)

theorem onKeywords (marking : Marking m) (front : InFront m start (x ++ y) named)
    (led : Led m start x y words) : OnKeywords (x ++ y) (bare y).length := by
  intro x' c y' split le
  refine led.atKeyword marking front split ?_
  rintro rfl
  have size := congrArg List.length (List.append_cancel_left split)
  rw [length_bare] at le
  rw [List.length_cons] at size
  omega

theorem onKeywords_unmarkHead (marking : Marking m) (front : InFront m start (x ++ y) named)
    (led : Led m start x y words) : OnKeywords y.unmarkHead 0 := by
  intro x' c y' split _
  cases y with
  | nil => simp [unmarkHead] at split
  | cons z y =>
    cases x' with
    | nil => cases split
    | cons z' x' =>
      obtain ⟨rfl, rfl⟩ := List.cons.inj split
      have split' : x ++ z :: (x' ++ (true, c) :: y') = (x ++ z :: x') ++ (true, c) :: y' := by simp
      refine led.atKeyword marking front split' fun same => ?_
      have size := congrArg List.length same
      simp at size

/-- Of the type the first visible character is in front of each mark behind the first character. -/
theorem not_blank (marking : Marking m) (front : InFront m start (x ++ y) named)
    (led : Led m start x y words) {gap : Text} {c : Char} {b : Marked}
    (split : y.unmarkHead = unmarked gap ++ (true, c) :: b) : ¬ Text.Blank gap := by
  intro blank
  cases y with
  | nil => simp [unmarkHead] at split
  | cons z y =>
    obtain ⟨k, d⟩ := z
    cases gap with
    | nil => cases split
    | cons e gap =>
      obtain ⟨first, rfl⟩ := List.cons.inj split
      obtain rfl : d = e := congrArg Prod.snd first
      have whole : m = (start ++ (x ++ (k, d) :: unmarked gap)) ++ (true, c) :: (b ++ named) := by
        rw [front.whole]
        simp [unmarked]
      have apart := marking.apart _ c _ whole
      have text :
          bare (start ++ (x ++ (k, d) :: unmarked gap)) = bare (start ++ x) ++ d :: gap := by
        simp
      rw [text] at apart
      have ascii := apart.isAsciiBlank blank d List.mem_cons_self
      rw [led.visible d rfl] at ascii
      cases ascii

/-- The written text has a lead up to the same type, which has the word if the type is marked. -/
theorem lead_written (marking : Marking m) (front : InFront m start (x ++ y) named)
    (led : Led m start x y words) : ∃ words', words ⊆ words' ∧
      (∀ c y', y = (true, c) :: y' → "static".toList ∈ words') ∧
      Lead modifierWords (written (x ++ y)) words' (written y.unmarkHead) := by
  have spaced : Spaced (x ++ y) := (front.whole ▸ marking.spaced).right.left
  obtain ⟨a, b, split, same, lead⟩ :=
    Marked.lead_written spaced (led.onKeywords marking front) led.lead rfl
  obtain ⟨rfl, rfl⟩ : x = a ∧ y = b := by
    refine List.append_inj' split ?_
    rw [← length_bare, ← length_bare, same]
  match y with
  | [] => exact ⟨words, List.Subset.refl _, nofun, lead⟩
  | (false, c) :: y => exact ⟨words, List.Subset.refl _, nofun, lead⟩
  | (true, c) :: y =>
    have static : Lead modifierWords (written ((true, c) :: y)) ["static".toList]
        (written ((false, c) :: y)) := by
      have text :
          written ((true, c) :: y) = "static".toList ++ ' ' :: written ((false, c) :: y) := by
        rw [written_cons]
        rfl
      rw [text]
      exact .modifier (by decide) (by rintro d ⟨⟩; decide) (.blank (by decide) .done)
    exact ⟨words ++ ["static".toList], List.subset_append_left _ _, fun _ _ _ => by simp,
      lead.trans static⟩

/-- A header is found in front of a name in both texts or in neither. -/
theorem header?_cases (marking : Marking m) (front : InFront m start (x ++ y) named)
    (led : Led m start x y words) :
    header? (bare (start ++ (x ++ y))) = none ∧ header? (written (start ++ (x ++ y))) = none ∨
      ∃ header header', header? (bare (start ++ (x ++ y))) = some header ∧
        header? (written (start ++ (x ++ y))) = some header' ∧
        header.modifiers ⊆ header'.modifiers ∧
        ∀ c y', y = (true, c) :: y' → "static".toList ∈ header'.modifiers := by
  obtain ⟨words', more, static, passed⟩ := led.lead_written marking front
  have spaced : Spaced y := (front.whole ▸ marking.spaced).right.left.right
  have keywords := led.onKeywords_unmarkHead marking front
  have plain := plain_unmarkHead y
  have visible' : ∀ c ∈ (written y.unmarkHead).head?, isAsciiBlank c = false := by
    rw [head?_written plain, ← head?_bare, bare_unmarkHead]
    exact led.visible
  have lead : Lead modifierWords (cutSegment (bare (start ++ (x ++ y)))).2 words (bare y) := by
    rw [bare_append, front.cut]
    exact led.lead
  have lead' : Lead modifierWords (cutSegment (written (start ++ (x ++ y)))).2 words'
      (written y.unmarkHead) := by
    rw [front.cut_written]
    exact passed
  rcases led.stops with type | unclosed
  · have type' := read_written_type spaced.unmarkHead plain (by rwa [bare_unmarkHead])
    have header := map_modifiers_header? lead led.visible type
    have header' := map_modifiers_header? lead' visible' type'
    rw [isType_written spaced.unmarkHead keywords fun gap c b => led.not_blank marking front,
      bare_unmarkHead] at header'
    split at header
    · rename_i isType
      rw [if_pos isType] at header'
      obtain ⟨h, read, rfl⟩ := Option.map_eq_some_iff.1 header
      obtain ⟨h', read', rfl⟩ := Option.map_eq_some_iff.1 header'
      exact Or.inr ⟨h, h', read, read', more, static⟩
    · rename_i noType
      rw [if_neg noType] at header'
      exact Or.inl ⟨Option.map_eq_none_iff.1 header, Option.map_eq_none_iff.1 header'⟩
  · have unclosed' := read_written_unclosed spaced.unmarkHead keywords (by
      rwa [bare_unmarkHead])
    exact Or.inl ⟨header?_eq_none lead led.visible unclosed,
      header?_eq_none lead' visible' unclosed'⟩

end Led

/-! ## Candidates -/

/-- Whether the header in the written text has the modifiers of the one in the other text, and the
word if its type is marked. -/
structure Modified (m : Marked) (header header' : Header) : Prop where
  modifiers : header.modifiers ⊆ header'.modifiers
  static : Text.octets header.before ∈ methodOffsets (bare m) →
    "static".toList ∈ header'.modifiers

theorem Marking.rel_header? {m start segment named : Marked} (marking : Marking m)
    (front : InFront m start segment named) :
    Option.Rel (Modified m) (header? (bare (start ++ segment)))
      (header? (written (start ++ segment))) := by
  obtain ⟨x, y, words, rfl, led⟩ := front.exists_led marking
  rcases led.header?_cases marking front with ⟨none, none'⟩ |
    ⟨header, header', read, read', more, static⟩
  · rw [none, none']
    exact .none
  · rw [read, read']
    refine .some ⟨more, fun mem => ?_⟩
    obtain ⟨c, rest, before, -⟩ := exists_of_header? read
    obtain ⟨-, -, -, -, -, -, begun, -⟩ := exists_lead_of_header? read
    have place := cutSegment_append header.before
    rw [bare_append, front.cut] at begun
    rw [begun] at place
    rw [← place, bare_append, List.append_assoc] at before
    obtain ⟨x', y', split, passed, behind⟩ :=
      exists_of_bare_eq_append (List.append_cancel_left before)
    obtain ⟨k, y', rfl, -⟩ := exists_of_bare_eq_cons behind
    rw [← place, ← passed, ← bare_append] at mem
    obtain rfl : k = true := (marking.marked _ k c _ (front.eq_append_cons split)).2
      (List.mem_append_left _ mem)
    obtain rfl := led.only x' c y' split mem
    exact static c y' (List.append_cancel_left split)

/-- Whether a candidate of the written text is the one of the other text, with the word if it is
written in front of its type. -/
structure Recognised (m : Marked) (c c' : Candidate) : Prop where
  name : c'.name = c.name
  depth : c'.depth = c.depth
  modifiers : c.modifiers ⊆ c'.modifiers
  static : c.typeOffset ∈ methodOffsets (bare m) → "static".toList ∈ c'.modifiers

theorem StartsType.braceless {c : Char} (starts : StartsType c) : Braceless c := by
  intro mem
  have all : ∀ c ∈ ['"', '\'', '\\', '\n', '{', '}'], ¬ StartsType c := by decide
  exact all c mem starts

namespace Marking

variable {m : Marked}

/-- As many braces are open in front of a place in both texts. -/
theorem braceDepth_written {a b : Marked} (marking : Marking m) (whole : m = a ++ b) :
    braceDepth (written a) = braceDepth (bare a) := by
  refine braceDepthFrom_written trivial fun c mem => StartsType.braceless ?_
  exact (whole ▸ marking.spaced).left.startsType mem

/-- In front of the name of a hit a declaration begins. -/
theorem exists_inFront {a b : Marked} {k : Bool} {c : Char} {found : Text × Text} {behind : Text}
    (marking : Marking m) (whole : m = a ++ (k, c) :: b)
    (read : callable? (bare a).getLast? (c :: bare b) = some (found, behind)) :
    ∃ start segment, a = start ++ segment ∧ InFront m start segment ((k, c) :: b) := by
  obtain ⟨_, begins, -⟩ := Option.bind_eq_some_iff.1 read
  obtain ⟨-, ⟨gap, -, spelled⟩, d, more, same, starts, -⟩ :=
    exists_of_callable? (read : callable? _ _ = some ((found.1, found.2), behind))
  rw [same] at spelled
  obtain ⟨rfl, -⟩ := List.cons.inj spelled
  obtain ⟨start, segment, rfl, cut, cut'⟩ := exists_cutSegment (whole ▸ marking.spaced).left
  rw [bare_append] at cut begins
  exact ⟨start, segment, rfl, by rw [whole, List.append_assoc], cut, cut', by simpa using begins,
    c, rfl, starts⟩

/-- A hit is a candidate of both texts or of neither. -/
theorem rel_declared? (marking : Marking m) {hit hit' : Hit (Text × Text)}
    (hits : HitsAt callable? NamedBoth m hit hit') :
    Option.Rel (Recognised m) (declared? .java hit) (declared? .java hit') := by
  obtain ⟨before, name, inside⟩ := hit
  obtain ⟨before', name', inside'⟩ := hit'
  obtain ⟨a, k, c, b, x, y, whole, split, rfl, rfl, read, same, rfl, rfl⟩ := hits
  obtain rfl : name' = name := same.symm
  dsimp only at read
  obtain rfl : k = false := by
    cases k with
    | false => rfl
    | true =>
      rw [marking.callable?_eq_none whole] at read
      cases read
  obtain ⟨start, segment, rfl, front⟩ := marking.exists_inFront whole read
  have depth := marking.braceDepth_written whole
  rw [split, ← List.append_assoc] at whole
  have spaced : Spaced y := (whole ▸ marking.spaced).right
  have closed := rel_closeBracket? '(' ')' 0 (by decide) fun d mem => by
      rintro rfl
      exact absurd (spaced.startsType mem) (by decide)
  rw [word, if_neg Bool.false_ne_true, List.append_nil]
  unfold declared?
  simp only [Option.bind_eq_bind]
  cases Candidate.isExcluded name' with
  | true => exact .none
  | false =>
    simp only [Bool.not_false, guard_true, Option.pure_def, Option.bind_some]
    refine rel_bind closed ?_
    rintro _ _ ⟨arguments, behind, rfl, rfl, rfl⟩
    have body : bodyFollows ((written behind).length + 1) (written behind) =
        bodyFollows ((bare behind).length + 1) (bare behind) := by
      refine bodyFollows_written spaced.right.tail (fun e d b rest => ?_) (by simp) (by simp)
      refine marking.bodyFollows_eq_false
        (a := (start ++ segment ++ x) ++ (arguments ++ (false, ')') :: e)) ?_
      rw [whole, rest]
      simp
    dsimp only
    rw [body]
    cases bodyFollows ((bare behind).length + 1) (bare behind) with
    | false => exact .none
    | true =>
      simp only [guard_true, Option.pure_def, Option.bind_some]
      refine rel_bind (marking.rel_header? front) ?_
      rintro header header' ⟨modifiers, static⟩
      exact .some ⟨rfl, depth, modifiers, static⟩

/-- The candidates of both texts are found one by one. -/
theorem forall₂_candidates (marking : Marking m) :
    List.Forall₂ (Recognised m) (candidates .java (bare m)) (candidates .java (written m)) := by
  have hits : List.Forall₂ (HitsAt callable? NamedBoth m) (occurrences callable? (bare m))
      (occurrences callable? (written m)) :=
    forall₂_occurrences fun a k c b => readsAt_callable? marking.spaced fun a c b whole =>
      marking.callable?_eq_none whole
  exact List.rel_filterMap (fun _ _ both => marking.rel_declared? both) hits

end Marking

end Marked

end HarnessSynthesis.TypedSource
