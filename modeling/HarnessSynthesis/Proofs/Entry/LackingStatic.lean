/-
# Declarations that lack static

The word is meant for outermost declarations that lack it. A method is found by its header: where
its type begins, the header has been read as a lead, so all modifiers are known. A class is found by
its keyword, and of what stands in front only the end is looked at, which is the end of its lead.
Neither search knows of literals. So the word is written in front of methods that lack it exactly
when no literal spells one or ends a statement in front of one, and in front of classes that lack it
exactly when each outermost keyword of a class is one of a declaration and the lead of a class with
`static` among its modifiers ends in it.
-/

import HarnessSynthesis.Proofs.Entry.Leads
import HarnessSynthesis.Proofs.Entry.StaticPlaces

namespace HarnessSynthesis.TypedSource

open Source
open Text (isBlank isNameStart isWordChar)

/-! ## Declarations -/

/-- Whether an offset of a source lies in its code, outside of comments and literals. -/
def InCode (source : Text) (place : Nat) : Prop :=
  ∃ before rest, source = before ++ rest ∧ Text.octets before = place ∧
    regionAt .java .code before rest = .code

/-- The modifiers of a class. -/
def classModifiers : List Text :=
  ["public", "protected", "private", "abstract", "static", "final", "strictfp", "sealed",
    "non-sealed"]

/-- Whether, behind the first part of a stripped source, an outermost declaration goes on that lacks
`static`: all between where it begins and here is a lead without the word. -/
structure Lacks (known : List Text) (source front rest : Text) : Prop where
  placed : InCode source (Text.octets front)
  begun : InCode source (Text.octets (cutSegment front).1)
  outermost : braceDepth front = 0
  lead : ∃ words, Lead known ((cutSegment front).2 ++ rest) words rest ∧ "static".toList ∉ words

/-- Whether a text starts with the type of a method, and its name, parameters and body follow. -/
def StartsMethod (t : Text) : Prop :=
  ∃ type name gap arguments behind : Text,
    t = type ++ (name ++ (gap ++ '(' :: (arguments ++ ')' :: behind))) ∧
      isReturnType (dropQualifiers type.trim) = true ∧ IsName isNameStart isWordChar name ∧
      Candidate.isExcluded name = false ∧ Text.Blank gap ∧ Closed '(' ')' arguments ∧
      bodyFollows (behind.length + 1) behind = true

/-- Whether a text starts with the keyword of a class, and its name follows. -/
def StartsClass (t : Text) : Prop :=
  ∃ gap name behind : Text, t = "class".toList ++ (gap ++ (name ++ behind)) ∧ Text.Blank gap ∧
    gap ≠ [] ∧ IsName isNameStart isWordChar name

/-- Whether the type of an outermost method without `static` begins at an offset. -/
def MethodLacks (source : Text) (place : Nat) : Prop :=
  ∃ front rest, stripComments .java source = front ++ rest ∧ Text.octets front = place ∧
    Lacks modifierWords source front rest ∧ StartsMethod rest

/-- Whether an outermost class without `static` has its keyword at an offset. -/
def ClassLacks (source : Text) (place : Nat) : Prop :=
  ∃ front rest, stripComments .java source = front ++ rest ∧ Text.octets front = place ∧
    Lacks classModifiers source front rest ∧ StartsClass rest

/-! ## Methods -/

/-- A text is cut at an offset in one way. -/
theorem append_inj_of_octets {a b a' b' : Text} (whole : a ++ b = a' ++ b')
    (size : Text.octets a = Text.octets a') : a = a' ∧ b = b' := by
  have cut := Text.splitAtOctet?_append a b
  rw [whole, size, Text.splitAtOctet?_append] at cut
  obtain ⟨front, rest⟩ := Prod.mk.inj (Option.some.inj cut)
  exact ⟨front.symm, rest.symm⟩

theorem not_startsArguments_of_isReturnType {rest : Text}
    (h : isReturnType (dropQualifiers rest.trim) = true) (t : Text) :
    ¬ StartsArguments (rest ++ t) := by
  obtain ⟨c, more, type, starts⟩ := head_of_isReturnType h
  have front : c :: more <+: rest.trimStart :=
    (type ▸ dropQualifiers_isPrefix _ : c :: more <+: rest.trim).trans (dropEndWhile_isPrefix _ _)
  obtain ⟨u, whole⟩ := front
  intro opens
  rw [StartsArguments, Text.trimStart, List.dropWhile_append] at opens
  change (if (List.isEmpty rest.trimStart) = true then _ else rest.trimStart ++ t).head? = _
    at opens
  rw [← whole] at opens
  obtain rfl : c = '(' := Option.some.inj opens
  exact absurd starts (by decide)

/-- Behind the header of a candidate its method goes on, as far as the lead tells without
`static`. -/
theorem exists_of_declared?_of_mem {stripped : Text} {hit : Hit (Text × Text)} {c : Candidate}
    (occurs : hit ∈ occurrences callable? stripped) (h : declared? .java hit = some c) :
    ∃ front rest, stripped = front ++ rest ∧ Text.octets front = c.typeOffset ∧
      (cutSegment front).1 = (cutSegment hit.before).1 ∧ braceDepth front = c.depth ∧
      Lead modifierWords ((cutSegment front).2 ++ rest) c.modifiers rest ∧ StartsMethod rest := by
  obtain ⟨arguments, behind, header, ordinary, closed, body, read, -, depth, modifiers, place⟩ :=
    exists_of_declared? h
  obtain ⟨t, behind', whole, found⟩ := exists_of_mem_occurrences readsTo_callable?.takes occurs
  obtain ⟨inside, ⟨gap, blank, spelled⟩, named⟩ := exists_of_callable?
    (found : callable? _ _ = some ((hit.found.1, hit.found.2), behind'))
  obtain ⟨rest, before, lead, -, type, -, begun, outermost⟩ := exists_lead_of_header? read
  obtain ⟨c', more, starts, -⟩ := exists_of_header? read
  obtain rfl : rest = c' :: more := List.append_cancel_left (before.symm.trans starts)
  have method : t = hit.found.1 ++ (gap ++ '(' :: (arguments ++ ')' :: behind)) := by
    rw [spelled, ← inside, eq_append_of_closeBracket? closed]
  have first : (c' :: more ++ t).head? = (c' :: more).head? := rfl
  obtain ⟨passed, same, lead'⟩ := lead.congr first (not_startsArguments_of_isReturnType type t)
  obtain rfl := List.append_cancel_right same
  refine ⟨header.before, (c' :: more) ++ t, ?_, place.symm, begun, depth ▸ outermost, ?_, ?_⟩
  · rw [whole, before, List.append_assoc]
  · rw [modifiers]
    exact lead'
  · refine ⟨c' :: more, hit.found.1, gap, arguments, behind, ?_, type, named, ordinary, blank,
      closed_of_closeBracket? closed, body⟩
    rw [method]

/-- The places of methods are types of methods that lack the word exactly when no literal holds one
of them or what the declaration begins behind. -/
theorem forall_methodLacks_iff (source : Text) :
    (∀ place ∈ methodOffsets (stripComments .java source), MethodLacks source place) ↔
      ∀ hit ∈ occurrences callable? (stripComments .java source), ∀ c,
        declared? .java hit = some c → c.depth = 0 → "static".toList ∉ c.modifiers →
          InCode source c.typeOffset ∧ InCode source (Text.octets (cutSegment hit.before).1) := by
  constructor
  · intro lacks hit occurs c declared outermost missing
    obtain ⟨front, rest, whole, size, begun, -⟩ := exists_of_declared?_of_mem occurs declared
    obtain ⟨front', rest', whole', size', lacking, -⟩ := lacks c.typeOffset
      (List.mem_filterMap.2 ⟨c, List.mem_filterMap.2 ⟨hit, occurs, declared⟩,
        if_pos ⟨outermost, missing⟩⟩)
    obtain ⟨rfl, rfl⟩ := append_inj_of_octets (whole.symm.trans whole') (size.trans size'.symm)
    rw [← size, ← begun]
    exact ⟨lacking.placed, lacking.begun⟩
  · intro inCode place mem
    obtain ⟨c, found, placed⟩ := List.mem_filterMap.1 mem
    obtain ⟨hit, occurs, declared⟩ := List.mem_filterMap.1 found
    obtain ⟨⟨outermost, missing⟩, size'⟩ := Option.ite_none_right_eq_some.1 placed
    obtain rfl := Option.some.inj size'
    obtain ⟨front, rest, whole, size, begun, depth, lead, method⟩ :=
      exists_of_declared?_of_mem occurs declared
    obtain ⟨inPlace, inStart⟩ := inCode hit occurs c declared outermost missing
    rw [← size] at inPlace
    rw [← begun] at inStart
    exact ⟨front, rest, whole, size,
      ⟨inPlace, inStart, depth.trans outermost, c.modifiers, lead, missing⟩, method⟩

/-! ## The word in front of a keyword -/

/-- Whether a text ends in `static`, blanks aside. -/
def FollowsStatic (t : Text) : Prop :=
  ∃ front gap : Text, t = front ++ ("static".toList ++ gap) ∧ Text.Blank gap

theorem endsWith_static_iff {t : Text} :
    Text.endsWith "static" t.trimEnd = true ↔ FollowsStatic t := by
  rw [Text.endsWith, Option.isSome_iff_exists]
  constructor
  · rintro ⟨front, found⟩
    refine ⟨front, t.takeEndWhile isBlank, ?_, (Text.blank_takeWhile t.reverse).reverse⟩
    rw [← List.append_assoc, ← Text.beforeSuffix?_eq_some_iff.1 found,
      Text.trimEnd_append_takeEndWhile]
  · rintro ⟨front, gap, rfl, blank⟩
    refine ⟨front, Text.beforeSuffix?_eq_some_iff.2 ?_⟩
    rw [← List.append_assoc]
    refine Text.dropEndWhile_append blank fun c last => ?_
    have split : "static".toList = "stati".toList ++ ['c'] := by decide
    rw [split, ← List.append_assoc, List.getLast?_concat] at last
    cases last
    decide

namespace FollowsStatic

variable {a b : Text} {c : Char}

theorem append (h : FollowsStatic b) (a : Text) : FollowsStatic (a ++ b) := by
  obtain ⟨front, gap, rfl, blank⟩ := h
  exact ⟨a ++ front, gap, (List.append_assoc _ _ _).symm, blank⟩

theorem ne_nil (h : FollowsStatic a) : a ≠ [] := by
  rintro rfl
  obtain ⟨front, gap, whole, -⟩ := h
  have size := congrArg List.length whole
  simp at size

/-- A character that is not one of the word stands in front of it or among the blanks behind. -/
theorem of_append_cons (h : FollowsStatic (a ++ c :: b)) (other : c ∉ "static".toList) :
    FollowsStatic b ∨ FollowsStatic a ∧ Text.Blank (c :: b) := by
  obtain ⟨front, gap, whole, blank⟩ := h
  rcases Text.append_eq_append_cons whole.symm with ⟨more, -, rfl⟩ | ⟨more, rfl, behind⟩
  · exact Or.inl ⟨more, gap, rfl, blank⟩
  · rcases Text.append_eq_append_cons behind with ⟨more', word, -⟩ | ⟨more', rfl, rfl⟩
    · exact absurd (word ▸ List.mem_append_right more List.mem_cons_self) other
    · exact Or.inr ⟨⟨front, more', rfl, fun d mem => blank d (List.mem_append_left _ mem)⟩,
        fun d mem => blank d (List.mem_append_right more' mem)⟩

theorem of_cons (h : FollowsStatic (c :: b)) (other : c ∉ "static".toList) : FollowsStatic b :=
  (of_append_cons (a := []) h other).resolve_right fun ⟨nothing, _⟩ => nothing.ne_nil rfl

theorem of_append_visible (h : FollowsStatic (a ++ [c] ++ b)) (other : c ∉ "static".toList)
    (visible : isBlank c = false) : FollowsStatic b := by
  rw [List.append_assoc] at h
  refine (of_append_cons h other).resolve_right fun ⟨_, blank⟩ => ?_
  rw [blank c List.mem_cons_self] at visible
  cases visible

theorem of_append (h : FollowsStatic (a ++ b)) (apart : ∀ c ∈ b.head?, c ∉ "static".toList) :
    FollowsStatic b ∨ FollowsStatic a ∧ Text.Blank b := by
  cases b with
  | nil => exact Or.inr ⟨List.append_nil a ▸ h, Text.blank_nil⟩
  | cons c b => exact (h.of_append_cons (apart c rfl)).imp_left fun behind => behind.append [c]

end FollowsStatic

/-- Whether a lead with these words ends in `static`: it is the last modifier and stands right in
front of the rest, or it ends the name of an annotation there. -/
inductive EndsInStatic (known : List Text) (t : Text) : List Text → Text → Prop
  | modifier {gap rest : Text} {words : List Text} :
      Lead known t words ("static".toList ++ (gap ++ rest)) → Text.Blank gap →
      EndsInStatic known t (words ++ ["static".toList]) rest
  | noted {name gap rest : Text} {words : List Text} :
      Lead known t words ('@' :: (name ++ ("static".toList ++ (gap ++ rest)))) →
      (∀ c ∈ name, isAnnotationChar c = true) → Text.Blank gap → EndsInStatic known t words rest

section Lead

variable {known words words' : List Text} {t t' rest passed : Text}

theorem EndsInStatic.prepend (lead : Lead known t words t')
    (ends : EndsInStatic known t' words' rest) : EndsInStatic known t (words ++ words') rest := by
  cases ends with
  | modifier lead' blank =>
    rw [← List.append_assoc]
    exact .modifier (lead.trans lead') blank
  | noted lead' named blank => exact .noted (lead.trans lead') named blank

theorem EndsInStatic.followsStatic (ends : EndsInStatic known (passed ++ rest) words rest) :
    FollowsStatic passed := by
  cases ends with
  | @modifier gap _ _ lead blank =>
    obtain ⟨front, whole⟩ := lead.suffix
    have same : passed ++ rest = front ++ ("static".toList ++ gap) ++ rest := by
      simpa using whole.symm
    exact ⟨front, gap, List.append_cancel_right same, blank⟩
  | @noted name gap _ _ lead _ blank =>
    obtain ⟨front, whole⟩ := lead.suffix
    have same : passed ++ rest = front ++ '@' :: name ++ ("static".toList ++ gap) ++ rest := by
      simpa using whole.symm
    exact ⟨front ++ '@' :: name, gap, List.append_cancel_right same, blank⟩

/-- What an item and a lead behind it pass over is the item and what the lead passes over. -/
theorem Lead.exists_inside (lead : Lead known t words rest) (item : Text)
    (whole : item ++ t = passed ++ rest) :
    ∃ inside, t = inside ++ rest ∧ passed = item ++ inside := by
  obtain ⟨inside, rfl⟩ := lead.suffix
  rw [← List.append_assoc] at whole
  exact ⟨inside, rfl, (List.append_cancel_right whole).symm⟩

/-- A lead that passes over blanks alone has no words. -/
theorem Lead.eq_nil_of_blank (lead : Lead classModifiers t words rest)
    (whole : t = passed ++ rest) (blank : Text.Blank passed) : words = [] := by
  -- any item but a blank starts with a character that is none
  induction lead generalizing passed with
  | done => rfl
  | @blank c _ _ _ _ lead ih =>
    obtain ⟨inside, rfl, rfl⟩ := lead.exists_inside [c] whole
    exact ih rfl (Text.blank_cons.1 blank).2
  | @noted name _ _ _ _ _ _ lead _ =>
    obtain ⟨inside, rfl, rfl⟩ := lead.exists_inside ('@' :: name) whole
    exact absurd (blank '@' List.mem_cons_self) (by decide)
  | @applied name gap arguments _ _ _ _ _ _ lead _ =>
    obtain ⟨inside, rfl, rfl⟩ := lead.exists_inside
      ('@' :: (name ++ (gap ++ '(' :: arguments)) ++ [')']) (by simpa using whole)
    exact absurd (blank '@' List.mem_cons_self) (by decide)
  | @template gap parameters _ _ _ _ _ lead _ =>
    obtain ⟨inside, rfl, rfl⟩ := lead.exists_inside
      ("template".toList ++ (gap ++ '<' :: parameters) ++ ['>']) (by simpa using whole)
    exact absurd (blank 't' List.mem_cons_self) (by decide)
  | @modifier word _ _ _ known _ lead _ =>
    obtain ⟨inside, rfl, rfl⟩ := lead.exists_inside word whole
    have visible : ∀ word ∈ classModifiers, ¬ word.all isBlank = true :=
      List.all_iff_forall_prop.1 (by decide)
    exact absurd (List.all_eq_true.2 (List.forall_mem_append.1 blank).1) (visible word known)

/-- Where something stops that the letters of the word belong to, no letter of the word follows. -/
theorem not_mem_static_of_stops {p : Char → Bool} (letters : "static".toList.all p = true)
    (stops : ∀ c ∈ (passed ++ rest).head?, p c = false) :
    ∀ c ∈ passed.head?, c ∉ "static".toList := by
  intro c first mem
  have stopped := stops c (by rw [List.head?_append, Option.mem_def.1 first]; rfl)
  rw [List.all_eq_true.1 letters c mem] at stopped
  cases stopped

/-- A lead in front of whose rest the word stands ends in it. -/
theorem Lead.endsInStatic (lead : Lead classModifiers t words rest) (whole : t = passed ++ rest)
    (follows : FollowsStatic passed) : EndsInStatic classModifiers t words rest := by
  induction lead generalizing passed with
  | done =>
    obtain rfl : [] = passed := List.append_cancel_right whole
    exact absurd rfl follows.ne_nil
  | @blank c _ _ _ space lead ih =>
    obtain ⟨inside, rfl, rfl⟩ := lead.exists_inside [c] whole
    have letters : ∀ c ∈ "static".toList, ¬ Text.isAsciiBlank c = true :=
      List.all_iff_forall_prop.1 (by decide)
    have other : c ∉ "static".toList := fun mem => letters c mem space
    exact .prepend (.blank space .done) (ih rfl (follows.of_cons other))
  | @noted name _ rest _ named stops plain lead ih =>
    obtain ⟨inside, rfl, rfl⟩ := lead.exists_inside ('@' :: name) whole
    rcases follows.of_append (not_mem_static_of_stops (by decide) stops) with
      behind | ⟨within, blank⟩
    · exact .prepend (.noted named stops plain .done) (ih rfl behind)
    · obtain ⟨front, gap, rfl, blank'⟩ := within.of_cons (by decide)
      obtain rfl := lead.eq_nil_of_blank rfl blank
      have ends : EndsInStatic classModifiers
          ('@' :: (front ++ ("static".toList ++ ((gap ++ inside) ++ rest)))) [] rest :=
        .noted .done (List.forall_mem_append.1 named).1
          (List.forall_mem_append.2 ⟨blank', blank⟩)
      simpa only [List.append_assoc] using ends
  | @applied name gap arguments _ _ _ named blank closed lead ih =>
    obtain ⟨inside, rfl, rfl⟩ := lead.exists_inside
      ('@' :: (name ++ (gap ++ '(' :: arguments)) ++ [')']) (by simpa using whole)
    have behind : FollowsStatic inside := follows.of_append_visible (by decide) (by decide)
    exact .prepend (.applied named blank closed .done) (ih rfl behind)
  | @template gap parameters _ _ _ blank closed lead ih =>
    obtain ⟨inside, rfl, rfl⟩ := lead.exists_inside
      ("template".toList ++ (gap ++ '<' :: parameters) ++ ['>']) (by simpa using whole)
    have behind : FollowsStatic inside := follows.of_append_visible (by decide) (by decide)
    exact .prepend (.template blank closed .done) (ih rfl behind)
  | @modifier word _ _ _ known stops lead ih =>
    obtain ⟨inside, rfl, rfl⟩ := lead.exists_inside word whole
    rcases follows.of_append (not_mem_static_of_stops (by decide) stops) with
      behind | ⟨within, blank⟩
    · exact .prepend (.modifier known stops .done) (ih rfl behind)
    · have same : ∀ word ∈ classModifiers,
          Text.endsWith "static" word.trimEnd = true → word = "static".toList := by
        decide +kernel
      obtain rfl := same word known (endsWith_static_iff.2 within)
      obtain rfl := lead.eq_nil_of_blank rfl blank
      exact .modifier .done blank

end Lead

/-- In front of a declared class stands the word exactly when its lead ends in it. -/
theorem followsStatic_iff {front rest : Text} {words : List Text}
    (lead : Lead classModifiers ((cutSegment front).2 ++ rest) words rest) :
    FollowsStatic front ↔
      EndsInStatic classModifiers ((cutSegment front).2 ++ rest) words rest := by
  have whole := cutSegment_append front
  constructor
  · intro follows
    refine lead.endsInStatic rfl ?_
    have last := getLast?_cutSegment front
    rw [← whole] at follows
    rcases List.eq_nil_or_concat (cutSegment front).1 with empty | ⟨start, c, ending⟩
    · rwa [empty, List.nil_append] at follows
    · rw [ending, List.concat_eq_append] at follows last
      have ends := last c (by rw [List.getLast?_concat]; rfl)
      have apart : c ∉ "static".toList ∧ isBlank c = false := by
        rcases ends with ends | rfl
        · simp only [endsStatement, Bool.or_eq_true, beq_iff_eq] at ends
          rcases ends with (rfl | rfl) | rfl <;> decide
        · decide
      exact follows.of_append_visible apart.1 apart.2
  · intro ends
    rw [← whole]
    exact ends.followsStatic.append _

/-! ## Classes -/

theorem startsClass_of_class? {previous : Option Char} {t behind : Text}
    (h : class? previous t = some ((), behind)) : StartsClass t := by
  obtain ⟨gap, name, whole⟩ := spelled_of_class? h
  exact ⟨gap, name, behind, whole⟩

/-- What stands in front of a keyword is a declaration's beginning and a lead with these words. -/
structure Declares (known : List Text) (source front rest : Text) (words : List Text) : Prop where
  placed : InCode source (Text.octets front)
  begun : InCode source (Text.octets (cutSegment front).1)
  outermost : braceDepth front = 0
  lead : Lead known ((cutSegment front).2 ++ rest) words rest

theorem lacks_iff {known : List Text} {source front rest : Text} :
    Lacks known source front rest ↔
      ∃ words, Declares known source front rest words ∧ "static".toList ∉ words := by
  constructor
  · rintro ⟨placed, begun, outermost, words, lead, missing⟩
    exact ⟨words, ⟨placed, begun, outermost, lead⟩, missing⟩
  · rintro ⟨words, ⟨placed, begun, outermost, lead⟩, missing⟩
    exact ⟨placed, begun, outermost, words, lead, missing⟩

/-- The word is written in front of an outermost keyword exactly when it does not stand there. -/
theorem mem_classOffsets_iff {stripped : Text} {hit : Hit Unit}
    (occurs : hit ∈ occurrences class? stripped) (outermost : braceDepth hit.before = 0) :
    Text.octets hit.before ∈ classOffsets stripped ↔ ¬ FollowsStatic hit.before := by
  rw [← endsWith_static_iff]
  constructor
  · intro mem
    obtain ⟨hit', occurs', placed⟩ := List.mem_filterMap.1 mem
    obtain ⟨⟨-, apart⟩, size⟩ := Option.ite_none_right_eq_some.1 placed
    obtain ⟨_, _, whole, -⟩ := exists_of_mem_occurrences takes_class? occurs
    obtain ⟨_, _, whole', -⟩ := exists_of_mem_occurrences takes_class? occurs'
    obtain ⟨same, -⟩ := append_inj_of_octets (whole'.symm.trans whole) (Option.some.inj size)
    rwa [← same]
  · exact fun apart => List.mem_filterMap.2 ⟨hit, occurs, if_pos ⟨outermost, apart⟩⟩

/-- The places of classes are keywords of classes that lack the word exactly when each outermost
keyword is one of a declaration, whose lead has `static` at its end if at all, or has `static` in
front without being one. -/
theorem forall_classLacks_iff (source : Text) :
    (∀ place ∈ classOffsets (stripComments .java source), ClassLacks source place) ↔
      ∀ hit ∈ occurrences class? (stripComments .java source), braceDepth hit.before = 0 →
        ∃ rest, stripComments .java source = hit.before ++ rest ∧
          ((∃ words, Declares classModifiers source hit.before rest words ∧
              ("static".toList ∈ words →
                EndsInStatic classModifiers ((cutSegment hit.before).2 ++ rest) words rest)) ∨
            (∀ words, ¬ Declares classModifiers source hit.before rest words) ∧
              FollowsStatic hit.before) := by
  constructor
  · intro lacks hit occurs outermost
    obtain ⟨rest, _, whole, -⟩ := exists_of_mem_occurrences takes_class? occurs
    refine ⟨rest, whole, ?_⟩
    by_cases follows : FollowsStatic hit.before
    · by_cases declared : ∃ words, Declares classModifiers source hit.before rest words
      · obtain ⟨words, declares⟩ := declared
        exact Or.inl ⟨words, declares, fun _ => (followsStatic_iff declares.lead).1 follows⟩
      · exact Or.inr ⟨not_exists.1 declared, follows⟩
    · obtain ⟨front, rest', whole', size, lacking, -⟩ :=
        lacks _ ((mem_classOffsets_iff occurs outermost).2 follows)
      obtain ⟨rfl, rfl⟩ := append_inj_of_octets (whole'.symm.trans whole) size
      obtain ⟨words, declares, missing⟩ := lacks_iff.1 lacking
      exact Or.inl ⟨words, declares, fun mem => absurd mem missing⟩
  · intro keywords place mem
    obtain ⟨hit, occurs, placed⟩ := List.mem_filterMap.1 mem
    obtain ⟨⟨outermost, -⟩, size⟩ := Option.ite_none_right_eq_some.1 placed
    obtain rfl := Option.some.inj size
    have apart := (mem_classOffsets_iff occurs outermost).1 mem
    obtain ⟨t, behind, whole', read⟩ := exists_of_mem_occurrences takes_class? occurs
    obtain ⟨rest, whole, front⟩ := keywords hit occurs outermost
    obtain rfl := List.append_cancel_left (whole.symm.trans whole')
    obtain ⟨words, declares, ends⟩ := front.resolve_right fun ⟨_, follows⟩ => apart follows
    have missing : "static".toList ∉ words := fun mem =>
      apart ((followsStatic_iff declares.lead).2 (ends mem))
    exact ⟨hit.before, rest, whole, rfl, lacks_iff.2 ⟨words, declares, missing⟩,
      startsClass_of_class? read⟩

/-! ## All places -/

/-- The word is written where the type of an outermost method or the keyword of an outermost class
without `static` stands, in the code: at the places of methods exactly when these and the beginnings
of their declarations are in no literal, and at the places of classes exactly when each outermost
keyword of a class is one of a declaration, with `static` among its modifiers only if its lead ends
in it, or has `static` in front without being one. -/
theorem makeStatic_lacks_iff (source : Text) :
    ((∀ place ∈ methodOffsets (stripComments .java source), MethodLacks source place) ↔
      ∀ hit ∈ occurrences callable? (stripComments .java source), ∀ c,
        declared? .java hit = some c → c.depth = 0 → "static".toList ∉ c.modifiers →
          InCode source c.typeOffset ∧ InCode source (Text.octets (cutSegment hit.before).1)) ∧
    ((∀ place ∈ classOffsets (stripComments .java source), ClassLacks source place) ↔
      ∀ hit ∈ occurrences class? (stripComments .java source), braceDepth hit.before = 0 →
        ∃ rest, stripComments .java source = hit.before ++ rest ∧
          ((∃ words, Declares classModifiers source hit.before rest words ∧
              ("static".toList ∈ words →
                EndsInStatic classModifiers ((cutSegment hit.before).2 ++ rest) words rest)) ∨
            (∀ words, ¬ Declares classModifiers source hit.before rest words) ∧
              FollowsStatic hit.before)) :=
  ⟨forall_methodLacks_iff source, forall_classLacks_iff source⟩

/-- A modifier between `static` and the keyword hides it, and a literal is taken for code. -/
theorem makeStatic_repeated :
    makeStatic "static final class Pair {}" = "static final static class Pair {}" ∧
      makeStatic "String s = \"a class Foo\";" = "String s = \"a static class Foo\";" ∧
      makeStatic "String s = \"; int f() \x7b\x7d\";" =
        "String s = \"; static int f() \x7b\x7d\";" := by
  decide +kernel

end HarnessSynthesis.TypedSource
