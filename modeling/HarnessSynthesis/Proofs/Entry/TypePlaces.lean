/-
# Where the type of a method begins

A method is found by its name, and the place of its type depends on what stands in front of the
name. But the place can be told from the text around it alone: the lead that ends there is the same
whatever follows, since no name is read across it. So two methods whose declarations begin at one
place have their types at one place, and no method is found at the place of a type itself.
-/

import HarnessSynthesis.Proofs.Entry.Leads
import HarnessSynthesis.Proofs.Entry.StaticPlaces

namespace HarnessSynthesis.TypedSource

open Source
open scoped Text.OfCharacters
open Text (isBlank isAsciiBlank isNameChar isNameStart isWordChar)

/-! ## Items and what follows them -/

/-- A type begins where neither an annotation nor a template section nor a modifier does. -/
theorem read_eq_type_iff {t : Text} :
    HeaderItem.read t = .type ↔ t.head? ≠ some '@' ∧
      (¬ ∃ gap rest, Text.Blank gap ∧ t = "template".toList ++ (gap ++ '<' :: rest)) ∧
      t.takeWhile isNameChar ∉ modifierWords := by
  have angle : (∃ rest, (Text.afterPrefix? "template" t).map Text.trimStart = some ('<' :: rest)) ↔
      ∃ gap rest, Text.Blank gap ∧ t = "template".toList ++ (gap ++ '<' :: rest) := by
    constructor
    · rintro ⟨rest, h⟩
      obtain ⟨behind, keyword, start⟩ := Option.map_eq_some_iff.1 h
      refine ⟨_, rest, Text.blank_takeWhile behind, ?_⟩
      rw [← start, Text.takeWhile_append_trimStart, Text.afterPrefix?_eq_some_iff.1 keyword]
    · rintro ⟨gap, rest, blank, rfl⟩
      refine ⟨rest, ?_⟩
      rw [Text.afterPrefix?_append, Option.map_some, Text.trimStart_append_of_blank blank,
        Text.trimStart_cons_of_not_isBlank (by decide)]
  rw [← angle]
  unfold HeaderItem.read
  split
  · refine iff_of_false ?_ (fun h => h.1 rfl)
    dsimp only
    split
    · split <;> exact HeaderItem.noConfusion
    · exact HeaderItem.noConfusion
  · rename_i noAt
    have head : t.head? ≠ some '@' := by
      intro found
      obtain ⟨rest, rfl⟩ := List.head?_eq_some_iff.1 found
      exact noAt rest rfl
    split
    · rename_i rest keyword
      refine iff_of_false ?_ fun h => h.2.1 ⟨rest, keyword⟩
      split <;> exact HeaderItem.noConfusion
    · rename_i other
      dsimp only
      split
      · rename_i known
        exact iff_of_false HeaderItem.noConfusion fun h => h.2.2 known
      · rename_i unknown
        exact iff_of_true rfl ⟨head, fun h => h.elim other, unknown⟩

/-- An item does not end where the brackets of an annotation or a template section do not close. -/
theorem read_eq_unclosed_iff {t : Text} :
    HeaderItem.read t = .unclosed ↔
      (∃ name gap rest, t = '@' :: (name ++ (gap ++ '(' :: rest)) ∧
        (∀ c ∈ name, isAnnotationChar c = true) ∧ Text.Blank gap ∧
          closeBracket? '(' ')' 0 rest = none) ∨
      ∃ gap rest, t = "template".toList ++ (gap ++ '<' :: rest) ∧ Text.Blank gap ∧
        closeBracket? '<' '>' 0 rest = none := by
  constructor
  · intro unclosed
    unfold HeaderItem.read at unclosed
    split at unclosed
    · rename_i t
      have whole := List.takeWhile_append_dropWhile (p := isAnnotationChar) (l := t)
      have spaces := Text.takeWhile_append_trimStart (t.dropWhile isAnnotationChar)
      dsimp only at unclosed
      split at unclosed
      · rename_i opens
        obtain ⟨rest, start⟩ := Text.startsWith_iff.1 opens
        rw [← start] at spaces unclosed
        refine Or.inl ⟨t.takeWhile isAnnotationChar,
          (t.dropWhile isAnnotationChar).takeWhile isBlank, rest, ?_,
          fun c mem => List.mem_takeWhile_imp mem, Text.blank_takeWhile _, ?_⟩
        · exact congrArg ('@' :: ·) (by rw [← List.singleton_append, spaces, whole])
        · split at unclosed
          · cases unclosed
          · assumption
      · cases unclosed
    · split at unclosed
      · rename_i rest keyword
        obtain ⟨behind, keyword, start⟩ := Option.map_eq_some_iff.1 keyword
        refine Or.inr ⟨behind.takeWhile isBlank, rest, ?_, Text.blank_takeWhile behind, ?_⟩
        · rw [← start, Text.takeWhile_append_trimStart, Text.afterPrefix?_eq_some_iff.1 keyword]
        · split at unclosed
          · cases unclosed
          · assumption
      · dsimp only at unclosed
        split at unclosed <;> cases unclosed
  · rintro (⟨name, gap, rest, rfl, named, blank, open'⟩ | ⟨gap, rest, rfl, blank, open'⟩)
    · have start : Text.trimStart (gap ++ '(' :: rest) = '(' :: rest := by
        rw [Text.trimStart_append_of_blank blank, Text.trimStart_cons_of_not_isBlank (by decide)]
      rw [HeaderItem.read,
        (Text.takeWhile_dropWhile_append named (not_isAnnotationChar_gap blank)).2, start,
        parenthesized?, open']
      rfl
    · unfold HeaderItem.read
      split
      · rename_i whole
        cases whole
      · rw [Text.afterPrefix?_append, Option.map_some, Text.trimStart_append_of_blank blank,
          Text.trimStart_cons_of_not_isBlank (by decide)]
        simp only [angled?, open']

/-- A name begins behind a text, so that none goes across its end. -/
structure Ends (t behind : Text) : Prop where
  nonempty : t ≠ []
  last : wordMayBegin t.getLast? = true
  first : ∃ c ∈ behind.head?, isNameStart c = true

namespace Ends

variable {t behind : Text}

theorem exists_last (ends : Ends t behind) :
    ∃ front c, t = front ++ [c] ∧ isWordChar c = false := by
  rcases List.eq_nil_or_concat t with empty | ⟨front, c, whole⟩
  · exact absurd empty ends.nonempty
  · rw [List.concat_eq_append] at whole
    have last := ends.last
    rw [whole, List.getLast?_concat, wordMayBegin] at last
    exact ⟨front, c, whole, by simpa using last⟩

/-- A text that stands across the end has a first part of other characters than word
characters. -/
theorem exists_of_append {w rest u : Text} (ends : Ends t behind)
    (word : ∀ c ∈ w, isWordChar c = true) (same : t ++ u = w ++ rest) :
    ∃ more, t = w ++ more ∧ rest = more ++ u := by
  obtain ⟨front, c, rfl, other⟩ := ends.exists_last
  rcases List.append_eq_append_iff.1 same with ⟨more, whole, -⟩ | ⟨more, whole, behind⟩
  · have inside := word c (by
      rw [whole]
      exact List.mem_append_left _ (List.mem_append_right _ (List.mem_singleton_self c)))
    rw [other] at inside
    cases inside
  · exact ⟨more, whole, behind⟩

/-- Whether a type begins does not depend on what stands behind the end. -/
theorem read_append_iff (ends : Ends t behind) :
    HeaderItem.read (t ++ behind) = .type ↔ HeaderItem.read t = .type := by
  have known : ∀ word ∈ modifierWords, ∀ c ∈ word, isWordChar c = true := by decide +kernel
  have head : (t ++ behind).head? = t.head? := by
    rw [List.head?_append]
    obtain ⟨c, u, rfl⟩ := List.exists_cons_of_ne_nil ends.nonempty
    rfl
  have template : (∃ gap rest, Text.Blank gap ∧
      t ++ behind = "template".toList ++ (gap ++ '<' :: rest)) ↔
        ∃ gap rest, Text.Blank gap ∧ t = "template".toList ++ (gap ++ '<' :: rest) := by
    constructor
    · rintro ⟨gap, rest, blank, whole⟩
      obtain ⟨more, rfl, angle⟩ := ends.exists_of_append (by decide) whole
      obtain ⟨d, first, name⟩ := ends.first
      obtain ⟨behind', rfl⟩ := List.head?_eq_some_iff.1 first
      rcases Text.append_eq_append_cons angle.symm with ⟨more', rfl, -⟩ | ⟨more', rfl, later⟩
      · exact ⟨gap, more', blank, rfl⟩
      · cases more' with
        | nil =>
          obtain ⟨rfl, -⟩ := List.cons.inj later
          exact absurd name (by decide)
        | cons e more' =>
          obtain ⟨rfl, -⟩ := List.cons.inj later
          have space := blank d (List.mem_append_right _ List.mem_cons_self)
          rw [Text.isBlank_of_isNameStart name] at space
          cases space
    · rintro ⟨gap, rest, blank, rfl⟩
      exact ⟨gap, rest ++ behind, blank, by simp⟩
  have word : (t ++ behind).takeWhile isNameChar ∈ modifierWords ↔
      t.takeWhile isNameChar ∈ modifierWords := by
    rw [List.takeWhile_append]
    split
    · rename_i all
      -- the text is a part of the word, but its last character is none of a modifier
      obtain ⟨front, c, rfl, other⟩ := ends.exists_last
      have inside {u : Text} : (front ++ [c]) ++ u ∉ modifierWords := fun mem => by
        have := known _ mem c (List.mem_append_left _
          (List.mem_append_right _ (List.mem_singleton_self c)))
        rw [other] at this
        cases this
      have whole : (front ++ [c]).takeWhile isNameChar = front ++ [c] :=
        (List.takeWhile_prefix _).eq_of_length all
      rw [whole]
      refine iff_of_false inside ?_
      rw [← List.append_nil (front ++ [c])]
      exact inside
    · exact Iff.rfl
  rw [read_eq_type_iff, read_eq_type_iff, head, template, word]

end Ends

/-! ## The characters of a type -/

/-- What is dropped from a type are names, colons and blanks. -/
theorem exists_dropped (type : Text) :
    ∃ dropped, type = dropQualifiers type ++ dropped ∧
      ∀ c ∈ dropped, c = ':' ∨ isNameChar c = true ∨ isBlank c = true := by
  fun_induction dropQualifiers type with
  | case1 type => exact ⟨[], (List.append_nil type).symm, List.forall_mem_nil _⟩
  | case2 type rest found ih =>
    obtain ⟨dropped, whole, known⟩ := ih
    obtain ⟨count, colons⟩ := Text.exists_eq_trimEndMatches_append "::" rest
    have names := Text.dropEndWhile_append_takeEndWhile isNameChar (Text.trimEndMatches "::" rest)
    have blanks := Text.trimEnd_append_takeEndWhile
      ((Text.trimEndMatches "::" rest).dropEndWhile isNameChar)
    refine ⟨dropped ++ (Text.takeEndWhile isBlank
        ((Text.trimEndMatches "::" rest).dropEndWhile isNameChar) ++
      (Text.takeEndWhile isNameChar (Text.trimEndMatches "::" rest) ++
        (Text.repeated count "::" ++ "::"))), ?_, ?_⟩
    · rw [← List.append_assoc, ← whole, ← List.append_assoc, blanks, ← List.append_assoc, names,
        ← List.append_assoc, ← colons]
      exact Text.beforeSuffix?_eq_some_iff.1 found
    · have colon : ∀ c ∈ "::".toList, c = ':' := by decide
      simp only [List.forall_mem_append]
      refine ⟨known, fun c mem => Or.inr (Or.inr ?_), fun c mem => Or.inr (Or.inl ?_), ?_, ?_⟩
      · exact List.mem_takeWhile_imp (List.mem_reverse.1 mem)
      · exact List.mem_takeWhile_imp (List.mem_reverse.1 mem)
      · intro c mem
        obtain ⟨piece, copy, mem⟩ := List.mem_flatten.1 mem
        rw [(List.mem_replicate.1 copy).2] at mem
        exact Or.inl (colon c mem)
      · exact fun c mem => Or.inl (colon c mem)

/-- A type without a section of type parameters holds no parenthesis. -/
theorem not_mem_of_isReturnType {type : Text} {c : Char}
    (isType : isReturnType (dropQualifiers type.trim) = true)
    (head : (Text.trimStart type).head? = some c) (other : c ≠ '<') : '(' ∉ type := by
  obtain ⟨d, rest, text, -⟩ := head_of_isReturnType isType
  have front : d :: rest <+: Text.trimStart type :=
    (text ▸ dropQualifiers_isPrefix _ : d :: rest <+: type.trim).trans (dropEndWhile_isPrefix _ _)
  obtain ⟨behind, start⟩ := front
  rw [← start] at head
  obtain rfl : d = c := Option.some.inj head
  have chars : ∀ e ∈ dropQualifiers type.trim, e ≠ '(' := by
    simp only [isReturnType, Bool.and_eq_true] at isType
    have typeText := isType.2
    rw [text, isTypeText, skipTypeSection?] at typeText
    · simp only [Bool.and_eq_true, List.all_eq_true] at typeText
      rw [text, List.forall_mem_cons]
      refine ⟨?_, fun e mem => ?_⟩
      · rintro rfl
        exact absurd typeText.1 (by decide)
      · rintro rfl
        exact absurd (typeText.2 _ mem) (by decide)
    · rintro rest' same
      exact other (List.cons.inj same).1
  obtain ⟨dropped, whole, known⟩ := exists_dropped type.trim
  obtain ⟨b, b', blank, blank', trimmed⟩ := Text.exists_eq_append_trim type
  rw [trimmed, whole]
  simp only [List.mem_append, not_or]
  refine ⟨fun mem => ?_, ⟨fun mem => chars _ mem rfl, fun mem => ?_⟩, fun mem => ?_⟩
  · exact absurd (blank _ mem) (by decide)
  · rcases known _ mem with colon | name | blank
    · exact absurd colon (by decide)
    · exact absurd name (by decide)
    · exact absurd blank (by decide)
  · exact absurd (blank' _ mem) (by decide)

/-! ## Bodies -/

/-- A body opens with a brace, and only tail words and thrown types stand in front of it. -/
theorem exists_of_bodyFollows {fuel : Nat} {t : Text} (h : bodyFollows fuel t = true) :
    ∃ tail behind, t = tail ++ '{' :: behind ∧ ∀ c ∈ tail, isThrowsChar c = true := by
  induction fuel generalizing t with
  | zero => cases h
  | succ fuel ih =>
    have whole := Text.takeWhile_append_trimStart t
    have blank : ∀ c ∈ t.takeWhile isBlank, isThrowsChar c = true := fun c mem => by
      simp [isThrowsChar, Text.blank_takeWhile t c mem]
    have further {front rest : Text} (split : Text.trimStart t = front ++ rest)
        (known : ∀ c ∈ front, isThrowsChar c = true)
        (found : ∃ tail behind, rest = tail ++ '{' :: behind ∧ ∀ c ∈ tail, isThrowsChar c = true) :
        ∃ tail behind, t = tail ++ '{' :: behind ∧ ∀ c ∈ tail, isThrowsChar c = true := by
      obtain ⟨tail, behind, rfl, known'⟩ := found
      refine ⟨t.takeWhile isBlank ++ (front ++ tail), behind, ?_, ?_⟩
      · rw [List.append_assoc, List.append_assoc, ← split, whole]
      · exact List.forall_mem_append.2 ⟨blank, List.forall_mem_append.2 ⟨known, known'⟩⟩
    rw [bodyFollows] at h
    dsimp only at h
    split at h
    · rename_i brace
      obtain ⟨rest, start⟩ := Text.startsWith_iff.1 brace
      have split : Text.trimStart t = [] ++ ('{' :: rest) := start.symm
      exact further split nofun ⟨[], rest, rfl, nofun⟩
    · split at h
      · rename_i read
        obtain ⟨mem, split⟩ := eq_append_of_anyOf? read
        have all : ∀ word ∈ tailWords, ∀ c ∈ word, isThrowsChar c = true := by decide +kernel
        exact further split (all _ mem) (ih h)
      · split at h
        · cases h
        · rename_i rest read
          have types := List.takeWhile_append_dropWhile (p := isThrowsChar) (l := rest)
          rw [Bool.and_eq_true, Bool.and_eq_true] at h
          obtain ⟨behind, start⟩ := Text.startsWith_iff.1 h.2
          refine further (Text.afterPrefix?_eq_some_iff.1 read) (by decide +kernel)
            ⟨rest.takeWhile isThrowsChar, behind, ?_, fun c mem => List.mem_takeWhile_imp mem⟩
          rw [← List.singleton_append, start, types]

/-- No body follows behind a character that is in the way of one. -/
theorem bodyFollows_append_cons {t rest : Text} {c : Char} (stops : isThrowsChar c = false)
    (other : c ≠ '{') (noBrace : '{' ∉ t) (fuel : Nat) :
    bodyFollows fuel (t ++ c :: rest) = false := by
  refine Bool.eq_false_iff.2 fun body => ?_
  obtain ⟨tail, behind, whole, known⟩ := exists_of_bodyFollows body
  rcases Text.append_eq_append_cons whole with ⟨more, rfl, -⟩ | ⟨more, rfl, later⟩
  · exact noBrace (List.mem_append_right _ List.mem_cons_self)
  · cases more with
    | nil => exact other (List.cons.inj later).1
    | cons d more =>
      obtain ⟨rfl, -⟩ := List.cons.inj later
      have inside := known c (List.mem_append_right _ List.mem_cons_self)
      rw [stops] at inside
      cases inside

/-! ## Places of types -/

/-- A type behind some text, and behind the type the name and the parameters of a method. -/
structure TypeAt (front type named : Text) : Prop where
  lead : ∃ words, Lead modifierWords ((cutSegment front).2 ++ type) words type
  stops : HeaderItem.read type = .type
  isType : isReturnType (dropQualifiers type.trim) = true
  starts : ∃ c ∈ type.head?, StartsType c
  inside : ∀ c ∈ type, endsStatement c = false
  begins : wordMayBegin type.getLast? = true
  named : ∃ name gap arguments, named = name ++ (gap ++ '(' :: arguments) ∧
    IsName isNameStart isWordChar name ∧ Text.Blank gap

/-- The type of a candidate is at its place. -/
theorem typeAt_of_declared? {stripped : Text} {hit : Hit (Text × Text)} {c : Candidate}
    (occurs : hit ∈ occurrences callable? stripped) (h : declared? .java hit = some c) :
    ∃ front type named, stripped = front ++ (type ++ named) ∧ hit.before = front ++ type ∧
      Text.octets front = c.typeOffset ∧ (cutSegment front).1 = (cutSegment hit.before).1 ∧
      TypeAt front type named := by
  obtain ⟨-, -, header, -, -, -, read, -, -, -, place⟩ := exists_of_declared? h
  obtain ⟨named, behind, whole, found⟩ := exists_of_mem_occurrences readsTo_callable?.takes occurs
  obtain ⟨inside, ⟨gap, blank, spelled⟩, name⟩ := exists_of_callable?
    (found : callable? _ _ = some ((hit.found.1, hit.found.2), behind))
  obtain ⟨_, begins, -⟩ := Option.bind_eq_some_iff.1 found
  obtain ⟨type, before, lead, stops, isType, inType, begun, -⟩ := exists_lead_of_header? read
  obtain ⟨c, more, before', starts⟩ := exists_of_header? read
  obtain rfl : type = c :: more := List.append_cancel_left (before.symm.trans before')
  have last : hit.before.getLast? = (c :: more).getLast? := by
    rw [before, List.getLast?_append_cons]
  refine ⟨header.before, c :: more, named, ?_, before, place.symm, begun, ⟨_, lead⟩, stops, isType,
    ⟨c, rfl, starts⟩, inType, ?_, _, gap, behind, spelled, name, blank⟩
  · rw [whole, before, List.append_assoc]
  · rw [← last]
    simpa using begins

namespace TypeAt

variable {front type named : Text}

theorem ends (place : TypeAt front type named) : Ends type named := by
  obtain ⟨c, head, -⟩ := place.starts
  obtain ⟨name, gap, arguments, rfl, ⟨d, more, rfl, starts, -⟩, -⟩ := place.named
  refine ⟨?_, place.begins, d, rfl, starts⟩
  rintro rfl
  cases head

/-- The first visible character of a type. -/
theorem exists_visible (place : TypeAt front type named) : ∃ c rest,
    Text.trimStart type = c :: rest ∧ (isNameStart c = true ∨ c = '<') := by
  obtain ⟨c, rest, text, starts⟩ := head_of_isReturnType place.isType
  have prefixed : c :: rest <+: Text.trimStart type :=
    (text ▸ dropQualifiers_isPrefix _ : c :: rest <+: type.trim).trans (dropEndWhile_isPrefix _ _)
  obtain ⟨behind, start⟩ := prefixed
  exact ⟨c, rest ++ behind, start.symm, starts⟩

theorem trimStart_append (place : TypeAt front type named) :
    Text.trimStart (type ++ named) = Text.trimStart type ++ named := by
  obtain ⟨c, rest, start, -⟩ := place.exists_visible
  rw [Text.trimStart, List.dropWhile_append]
  change (if (Text.trimStart type).isEmpty = true then _ else Text.trimStart type ++ named) = _
  rw [start]
  rfl

theorem stops_append (place : TypeAt front type named) :
    HeaderItem.read (type ++ named) = .type :=
  place.ends.read_append_iff.2 place.stops

theorem visible_append (place : TypeAt front type named) :
    ∀ c ∈ (type ++ named).head?, isAsciiBlank c = false := by
  obtain ⟨c, head, starts⟩ := place.starts
  obtain ⟨rest, rfl⟩ := List.head?_eq_some_iff.1 head
  exact visible_cons c _ starts.isAsciiBlank

theorem lead_append (place : TypeAt front type named) :
    ∃ words,
      Lead modifierWords ((cutSegment front).2 ++ (type ++ named)) words (type ++ named) := by
  obtain ⟨words, lead⟩ := place.lead
  obtain ⟨c, rest, start, starts⟩ := place.exists_visible
  have head : (type ++ named).head? = type.head? := by
    rw [List.head?_append]
    obtain ⟨d, u, rfl⟩ := List.exists_cons_of_ne_nil place.ends.nonempty
    rfl
  have other : ¬ StartsArguments (type ++ named) := by
    rw [StartsArguments, place.trimStart_append, start]
    rintro same
    obtain rfl := Option.some.inj same
    exact absurd starts (by decide)
  obtain ⟨passed, whole, lead'⟩ := lead.congr head other
  obtain rfl := List.append_cancel_right whole
  exact ⟨words, lead'⟩

/-- Where declarations begin at one place, their types do. -/
theorem front_eq {front' type' named' : Text} (place : TypeAt front type named)
    (place' : TypeAt front' type' named')
    (whole : front ++ (type ++ named) = front' ++ (type' ++ named'))
    (begun : (cutSegment front).1 = (cutSegment front').1) : front = front' := by
  obtain ⟨words, lead⟩ := place.lead_append
  obtain ⟨words', lead'⟩ := place'.lead_append
  have rest :
      (cutSegment front).2 ++ (type ++ named) = (cutSegment front').2 ++ (type' ++ named') := by
    rw [← cutSegment_append front, ← cutSegment_append front', ← begun, List.append_assoc,
      List.append_assoc] at whole
    exact List.append_cancel_left whole
  rw [rest] at lead
  obtain ⟨-, same⟩ := lead.unique lead' place.stops_append place'.stops_append place.visible_append
    place'.visible_append
  rw [same] at whole
  exact List.append_cancel_right whole

/-- Unless the type starts with a section of type parameters, the next parenthesis is the one behind
the name, and no brace is in front of it. -/
theorem exists_parenthesis (place : TypeAt front type named) {c : Char}
    (head : (Text.trimStart type).head? = some c) (other : c ≠ '<') :
    ∃ name gap arguments, named = name ++ (gap ++ '(' :: arguments) ∧
      IsName isNameStart isWordChar name ∧ Text.Blank gap ∧
        '(' ∉ type ++ (name ++ gap) ∧ '{' ∉ type ++ (name ++ gap) := by
  obtain ⟨name, gap, arguments, whole, isName, blank⟩ := place.named
  have word := isWordChar_of_isName isName
  refine ⟨name, gap, arguments, whole, isName, blank, ?_, ?_⟩
  · simp only [List.mem_append, not_or]
    exact ⟨not_mem_of_isReturnType place.isType head other,
      fun mem => absurd (word _ mem) (by decide), fun mem => absurd (blank _ mem) (by decide)⟩
  · simp only [List.mem_append, not_or]
    exact ⟨fun mem => absurd (place.inside _ mem) (by decide),
      fun mem => absurd (word _ mem) (by decide), fun mem => absurd (blank _ mem) (by decide)⟩

/-- No name in front of a parenthesis stands where a type begins. -/
theorem callable?_eq_none (place : TypeAt front type named) (previous : Option Char) :
    callable? previous (type ++ named) = none := by
  refine Option.eq_none_iff_forall_ne_some.2 fun ⟨⟨found, inside⟩, behind⟩ read => ?_
  obtain ⟨-, ⟨gap', blank', whole⟩, isName'⟩ := exists_of_callable? read
  have word' := isWordChar_of_isName isName'
  obtain ⟨d, more, rfl, starts, -⟩ := isName'
  obtain ⟨c, head, -⟩ := place.starts
  obtain ⟨type', rfl⟩ := List.head?_eq_some_iff.1 head
  obtain ⟨rfl, -⟩ : c = d ∧ _ := List.cons.inj whole
  -- the type starts with the name, so it has no section of type parameters
  have start : (Text.trimStart (c :: type')).head? = some c := by
    rw [Text.trimStart_cons_of_not_isBlank (Text.isBlank_of_isNameStart starts)]
    rfl
  obtain ⟨name, gap, arguments, rfl, isName, blank, noParen, -⟩ :=
    place.exists_parenthesis start (by rintro rfl; exact absurd starts (by decide))
  have noParen' : '(' ∉ (c :: more) ++ gap' := by
    rw [List.mem_append, not_or]
    exact ⟨fun mem => absurd (word' _ mem) (by decide),
      fun mem => absurd (blank' _ mem) (by decide)⟩
  have same : c :: type' ++ (name ++ gap) = (c :: more) ++ gap' := by
    have across : c :: type' ++ (name ++ gap) ++ '(' :: arguments =
        (c :: more) ++ gap' ++ '(' :: behind := by
      simpa using whole
    exact (Text.append_cons_inj_of_fronts noParen noParen' across).1
  obtain ⟨rest, -, rfl⟩ := place.ends.exists_of_append word' same
  obtain ⟨d, name, rfl, first, -⟩ := isName
  have space := blank' d (by simp)
  rw [Text.isBlank_of_isNameStart first] at space
  cases space

/-- No body follows where a type begins. -/
theorem bodyFollows_eq_false (place : TypeAt front type named) (fuel : Nat) :
    bodyFollows fuel (type ++ named) = false := by
  obtain ⟨c, rest, start, starts⟩ := place.exists_visible
  by_cases angle : c = '<'
  · have whole := Text.takeWhile_append_trimStart type
    have noBrace : '{' ∉ type.takeWhile isBlank := fun mem =>
      absurd (Text.blank_takeWhile type _ mem) (by decide)
    rw [← whole, start, angle, List.append_assoc, List.cons_append]
    exact bodyFollows_append_cons (by decide) (by decide) noBrace fuel
  · obtain ⟨name, gap, arguments, rfl, -, -, -, noBrace⟩ :=
      place.exists_parenthesis (by rw [start]; rfl) angle
    rw [← List.append_assoc name, ← List.append_assoc]
    exact bodyFollows_append_cons (by decide) (by decide) noBrace fuel

end TypeAt

end HarnessSynthesis.TypedSource
