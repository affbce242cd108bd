/-
# Types of marked texts

A type stays one when keywords of classes in it are marked, and nothing becomes one. A type loses
its qualifiers from the end, and each of them takes a name with it; what goes on with a blank behind
its keyword is never reached. So the same part is left of both texts, and the word is made of
characters of types.
-/

import HarnessSynthesis.Proofs.Entry.MarkedHeaders

namespace HarnessSynthesis.TypedSource

open Source
open scoped Text.OfCharacters
open Text (isBlank isAsciiBlank isNameChar isNameStart isWordChar)

/-! ## Ends of texts -/

/-- A part up to a character that the rest does not hold is in front of the rest. -/
theorem exists_of_append_eq {t u w r : Text} {d : Char} (same : t ++ u = w ++ d :: r)
    (absent : d ∉ u) : ∃ r', t = w ++ d :: r' ∧ r = r' ++ u := by
  refine (Text.append_eq_append_cons same).resolve_right ?_
  rintro ⟨more, -, rfl⟩
  exact absent (List.mem_append_right more List.mem_cons_self)

namespace Marked

variable {m : Marked} {p : Char → Bool}

/-! ## What is left of a type -/

/-- A run at the end of both texts, unless a mark is in it. -/
theorem exists_end (m : Marked)
    (inFront : ∀ a c b, m = a ++ (true, c) :: b → ∃ d ∈ c :: bare b, p d = false) :
    ∃ a run, m = a ++ unmarked run ∧ (∀ c ∈ run, p c = true) ∧
      (bare m).dropEndWhile p = bare a ∧ (written m).dropEndWhile p = written a := by
  have split : ∃ a run, m = a ++ unmarked run ∧ (∀ c ∈ run, p c = true) ∧
      ∀ c ∈ (bare a).getLast?, p c = false := by
    induction m using List.reverseRecOn with
    | nil => exact ⟨[], [], rfl, nofun, nofun⟩
    | append_singleton m x ih =>
      obtain ⟨k, c⟩ := x
      cases within : p c with
      | false =>
        refine ⟨m ++ [(k, c)], [], by simp [unmarked], nofun, fun d last => ?_⟩
        rw [bare_append, bare_cons, bare_nil, List.getLast?_concat] at last
        cases last
        exact within
      | true =>
        obtain rfl : k = false := by
          cases k with
          | false => rfl
          | true =>
            obtain ⟨d, mem, stops⟩ := inFront m c [] rfl
            rw [List.mem_singleton.1 mem, within] at stops
            cases stops
        obtain ⟨a, run, rfl, all, stops⟩ := ih fun a d b whole => by
          obtain ⟨e, mem, stops⟩ := inFront a d (b ++ [(false, c)]) (by rw [whole]; simp)
          refine ⟨e, ?_, stops⟩
          rw [bare_append, ← List.cons_append] at mem
          refine (List.mem_append.1 mem).resolve_right fun last => ?_
          rw [List.mem_singleton.1 last, within] at stops
          cases stops
        refine ⟨a, run ++ [c], by simp [unmarked], ?_, stops⟩
        exact List.forall_mem_append.2 ⟨all, by simpa using within⟩
  obtain ⟨a, run, rfl, all, stops⟩ := split
  refine ⟨a, run, rfl, all, ?_, ?_⟩
  · rw [bare_append, bare_unmarked, Text.dropEndWhile_append all stops]
  · rw [written_append, written_unmarked, Text.dropEndWhile_append all (by rwa [getLast?_written])]

theorem exists_of_getLast? {c : Char} (spaced : Spaced m) (other : ¬ StartsType c)
    (last : (bare m).getLast? = some c) : ∃ a, m = a ++ [(false, c)] := by
  rcases List.eq_nil_or_concat m with rfl | ⟨m, ⟨k, d⟩, rfl⟩
  · cases last
  · rw [List.concat_eq_append] at spaced last ⊢
    rw [bare_append, bare_cons, bare_nil, List.getLast?_concat, Option.some_inj] at last
    subst last
    obtain rfl := spaced.right.eq_false other
    exact ⟨m, rfl⟩

/-- Colons at the end of one text are at the end of the other. -/
theorem beforeSuffix?_cases (spaced : Spaced m) :
    (∃ a, m = a ++ unmarked "::") ∨
      Text.beforeSuffix? "::" (bare m) = none ∧ Text.beforeSuffix? "::" (written m) = none := by
  have ends {text : Marked → Text} {rest : Text}
      (last : ∀ m, (text m).getLast? = (bare m).getLast?)
      (append : ∀ a, text (a ++ [(false, ':')]) = text a ++ [':'])
      (found : Text.beforeSuffix? "::" (text m) = some rest) : ∃ a, m = a ++ unmarked "::" := by
    have whole : text m = (rest ++ [':']) ++ [':'] := by
      rw [Text.beforeSuffix?_eq_some_iff.1 found, List.append_assoc]
      rfl
    obtain ⟨a, rfl⟩ := exists_of_getLast? (c := ':') spaced (by decide) (by
      rw [← last, whole, List.getLast?_concat])
    rw [append] at whole
    obtain ⟨a, rfl⟩ := exists_of_getLast? (c := ':') spaced.left (by decide) (by
      rw [← last, List.append_cancel_right whole, List.getLast?_concat])
    exact ⟨a, List.append_assoc a [(false, ':')] [(false, ':')]⟩
  cases bareEnd : Text.beforeSuffix? "::" (bare m) with
  | some rest => exact Or.inl (ends (fun _ => rfl) (fun a => bare_append) bareEnd)
  | none =>
    cases writtenEnd : Text.beforeSuffix? "::" (written m) with
    | some rest =>
      exact Or.inl (ends (fun _ => getLast?_written) (fun a => written_append) writtenEnd)
    | none => exact Or.inr ⟨rfl, rfl⟩

theorem exists_trimEndMatches (spaced : Spaced m) : ∃ a colons, m = a ++ unmarked colons ∧
    (∀ c ∈ colons, c = ':') ∧ Text.trimEndMatches "::" (bare m) = bare a ∧
      Text.trimEndMatches "::" (written m) = written a := by
  induction length : m.length using Nat.strongRecOn generalizing m with
  | ind n ih =>
    rcases beforeSuffix?_cases spaced with ⟨a, rfl⟩ | ⟨none, none'⟩
    · obtain ⟨a, colons, rfl, all, trimmed, trimmed'⟩ := ih a.length (by
        rw [← length, List.length_append]
        exact Nat.lt_add_of_pos_right (by decide)) spaced.left rfl
      refine ⟨a, colons ++ "::", by simp [unmarked], ?_, ?_, ?_⟩
      · exact List.forall_mem_append.2 ⟨all, by decide⟩
      · rw [bare_append (b := unmarked "::"), bare_unmarked,
          Text.trimEndMatches_append (by decide), trimmed]
      · rw [written_append (b := unmarked "::"), written_unmarked,
          Text.trimEndMatches_append (by decide), trimmed']
    · refine ⟨m, [], (List.append_nil m).symm, List.forall_mem_nil _, ?_, ?_⟩
      · rw [Text.trimEndMatches_of_none none]
      · rw [Text.trimEndMatches_of_none none']

/-- Without blanks at the end all marks are still at keywords of classes. -/
theorem OnKeywords.trimEnd {a : Marked} {blanks : Text} (blank : Text.Blank blanks)
    (keywords : OnKeywords (a ++ unmarked blanks) 0) : OnKeywords a 0 := by
  intro a' c b whole _
  obtain ⟨rest, keyword, ends⟩ := keywords a' c (b ++ unmarked blanks) (by rw [whole]; simp)
    (Nat.zero_le _)
  rw [bare_append, bare_unmarked, ← List.cons_append] at keyword
  obtain ⟨rest', keyword', rfl⟩ := exists_of_append_eq (w := "clas") (d := 's') (r := rest) keyword
    fun mem => absurd (blank _ mem) (by decide)
  refine ⟨rest', keyword', fun d head => ends d ?_⟩
  obtain ⟨rest'', rfl⟩ := List.head?_eq_some_iff.1 head
  rfl

theorem OnKeywords.exists_trimEnd (keywords : OnKeywords m 0) : ∃ a blanks,
    m = a ++ unmarked blanks ∧ Text.Blank blanks ∧ Text.trimEnd (bare m) = bare a ∧
      Text.trimEnd (written m) = written a :=
  exists_end m fun a c b whole => by
    obtain ⟨rest, keyword, -⟩ := keywords a c b whole (Nat.zero_le _)
    exact ⟨'c', by rw [keyword]; simp, by decide⟩

/-- Whether each mark is at the keyword of a class with a blank behind it. -/
def Followed (m : Marked) : Prop :=
  ∀ a c b, m = a ++ (true, c) :: b →
    ∃ d rest, c :: bare b = "class".toList ++ d :: rest ∧ isBlank d = true

theorem Followed.onKeywords (followed : Followed m) : OnKeywords m 0 := fun a c b whole _ => by
  obtain ⟨d, rest, keyword, space⟩ := followed a c b whole
  exact ⟨d :: rest, keyword, by rintro e ⟨⟩; exact space⟩

/-- In front of other characters than blanks all marks are still followed. -/
theorem Followed.left {a : Marked} {t : Text} (visible : ∀ c ∈ t, isBlank c = false)
    (followed : Followed (a ++ unmarked t)) : Followed a := fun a' c b whole => by
  obtain ⟨d, rest, keyword, space⟩ := followed a' c (b ++ unmarked t) (by rw [whole]; simp)
  rw [bare_append, bare_unmarked, ← List.cons_append] at keyword
  obtain ⟨rest', keyword', -⟩ := exists_of_append_eq keyword fun mem => by
    rw [visible d mem] at space
    cases space
  exact ⟨d, rest', keyword', space⟩

/-- A keyword that the text does not end in has a blank behind it. -/
theorem OnKeywords.followed (keywords : OnKeywords m 0) (ends : ¬ "class".toList <:+ bare m) :
    Followed m := fun a c b whole => by
  obtain ⟨rest, keyword, blank⟩ := keywords a c b whole (Nat.zero_le _)
  cases rest with
  | nil =>
    rw [List.append_nil] at keyword
    refine absurd ⟨bare a, ?_⟩ ends
    rw [whole, bare_append, bare_cons, keyword]
  | cons d rest => exact ⟨d, rest, keyword, blank d rfl⟩

/-- The same part is left of both types without their qualifiers. -/
theorem exists_dropQualifiers (spaced : Spaced m) (keywords : OnKeywords m 0) :
    ∃ a b, m = a ++ b ∧ dropQualifiers (bare m) = bare a ∧ dropQualifiers (written m) = written a ∧
      OnKeywords a 0 := by
  induction length : m.length using Nat.strongRecOn generalizing m with
  | ind n ih =>
    rcases beforeSuffix?_cases spaced with ⟨a, rfl⟩ | ⟨none, none'⟩
    case inr =>
      exact ⟨m, [], (List.append_nil m).symm, dropQualifiers_of_none none,
        dropQualifiers_of_none none', keywords⟩
    case inl =>
      have ends : ¬ "class".toList <:+ bare (a ++ unmarked "::") := by
        rintro ⟨front, whole⟩
        have last := congrArg List.getLast? whole
        rw [bare_append, bare_unmarked, List.getLast?_append, List.getLast?_append] at last
        exact absurd (Option.some.inj last) (by decide)
      have followed := (keywords.followed ends).left (by decide)
      obtain ⟨a, colons, rfl, allColons, trimmed, trimmed'⟩ := exists_trimEndMatches spaced.left
      have followed' := followed.left fun c mem => by
        rw [allColons c mem]
        decide
      obtain ⟨a, names, rfl, allNames, dropped, dropped'⟩ := exists_end (p := isNameChar) a
        fun a' c b whole => by
          obtain ⟨d, rest, keyword, space⟩ := followed' a' c b whole
          exact ⟨d, by rw [keyword]; simp, Text.isNameChar_of_isBlank space⟩
      have followed'' := followed'.left fun c mem => by
        rw [← Bool.not_eq_true]
        intro space
        have name := allNames c mem
        rw [Text.isNameChar_of_isBlank space] at name
        cases name
      obtain ⟨a, blanks, rfl, allBlanks, ended, ended'⟩ := followed''.onKeywords.exists_trimEnd
      obtain ⟨a, b, rfl, result, result', keywords'⟩ := ih a.length (by
        rw [← length]
        simp only [List.length_append, unmarked, List.length_map]
        have : 0 < "::".toList.length := by decide
        omega) spaced.left.left.left.left (followed''.onKeywords.trimEnd allBlanks) rfl
      refine ⟨a, b ++ (unmarked blanks ++ (unmarked names ++ (unmarked colons ++ unmarked "::"))),
        by simp, ?_, ?_, keywords'⟩
      · rw [bare_append (b := unmarked "::"), bare_unmarked, dropQualifiers_append, trimmed,
          dropped, ended, result]
      · rw [written_append (b := unmarked "::"), written_unmarked, dropQualifiers_append, trimmed',
          dropped', ended', result']

/-! ## Whether it is a type -/

theorem endsWith_singleton {c : Char} {t : Text} :
    Text.endsWith [c] t = true ↔ t.getLast? = some c := by
  rw [Text.endsWith, Option.isSome_iff_exists]
  constructor
  · rintro ⟨rest, found⟩
    rw [Text.beforeSuffix?_eq_some_iff.1 found, List.getLast?_concat]
  · intro last
    obtain ⟨rest, rfl⟩ := List.getLast?_eq_some_iff.1 last
    exact ⟨rest, Text.beforeSuffix?_eq_some_iff.2 rfl⟩

/-- The word is made of characters of types. -/
theorem all_isTypeChar_written (m : Marked) :
    (written m).all isTypeChar = (bare m).all isTypeChar := by
  rw [Bool.eq_iff_iff, List.all_eq_true, List.all_eq_true]
  refine ⟨fun all c mem => all c (mem_written_of_mem_bare mem), fun all c mem => ?_⟩
  exact (mem_written mem).elim (all c)
    ((by decide +kernel : ∀ c ∈ "static ".toList, isTypeChar c = true) c)

/-- Whether a text is a name and then only characters of types. -/
def isNamedType : Text → Bool
  | c :: rest => isNameStart c && rest.all isTypeChar
  | [] => false

theorem isTypeText_eq (t : Text) :
    isTypeText t = match skipTypeSection? t with | some t => isNamedType t | none => false := by
  rw [isTypeText]
  cases skipTypeSection? t with
  | none => rfl
  | some t => cases t <;> rfl

theorem isNamedType_written (keywords : OnKeywords m 0) :
    isNamedType (written m) = isNamedType (bare m) := by
  cases m with
  | nil => rfl
  | cons x m =>
    obtain ⟨k, c⟩ := x
    cases k with
    | false => rw [written_cons_false, bare_cons, isNamedType, isNamedType, all_isTypeChar_written]
    | true =>
      obtain rfl := keywords.eq_c (Nat.zero_le _)
      have static : written ((true, 'c') :: m) = 's' :: ("tatic c" ++ written m) := by
        rw [written_cons]
        rfl
      rw [static, bare_cons, isNamedType, isNamedType, List.all_append, all_isTypeChar_written]
      rfl

/-- No blank is marked, so the same blanks are trimmed off. -/
theorem exists_trimStart (keywords : OnKeywords m 0) : ∃ gap b, m = unmarked gap ++ b ∧
    Text.Blank gap ∧ (∀ x ∈ b.head?, isBlank x.2 = false) ∧ Text.trimStart (bare m) = bare b ∧
      Text.trimStart (written m) = written b := by
  obtain ⟨gap, b, rfl, blank, stops⟩ := exists_gap m
  rw [bare_append, bare_unmarked, written_append, written_unmarked,
    Text.trimStart_append_of_blank blank, Text.trimStart_append_of_blank blank]
  cases b with
  | nil => exact ⟨gap, [], rfl, blank, nofun, rfl, rfl⟩
  | cons x b =>
    obtain ⟨k, c⟩ := x
    have visible : isBlank c = false := by
      rcases stops _ rfl with rfl | visible
      · rw [keywords.right.eq_c (Nat.zero_le _)]
        decide
      · exact visible
    refine ⟨gap, (k, c) :: b, rfl, blank, ?_, Text.trimStart_cons_of_not_isBlank visible, ?_⟩
    · rintro x ⟨⟩
      exact visible
    · cases k with
      | true => exact Text.trimStart_cons_of_not_isBlank (by decide)
      | false => exact Text.trimStart_cons_of_not_isBlank visible

theorem isNamedType_trimStart (keywords : OnKeywords m 0) :
    isNamedType (Text.trimStart (written m)) = isNamedType (Text.trimStart (bare m)) := by
  obtain ⟨gap, b, rfl, -, -, start, start'⟩ := exists_trimStart keywords
  rw [start, start', isNamedType_written keywords.right]

/-- A text is a type when it is one with the word in front of keywords of classes. -/
theorem isTypeText_written (spaced : Spaced m) (plain : Plain m) (keywords : OnKeywords m 0) :
    isTypeText (written m) = isTypeText (bare m) := by
  rw [isTypeText_eq, isTypeText_eq]
  cases m with
  | nil => rfl
  | cons x m =>
    obtain ⟨k, c⟩ := x
    obtain rfl := plain_cons.1 plain
    by_cases angle : c = '<'
    · subst angle
      have section' (t : Text) : skipTypeSection? ('<' :: t) =
        (Text.afterPrefix? ['>'] (t.dropWhile (· != '>'))).map Text.trimStart := rfl
      rw [written_cons_false, bare_cons, section', section']
      by_cases closes : '>' ∈ bare m
      · obtain ⟨inside, behind, whole, first⟩ := List.eq_append_cons_of_mem closes
        obtain ⟨a, b, rfl, rfl, rest⟩ := exists_of_bare_eq_append whole
        obtain ⟨k, b, rfl, rfl⟩ := exists_of_bare_eq_cons rest
        obtain rfl := spaced.tail.right.eq_false (by decide)
        have inner : ∀ c ∈ bare a, (c != '>') = true := fun c mem => by
          rw [bne_iff_ne]
          rintro rfl
          exact first mem
        have inner' : ∀ c ∈ written a, (c != '>') = true := fun c mem =>
          (mem_written mem).elim (inner c)
            ((by decide : ∀ c ∈ "static ".toList, (c != '>') = true) c)
        have stops (t : Text) : ∀ c ∈ ('>' :: t).head?, (c != '>') = false := by
          rintro c ⟨⟩
          rfl
        rw [bare_append, written_append, bare_cons, written_cons_false,
          (Text.takeWhile_dropWhile_append inner (stops _)).2,
          (Text.takeWhile_dropWhile_append inner' (stops _)).2]
        have skip (t : Text) : Text.afterPrefix? ['>'] ('>' :: t) = some t := rfl
        rw [skip, skip, Option.map_some, Option.map_some]
        exact isNamedType_trimStart (OnKeywords.right (a := (false, '<') :: (a ++ [(false, '>')]))
          (by simpa using keywords))
      · have absent : '>' ∉ written m := fun mem => (mem_written mem).elim closes (by decide)
        have nothing (t : Text) (absent : '>' ∉ t) : t.dropWhile (· != '>') = [] := by
          rw [List.dropWhile_eq_nil_iff]
          intro c mem
          rw [bne_iff_ne]
          rintro rfl
          exact absent mem
        rw [nothing _ closes, nothing _ absent]
    · have same (t : Text) : skipTypeSection? (c :: t) = some (c :: t) := by
        rw [skipTypeSection?]
        rintro rest same
        exact angle (List.cons.inj same).1
      have rest := isNamedType_written keywords
      rw [written_cons_false, bare_cons] at rest ⊢
      rw [same, same]
      exact rest

/-- A text is taken for a type when it is with the word in front of keywords of classes. -/
theorem isReturnType_written (spaced : Spaced m) (plain : Plain m) (keywords : OnKeywords m 0) :
    isReturnType (written m) = isReturnType (bare m) := by
  have dot : Text.endsWith ['.'] (written m) = Text.endsWith ['.'] (bare m) := by
    rw [Bool.eq_iff_iff, endsWith_singleton, endsWith_singleton, getLast?_written]
  have empty : written m = [] ↔ bare m = [] := by
    rw [written_eq_nil_iff, bare, List.map_eq_nil_iff]
  have word := takeWhile_written (fun _ => not_breaks_of_isNameChar) spaced plain
  simp only [isReturnType, dot, word, ne_eq, empty, isTypeText_written spaced plain keywords]

/-- What stands behind a lead is a type in both texts or in neither, unless only blanks are in front
of the first mark. -/
theorem isType_written (spaced : Spaced m) (keywords : OnKeywords m 0)
    (visible : ∀ gap c b, m = unmarked gap ++ (true, c) :: b → ¬ Text.Blank gap) :
    isReturnType (dropQualifiers (written m).trim) =
      isReturnType (dropQualifiers (bare m).trim) := by
  obtain ⟨gap, m, rfl, blank, -, start, start'⟩ := exists_trimStart keywords
  obtain ⟨m, blanks, rfl, allBlanks, ended, ended'⟩ := keywords.right.exists_trimEnd
  obtain ⟨a, b, rfl, dropped, dropped', keywords'⟩ :=
    exists_dropQualifiers spaced.right.left (keywords.right.trimEnd allBlanks)
  have plain : Plain a := by
    by_contra marked
    obtain ⟨c, a, rfl⟩ := exists_of_not_plain marked
    exact visible gap c (a ++ b ++ unmarked blanks) (by simp) blank
  rw [Text.trim, Text.trim, start, start', ended, ended', dropped, dropped',
    isReturnType_written spaced.right.left.left plain keywords']

end Marked

end HarnessSynthesis.TypedSource
