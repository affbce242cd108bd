/-
# Headers

What is read in front of a declared name takes nothing away: the text in front of the type and the
text from the type on are the text in front of the name. The type starts with a name or with a
section of type parameters, though blanks that are no blanks of ASCII may stand before it.
-/

import Mathlib.Data.Option.Basic
import HarnessSynthesis.Entry.TypedCandidates
import HarnessSynthesis.Proofs.Source.Occurrences
import HarnessSynthesis.Proofs.Text.Search

namespace HarnessSynthesis.TypedSource

open Source
open Text (isBlank isAsciiBlank isNameStart)

/-! ## Names in front of a parenthesis -/

/-- What is read is a name of word characters, and blanks up to the parenthesis. -/
theorem exists_of_callable? {previous : Option Char} {t name inside behind : Text}
    (h : callable? previous t = some ((name, inside), behind)) :
    inside = behind ∧ (∃ gap, Text.Blank gap ∧ t = name ++ (gap ++ '(' :: behind)) ∧
      IsName isNameStart Text.isWordChar name := by
  obtain ⟨-, -, h⟩ := Option.bind_eq_some_iff.1 h
  obtain ⟨⟨name', rest⟩, named, h⟩ := Option.bind_eq_some_iff.1 h
  obtain ⟨behind', opened, h⟩ := Option.bind_eq_some_iff.1 h
  obtain ⟨found, rfl⟩ := Prod.mk.inj (Option.some.inj h)
  obtain ⟨rfl, rfl⟩ := Prod.mk.inj found
  refine ⟨rfl, ⟨rest.takeWhile isBlank, Text.blank_takeWhile rest, ?_⟩, isName_of_name? named⟩
  have parenthesis : Text.trimStart rest = '(' :: behind' := Text.afterPrefix?_eq_some_iff.1 opened
  rw [eq_append_of_name? named, ← parenthesis, Text.takeWhile_append_trimStart]

theorem readsTo_callable? : callable?.ReadsTo '(' := by
  intro previous t behind found h
  obtain ⟨-, ⟨gap, -, whole⟩, -⟩ := exists_of_callable? h
  exact ⟨found.1 ++ gap, by rw [whole, List.append_assoc]⟩

/-! ## Segments -/

theorem eq_append_of_cutLastLabel? {previous : Option Char} {t before behind : Text}
    (h : cutLastLabel? previous t = some (before, behind)) : t = before ++ behind := by
  induction t generalizing previous before with
  | nil => cases h
  | cons c t ih =>
    rw [cutLastLabel?] at h
    split at h
    · rename_i later
      obtain ⟨rfl, rfl⟩ := Prod.mk.inj (Option.some.inj h)
      rw [ih later, List.cons_append]
    · split at h
      · obtain ⟨rfl, rfl⟩ := Prod.mk.inj (Option.some.inj h)
        rfl
      · cases h

theorem cutSegment_append (before : Text) :
    (cutSegment before).1 ++ (cutSegment before).2 = before := by
  have whole := Text.dropEndWhile_append_takeEndWhile (fun c => !endsStatement c) before
  rw [cutSegment]
  split
  · rename_i label
    rw [List.append_assoc, ← eq_append_of_cutLastLabel? label]
    exact whole
  · exact whole

/-! ## Items -/

/-- What is left behind an item is an end of the text, and a shorter one. -/
def Behind (rest t : Text) : Prop :=
  rest <:+ t ∧ rest.length < t.length

theorem Behind.trans {r s t : Text} (h : r <:+ s) (h' : Behind s t) : Behind r t :=
  ⟨h.trans h'.1, Nat.lt_of_le_of_lt h.length_le h'.2⟩

theorem Behind.of_suffix {r s t : Text} (h : Behind r s) (h' : s <:+ t) : Behind r t :=
  ⟨h.1.trans h', Nat.lt_of_lt_of_le h.2 h'.length_le⟩

theorem behind_cons {c : Char} {rest t : Text} (h : rest <:+ t) : Behind rest (c :: t) :=
  ⟨h.trans (List.suffix_cons c t), Nat.lt_succ_of_le h.length_le⟩

theorem suffix_of_closeBracket? {opening closing : Char} {depth : Nat} {t inside behind : Text}
    (h : closeBracket? opening closing depth t = some (inside, behind)) : behind <:+ t :=
  ⟨inside ++ [closing], by rw [eq_append_of_closeBracket? h, List.append_assoc]; rfl⟩

theorem suffix_of_parenthesized? {t inside behind : Text}
    (h : parenthesized? t = some (inside, behind)) : behind <:+ t := by
  cases t with
  | nil => cases h
  | cons c t =>
    by_cases opens : c = '('
    · rw [opens] at h ⊢
      exact (suffix_of_closeBracket? h).trans (List.suffix_cons _ _)
    · rw [parenthesized?] at h
      · cases h
      · intro rest same
        exact opens (List.cons.inj same).1

theorem trimStart_suffix (t : Text) : Text.trimStart t <:+ t :=
  List.dropWhile_suffix _

theorem ne_nil_of_mem_modifierWords {word : Text} (h : word ∈ modifierWords) : word ≠ [] := by
  rintro rfl
  exact absurd h (by decide)

theorem length_dropWhile_lt {p : Char → Bool} {t : Text} (nonempty : t.takeWhile p ≠ []) :
    (t.dropWhile p).length < t.length := by
  have whole := congrArg List.length (List.takeWhile_append_dropWhile (p := p) (l := t))
  rw [List.length_append] at whole
  have positive := List.length_pos_iff.2 nonempty
  omega

/-- What an item takes off the head of a text: at least one character. -/
def HeaderItem.Takes (t : Text) : HeaderItem → Prop
  | .aside rest => Behind rest t
  | .modifier word rest => word ∈ modifierWords ∧ t = word ++ rest ∧ Behind rest t
  | .type | .unclosed => True

theorem HeaderItem.takes_read (t : Text) : (HeaderItem.read t).Takes t := by
  unfold HeaderItem.read
  split
  · rename_i t
    have name : t.dropWhile isAnnotationChar <:+ t := List.dropWhile_suffix _
    dsimp only
    split
    · split
      · rename_i closed
        exact .trans (suffix_of_parenthesized? closed)
          (behind_cons ((trimStart_suffix _).trans name))
      · trivial
    · exact behind_cons name
  · split
    · rename_i keyword
      split
      · rename_i closed
        obtain ⟨behind, keyword, same⟩ := Option.map_eq_some_iff.1 keyword
        have inside := suffix_of_closeBracket? closed
        have angle := trimStart_suffix behind
        rw [same] at angle
        rw [Text.afterPrefix?_eq_some_iff.1 keyword]
        exact .trans (inside.trans ((List.suffix_cons '<' _).trans angle))
          (behind_cons (List.suffix_append _ _))
      · trivial
    · dsimp only
      split
      · rename_i word
        exact ⟨word, List.takeWhile_append_dropWhile.symm, List.dropWhile_suffix _,
          length_dropWhile_lt (ne_nil_of_mem_modifierWords word)⟩
      · trivial

/-- Behind the items of a header no blank of ASCII is left. -/
theorem suffix_of_readItems? {fuel : Nat} {t rest : Text} {modifiers : List Text}
    (enough : t.length ≤ fuel) (h : readItems? fuel t = some (modifiers, rest)) :
    rest <:+ t ∧ ∀ c ∈ rest.head?, isAsciiBlank c = false := by
  induction fuel generalizing t modifiers with
  | zero =>
    obtain ⟨-, rfl⟩ := Prod.mk.inj (Option.some.inj h)
    rw [List.eq_nil_of_length_eq_zero (Nat.le_zero.1 enough)]
    exact ⟨List.suffix_refl _, nofun⟩
  | succ fuel ih =>
    rw [readItems?] at h
    have spaced : t.dropWhile isAsciiBlank <:+ t := List.dropWhile_suffix _
    have read := HeaderItem.takes_read (t.dropWhile isAsciiBlank)
    have further {behind : Text} (shorter : Behind behind (t.dropWhile isAsciiBlank)) :
        behind.length ≤ fuel ∧ behind <:+ t :=
      ⟨by have := shorter.2; have := spaced.length_le; omega, shorter.1.trans spaced⟩
    dsimp only at h
    cases item : HeaderItem.read (t.dropWhile isAsciiBlank) with
    | type =>
      rw [item] at h
      obtain ⟨-, rfl⟩ := Prod.mk.inj (Option.some.inj h)
      refine ⟨spaced, fun c hc => ?_⟩
      have stops := List.head?_dropWhile_not isAsciiBlank t
      rw [Option.mem_def.1 hc] at stops
      simpa using stops
    | unclosed =>
      rw [item] at h
      cases h
    | aside behind =>
      rw [item] at h read
      obtain ⟨short, ending⟩ := further read
      obtain ⟨inner, stops⟩ := ih short h
      exact ⟨inner.trans ending, stops⟩
    | modifier word behind =>
      rw [item] at h read
      obtain ⟨⟨words, rest'⟩, inner, same⟩ := Option.map_eq_some_iff.1 h
      obtain ⟨-, rfl⟩ := Prod.mk.inj same
      obtain ⟨short, ending⟩ := further read.2.2
      obtain ⟨inner, stops⟩ := ih short inner
      exact ⟨inner.trans ending, stops⟩

/-! ## Types -/

theorem dropEndWhile_isPrefix (p : Char → Bool) (t : Text) : t.dropEndWhile p <+: t :=
  ⟨_, Text.dropEndWhile_append_takeEndWhile p t⟩

theorem trimEndMatches_isPrefix (ending t : Text) : Text.trimEndMatches ending t <+: t := by
  fun_induction Text.trimEndMatches ending t with
  | case1 => exact List.prefix_refl _
  | case2 t _ rest found ih =>
    exact ih.trans ⟨ending, (Text.beforeSuffix?_eq_some_iff.1 found).symm⟩
  | case3 => exact List.prefix_refl _

theorem dropQualifiers_append (t : Text) :
    dropQualifiers (t ++ "::") =
      dropQualifiers ((Text.trimEndMatches "::" t).dropEndWhile Text.isNameChar).trimEnd := by
  have found : Text.beforeSuffix? "::" (t ++ "::") = some t :=
    Text.beforeSuffix?_eq_some_iff.2 rfl
  rw [dropQualifiers]
  split
  · rename_i found'
    rw [found] at found'
    cases found'
  · rename_i rest found'
    rw [found] at found'
    rw [Option.some.inj found']

theorem dropQualifiers_of_none {t : Text} (none : Text.beforeSuffix? "::" t = none) :
    dropQualifiers t = t := by
  rw [dropQualifiers]
  split
  · rfl
  · rename_i found
    rw [none] at found
    cases found

/-- Qualifiers stand at the end. -/
theorem dropQualifiers_isPrefix (type : Text) : dropQualifiers type <+: type := by
  fun_induction dropQualifiers type with
  | case1 => exact List.prefix_refl _
  | case2 type rest found ih =>
    have front : rest <+: type := ⟨_, (Text.beforeSuffix?_eq_some_iff.1 found).symm⟩
    refine ih.trans (List.IsPrefix.trans ?_ front)
    exact ((dropEndWhile_isPrefix _ _).trans (dropEndWhile_isPrefix _ _)).trans
      (trimEndMatches_isPrefix _ _)

/-- A type starts with a name or with a section of type parameters. -/
theorem head_of_isReturnType {t : Text} (h : isReturnType t = true) :
    ∃ c rest, t = c :: rest ∧ (isNameStart c = true ∨ c = '<') := by
  simp only [isReturnType, Bool.and_eq_true] at h
  obtain ⟨-, h⟩ := h
  cases t with
  | nil => cases h
  | cons c t =>
    refine ⟨c, t, rfl, ?_⟩
    by_cases angle : c = '<'
    · exact Or.inr angle
    · rw [isTypeText, skipTypeSection?] at h
      · exact Or.inl ((Bool.and_eq_true _ _ ▸ h).1)
      · intro rest same
        exact angle (List.cons.inj same).1

/-! ## Headers -/

/-- A header is read segment, items and type in turn, and each of them has to be there. -/
theorem header?_eq_some_iff {before : Text} {header : Header} :
    header? before = some header ↔
      ∃ rest, readItems? (cutSegment before).2.length (cutSegment before).2 =
          some (header.modifiers, rest) ∧
        header.returnType = dropQualifiers rest.trim ∧ isReturnType header.returnType = true ∧
        header.before = (cutSegment before).1 ++
          (cutSegment before).2.take ((cutSegment before).2.length - rest.length) := by
  obtain ⟨before', modifiers, returnType⟩ := header
  simp only [header?, Option.bind_eq_bind, Option.bind_eq_some_iff, Option.guard_eq_some',
    Option.pure_def, Option.some_inj, Prod.exists, Header.mk.injEq, exists_const]
  constructor
  · rintro ⟨words, rest, read, type, rfl, rfl, rfl⟩
    exact ⟨rest, read, rfl, type, rfl⟩
  · rintro ⟨rest, read, rfl, type, rfl⟩
    exact ⟨modifiers, rest, read, type, rfl, rfl, rfl⟩

/-- A header ends where its type begins: with a character of a type, or a blank that is none of
ASCII's. -/
theorem exists_of_header? {before : Text} {header : Header} (h : header? before = some header) :
    ∃ c rest, before = header.before ++ c :: rest ∧
      (isNameStart c = true ∨ c = '<' ∨ isBlank c = true ∧ isAsciiBlank c = false) := by
  obtain ⟨rest, read, type, isType, place⟩ := header?_eq_some_iff.1 h
  obtain ⟨ending, stops⟩ := suffix_of_readItems? (Nat.le_refl _) read
  rw [type] at isType
  obtain ⟨d, typeRest, typeText, starts⟩ := head_of_isReturnType isType
  have front : d :: typeRest <+: rest.trim := typeText ▸ dropQualifiers_isPrefix _
  cases rest with
  | nil => exact absurd (List.prefix_nil.1 front) (List.cons_ne_nil _ _)
  | cons c rest =>
    refine ⟨c, rest, ?_, ?_⟩
    · rw [place, List.append_assoc]
      have segment := List.suffix_iff_eq_drop.1 ending
      have whole := List.take_append_drop
        ((cutSegment before).2.length - (c :: rest).length) (cutSegment before).2
      rw [← segment] at whole
      rw [whole, cutSegment_append]
    · by_cases blank : isBlank c = true
      · exact Or.inr (Or.inr ⟨blank, stops c rfl⟩)
      · have kept : Text.trimStart (c :: rest) = c :: rest :=
          List.dropWhile_cons_of_neg blank
        have same : d :: typeRest <+: c :: rest := by
          rw [Text.trim, kept] at front
          exact front.trans (dropEndWhile_isPrefix _ _)
        obtain ⟨rfl, -⟩ := List.cons_prefix_cons.1 same
        exact starts.elim Or.inl fun h => Or.inr (Or.inl h)

/-! ## Candidates -/

/-- What a candidate is made of. -/
theorem eq_of_declared? {l : Language} {hit : Hit (Text × Text)} {c : Candidate}
    (h : declared? l hit = some c) : ∃ arguments behind header,
      Candidate.isExcluded hit.found.1 = false ∧
      closeBracket? '(' ')' 0 hit.found.2 = some (arguments, behind) ∧
      bodyFollows (behind.length + 1) behind = true ∧ header? hit.before = some header ∧
      c = { Candidate.of hit.before hit.found.1 arguments (some (cleanType l header.returnType))
          (braceDepth hit.before) with
        isPublic :=
          if l = .java then header.modifiers.contains "public" else cppIsPublic hit.before
        typeOffset := header.before.octets
        modifiers := header.modifiers } := by
  obtain ⟨_, ordinary, h⟩ := Option.bind_eq_some_iff.1 h
  obtain ⟨⟨arguments, behind⟩, closed, h⟩ := Option.bind_eq_some_iff.1 h
  obtain ⟨_, body, h⟩ := Option.bind_eq_some_iff.1 h
  obtain ⟨header, read, h⟩ := Option.bind_eq_some_iff.1 h
  cases h
  refine ⟨arguments, behind, header, ?_, closed, ?_, read, rfl⟩
  · simpa using ordinary
  · simpa using body

/-- What a candidate takes from its hit and from its header. -/
theorem exists_of_declared? {l : Language} {hit : Hit (Text × Text)} {c : Candidate}
    (h : declared? l hit = some c) : ∃ arguments behind header,
      Candidate.isExcluded hit.found.1 = false ∧
      closeBracket? '(' ')' 0 hit.found.2 = some (arguments, behind) ∧
      bodyFollows (behind.length + 1) behind = true ∧ header? hit.before = some header ∧
      c.name = hit.found.1 ∧ c.depth = braceDepth hit.before ∧ c.modifiers = header.modifiers ∧
      c.typeOffset = Text.octets header.before := by
  obtain ⟨arguments, behind, header, ordinary, closed, body, read, rfl⟩ := eq_of_declared? h
  exact ⟨arguments, behind, header, ordinary, closed, body, read, rfl, rfl, rfl, rfl⟩

end HarnessSynthesis.TypedSource
