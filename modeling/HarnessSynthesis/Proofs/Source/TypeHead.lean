/-
# Heads of type declarations

A source declares a type when the head of a declaration stands somewhere in it: a keyword, blanks
and the name. Nothing is said of what stands behind the name. `TypeHead` lists the parts of a head,
and a source declares a structure exactly when it has one.

`opensBody` looks at what stands behind the name as the languages have it. A head with a body is a
definition; one without is a declaration ahead of a definition, or no declaration at all but a type
that is named together with its keyword.
-/

import Mathlib.Data.List.Infix
import Mathlib.Data.Option.Basic
import HarnessSynthesis.Proofs.Source.Occurrences
import HarnessSynthesis.Proofs.Text.Search
import HarnessSynthesis.Source.Brackets
import HarnessSynthesis.Source.TypeDeclaration

namespace HarnessSynthesis.Source

open Text (Blank isBlank)

/-! ## Readers -/

theorem anyOf?_append {words : List Text} (apart : ∀ v ∈ words, ∀ w ∈ words, v <+: w → v = w)
    {word : Text} (mem : word ∈ words) (rest : Text) :
    anyOf? words (word ++ rest) = some (word, rest) := by
  induction words with
  | nil => cases mem
  | cons v words ih =>
    rw [anyOf?, List.findSome?_cons]
    cases read : Text.afterPrefix? v (word ++ rest) with
    | some behind =>
      have front : v <+: word ++ rest := ⟨behind, (Text.afterPrefix?_eq_some_iff.1 read).symm⟩
      have same : v = word := by
        rcases List.prefix_or_prefix_of_prefix front (List.prefix_append word rest) with h | h
        · exact apart v List.mem_cons_self word mem h
        · exact (apart word mem v List.mem_cons_self h).symm
      rw [same, Text.afterPrefix?_append] at read
      cases read
      rw [same]
      rfl
    | none =>
      have other : word ≠ v := by
        rintro rfl
        rw [Text.afterPrefix?_append] at read
        cases read
      have others : ∀ v ∈ words, ∀ w ∈ words, v <+: w → v = w := fun v hv w hw =>
        apart v (List.mem_cons_of_mem _ hv) w (List.mem_cons_of_mem _ hw)
      exact ih others ((List.mem_cons.1 mem).resolve_left other)

theorem eq_append_of_anyOf? {words : List Text} {t word rest : Text}
    (h : anyOf? words t = some (word, rest)) : word ∈ words ∧ t = word ++ rest := by
  obtain ⟨w, mem, found⟩ := List.exists_of_findSome?_eq_some h
  obtain ⟨behind, read, same⟩ := Option.map_eq_some_iff.1 found
  cases same
  exact ⟨mem, Text.afterPrefix?_eq_some_iff.1 read⟩

theorem exists_of_blanks? {t rest : Text} (h : blanks? t = some rest) :
    ∃ gap, gap ≠ [] ∧ Blank gap ∧ t = gap ++ rest := by
  cases t with
  | nil => cases h
  | cons c t =>
    rw [blanks?] at h
    split at h
    · rename_i first
      cases h
      refine ⟨c :: t.takeWhile isBlank, List.cons_ne_nil _ _,
        Text.blank_cons.2 ⟨first, Text.blank_takeWhile t⟩, ?_⟩
      rw [List.cons_append, Text.takeWhile_append_trimStart]
    · cases h

theorem blanks?_append {gap t : Text} (nonempty : gap ≠ []) (blank : Blank gap) {c : Char}
    (visible : isBlank c = false) : blanks? (gap ++ c :: t) = some (c :: t) := by
  obtain ⟨b, gap, rfl⟩ := List.exists_cons_of_ne_nil nonempty
  obtain ⟨first, others⟩ := Text.blank_cons.1 blank
  rw [List.cons_append, blanks?, if_pos first, Text.trimStart_append_of_blank others,
    Text.trimStart_cons_of_not_isBlank visible]

/-! ## Keywords and names -/

/-- No keyword begins with another one. -/
theorem typeKeywords_apart (l : Language) :
    ∀ v ∈ typeKeywords l, ∀ w ∈ typeKeywords l, v <+: w → v = w := by
  cases l <;> decide +kernel

theorem exists_cons_of_visible {t : Text} (h : t.head?.any (fun c => !isBlank c) = true) :
    ∃ c rest, t = c :: rest ∧ isBlank c = false := by
  cases t with
  | nil => cases h
  | cons c rest => exact ⟨c, rest, rfl, by simpa using h⟩

theorem visible_of_mem_typeKeywords {l : Language} {word : Text} (h : word ∈ typeKeywords l) :
    word.head?.any (fun c => !isBlank c) = true := by
  have all : ∀ word ∈ typeKeywords l, word.head?.any (fun c => !isBlank c) = true := by
    cases l <;> decide +kernel
  exact all word h

theorem visible_typeName (k : Composite) :
    k.typeName.head?.any (fun c => !isBlank c) = true := by
  cases k <;> decide +kernel

theorem trim_typeName (k : Composite) : k.typeName.trim = k.typeName := by
  cases k <;> decide +kernel

/-- Behind the name of a structure is a boundary where no word goes on. -/
theorem isBoundary_typeName (k : Composite) (behind : Text) :
    isBoundary k.typeName.getLast? behind = wordMayEnd behind := by
  have last : k.typeName.getLast?.any Text.isWordChar = true := by
    cases k <;> decide +kernel
  rw [isBoundary, last, wordMayEnd, Bool.true_bne]

/-! ## Heads -/

/-- Whether a declaration may begin behind a text: in Python on a line of its own, blanks not
counting, and else where a word may begin. -/
def MayDeclareBehind (l : Language) (before : Text) : Prop :=
  if l = .python then
    ∃ start indent, before = start ++ indent ∧ lineBegins start.getLast? = true ∧ Blank indent
  else wordMayBegin before.getLast? = true

/-- The head of a declaration of a structure's type in a text, by its parts. -/
structure TypeHead (l : Language) (k : Composite) (t : Text) where
  before : Text
  keyword : Text
  gap : Text
  behind : Text
  whole : t = before ++ (keyword ++ (gap ++ (k.typeName ++ behind)))
  mayDeclare : MayDeclareBehind l before
  isKeyword : keyword ∈ typeKeywords l
  apart : gap ≠ []
  blank : Blank gap
  /-- The name is a whole word. -/
  ends : wordMayEnd behind = true

theorem typeDeclaration?_eq_some_iff {l : Language} {name t behind : Text}
    {previous : Option Char} :
    typeDeclaration? l name previous t = some ((), behind) ↔
      (if l = .python then lineBegins previous else wordMayBegin previous) = true ∧
        ∃ keyword rest atName,
          anyOf? (typeKeywords l) (if l = .python then Text.trimStart t else t) =
              some (keyword, rest) ∧
            blanks? rest = some atName ∧ Text.afterPrefix? name atName = some behind ∧
              isBoundary name.getLast? behind = true := by
  simp only [typeDeclaration?, Option.bind_eq_bind, Option.bind_eq_some_iff,
    Option.guard_eq_some', Option.pure_def, Option.some_inj, Prod.mk.injEq, Prod.exists,
    exists_const, true_and, exists_and_left]
  constructor
  · rintro ⟨begins, keyword, rest, read, atName, blanks, behind', name, boundary, rfl⟩
    exact ⟨begins, keyword, rest, read, atName, blanks, name, boundary⟩
  · rintro ⟨begins, keyword, rest, read, atName, blanks, name, boundary⟩
    exact ⟨begins, keyword, rest, read, atName, blanks, behind, name, boundary, rfl⟩

/-- A declaration is read where a keyword, blanks and the name stand. -/
theorem typeDeclaration?_isSome_iff {l : Language} {k : Composite} {previous : Option Char}
    {t : Text} :
    (typeDeclaration? l k.typeName previous t).isSome = true ↔
      (if l = .python then lineBegins previous else wordMayBegin previous) = true ∧
        ∃ keyword ∈ typeKeywords l, ∃ gap behind,
          (if l = .python then Text.trimStart t else t) =
              keyword ++ (gap ++ (k.typeName ++ behind)) ∧
            gap ≠ [] ∧ Blank gap ∧ wordMayEnd behind = true := by
  rw [Option.isSome_iff_exists]
  constructor
  · rintro ⟨⟨⟨⟩, behind⟩, read⟩
    obtain ⟨begins, keyword, rest, atName, isKeyword, blanks, name, boundary⟩ :=
      typeDeclaration?_eq_some_iff.1 read
    obtain ⟨mem, whole⟩ := eq_append_of_anyOf? isKeyword
    obtain ⟨gap, apart, blank, rfl⟩ := exists_of_blanks? blanks
    obtain rfl := Text.afterPrefix?_eq_some_iff.1 name
    rw [isBoundary_typeName] at boundary
    exact ⟨begins, keyword, mem, gap, behind, whole, apart, blank, boundary⟩
  · rintro ⟨begins, keyword, mem, gap, behind, whole, apart, blank, ends⟩
    obtain ⟨c, name, isName, visible⟩ := exists_cons_of_visible (visible_typeName k)
    refine ⟨((), behind), typeDeclaration?_eq_some_iff.2 ⟨begins, keyword,
      gap ++ (k.typeName ++ behind), k.typeName ++ behind, ?_, ?_, ?_, ?_⟩⟩
    · rw [whole, anyOf?_append (typeKeywords_apart l) mem]
    · rw [isName]
      exact blanks?_append apart blank visible
    · exact Text.afterPrefix?_append _ _
    · rw [isBoundary_typeName, ends]

theorem typeDeclaration?_nil (l : Language) (k : Composite) (previous : Option Char) :
    typeDeclaration? l k.typeName previous [] = none := by
  rw [← Option.not_isSome_iff_eq_none, typeDeclaration?_isSome_iff]
  rintro ⟨-, keyword, mem, gap, behind, whole, -⟩
  obtain ⟨c, rest, rfl, -⟩ := exists_cons_of_visible (visible_of_mem_typeKeywords mem)
  split at whole <;> cases whole

/-- A source declares a structure exactly when the head of a declaration stands in it. -/
theorem declaresType_iff {l : Language} {k : Composite} {source : Text} :
    declaresType l k.typeName source = true ↔ Nonempty (TypeHead l k (stripComments l source)) := by
  rw [declaresType, trim_typeName, occurs_iff (typeDeclaration?_nil l k)]
  constructor
  · rintro ⟨start, rest, whole, read⟩
    obtain ⟨begins, keyword, mem, gap, behind, head, apart, blank, ends⟩ :=
      typeDeclaration?_isSome_iff.1 read
    by_cases python : l = .python
    · rw [if_pos python] at begins head
      refine ⟨start ++ rest.takeWhile isBlank, keyword, gap, behind, ?_, ?_, mem, apart, blank,
        ends⟩
      · rw [List.append_assoc, ← head, Text.takeWhile_append_trimStart, whole]
      · rw [MayDeclareBehind, if_pos python]
        exact ⟨start, _, rfl, begins, Text.blank_takeWhile rest⟩
    · rw [if_neg python] at begins head
      refine ⟨start, keyword, gap, behind, ?_, ?_, mem, apart, blank, ends⟩
      · rw [← head, whole]
      · rw [MayDeclareBehind, if_neg python]
        exact begins
  · rintro ⟨head⟩
    have mayDeclare := head.mayDeclare
    rw [MayDeclareBehind] at mayDeclare
    by_cases python : l = .python
    · rw [if_pos python] at mayDeclare
      obtain ⟨start, indent, whole, begins, blank⟩ := mayDeclare
      obtain ⟨c, word, isKeyword, visible⟩ :=
        exists_cons_of_visible (visible_of_mem_typeKeywords head.isKeyword)
      refine ⟨start, indent ++ (head.keyword ++ (head.gap ++ (k.typeName ++ head.behind))), ?_,
        typeDeclaration?_isSome_iff.2 ⟨?_, head.keyword, head.isKeyword, head.gap, head.behind, ?_,
          head.apart, head.blank, head.ends⟩⟩
      · exact head.whole.trans (by rw [whole, List.append_assoc])
      · rw [if_pos python, begins]
      · rw [if_pos python, Text.trimStart_append_of_blank blank, isKeyword, List.cons_append,
          Text.trimStart_cons_of_not_isBlank visible]
    · rw [if_neg python] at mayDeclare
      refine ⟨head.before, _, head.whole, typeDeclaration?_isSome_iff.2 ⟨?_, head.keyword,
        head.isKeyword, head.gap, head.behind, ?_, head.apart, head.blank, head.ends⟩⟩
      · rw [if_neg python, mayDeclare]
      · rw [if_neg python]

/-! ## Bodies -/

/-- What stands behind brackets that may be there, and behind blanks. -/
def skipBracketed (opening closing : Char) (t : Text) : Text :=
  match t with
  | [] => []
  | c :: rest =>
    match if c = opening then closeBracket? opening closing 0 rest else none with
    | some (_, behind) => Text.trimStart behind
    | none => t

/-- What stands behind a word that may be there, and behind blanks. -/
def skipWord (word t : Text) : Text :=
  match Text.afterPrefix? word t with
  | some behind => if wordMayEnd behind then Text.trimStart behind else t
  | none => t

/-- Whether a brace opens, at once or behind a clause that begins with one of some marks and holds
no parenthesis, semicolon or brace. -/
def opensBrace (marks : List Text) (t : Text) : Bool :=
  let clause := marks.any fun mark => Text.startsWith mark t
  let rest := if clause then t.dropWhile fun c => c ∉ ['(', ')', ';', '{', '}'] else t
  rest.head? == some '{'

/-- Whether the body of a type opens behind its name: behind type parameters, and the components of
a record or the word `final`, and behind a clause that names other types. An alias has its type for
a body. -/
def opensBody (l : Language) (keyword behind : Text) : Bool :=
  let t := Text.trimStart behind
  match l with
  | .typescript =>
    let t := skipBracketed '<' '>' t
    if keyword = "type" then t.head? == some '=' else opensBrace ["extends", "implements"] t
  | .python => (skipBracketed '(' ')' (skipBracketed '[' ']' t)).head? == some ':'
  | .java =>
    let t := skipBracketed '<' '>' t
    let t := if keyword = "record" then skipBracketed '(' ')' t else t
    opensBrace ["extends", "implements", "permits"] t
  | .cpp =>
    let t := skipWord "final" (skipBracketed '<' '>' t)
    !Text.startsWith "::" t && opensBrace [":"] t

/-- Whether a head has a body. -/
def TypeHead.opensBody {l : Language} {k : Composite} {t : Text} (head : TypeHead l k t) : Bool :=
  Source.opensBody l head.keyword head.behind

/-- Every head has a body if a body opens wherever the name stands. -/
theorem TypeHead.opensBody_of_all {l : Language} {k : Composite} {t : Text}
    (all : ∀ behind ∈ t.tails.filterMap (Text.afterPrefix? k.typeName),
      ∀ keyword ∈ typeKeywords l, Source.opensBody l keyword behind = true)
    (head : TypeHead l k t) : head.opensBody = true := by
  refine all head.behind (List.mem_filterMap.2 ⟨k.typeName ++ head.behind, ?_, ?_⟩) head.keyword
    head.isKeyword
  · refine (List.mem_tails _ _).2 ⟨head.before ++ (head.keyword ++ head.gap), ?_⟩
    rw [List.append_assoc, List.append_assoc]
    exact head.whole.symm
  · exact Text.afterPrefix?_append _ _

end HarnessSynthesis.Source
