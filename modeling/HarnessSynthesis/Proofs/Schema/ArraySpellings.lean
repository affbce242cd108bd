/-
# Spellings of nested arrays

An array of a schema type is spelled in four ways, and the spellings nest. `SchemaType.parse` takes
brackets off the end of a text one pair at a time. Of the other three it takes the opening off the
front, and off the end every closing bracket that stands there, also those of the spellings inside.
For these that makes no difference, since their openings are still there; of brackets inside of
another spelling only the first one is left, and it becomes a part of the name. So a nesting is read
as what it spells exactly when its brackets are the outermost spellings.
-/

import Mathlib.Data.Bool.AllAny
import Mathlib.Logic.Function.Iterate
import HarnessSynthesis.Proofs.Text.Search
import HarnessSynthesis.Proofs.Text.Trim
import HarnessSynthesis.SchemaType

namespace HarnessSynthesis

namespace SchemaType

/-! ## Spelling -/

/-- A spelling of an array type. -/
inductive ArraySpelling where
  /-- `T[]`. -/
  | brackets
  /-- `Array<T>`. -/
  | arrayOf
  /-- `List<T>`. -/
  | listOf
  /-- `list[T]`. -/
  | listIn
  deriving DecidableEq, Repr

namespace ArraySpelling

/-- What stands in front of the element type. -/
def opening : ArraySpelling → Text
  | brackets => []
  | arrayOf => "Array<"
  | listOf => "List<"
  | listIn => "list["

/-- What stands behind the element type. -/
def closing : ArraySpelling → Text
  | brackets => "[]"
  | arrayOf => ['>']
  | listOf => ['>']
  | listIn => [']']

/-- A name wrapped in spellings, the outermost first. -/
def spell : List ArraySpelling → Text → Text
  | [], name => name
  | outer :: inner, name => outer.opening ++ spell inner name ++ outer.closing

/-- A text behind the openings of spellings, none of which is closed. -/
def openAll : List ArraySpelling → Text → Text
  | [], t => t
  | outer :: inner, t => outer.opening ++ openAll inner t

/-- Whether spellings around a name are read as what they spell: no brackets stand inside of another
spelling, and no name is missing between the brackets of `list[]`. -/
def Compose (name : Text) : List ArraySpelling → Prop
  | [] => True
  | brackets :: inner => Compose name inner
  | outer :: inner => brackets ∉ inner ∧ ¬ (outer = listIn ∧ inner = [] ∧ name = [])

end ArraySpelling

open ArraySpelling

/-! ## Reading -/

theorem parse_eq (written : Text) :
    parse written =
      match element? written.trim with
      | some rest => .array (parse rest)
      | none => ofBaseName written.trim := by
  rw [parse]
  split
  · rename_i found
    rw [found]
  · rename_i absent
    rw [absent]

/-- Only the trimmed text counts. -/
theorem parse_congr {written written' : Text} (same : written.trim = written'.trim) :
    parse written = parse written' := by
  rw [parse_eq written, parse_eq written', same]

theorem parse_of_element? {written rest : Text} (h : element? written.trim = some rest) :
    parse written = .array (parse rest) := by
  rw [parse_eq, h]

theorem parse_of_element?_eq_none {written : Text} (h : element? written.trim = none) :
    parse written = ofBaseName written.trim := by
  rw [parse_eq, h]

/-- The characters that are dropped at the end of what an opening encloses. -/
def isClosing (c : Char) : Bool :=
  c == '>' || c == ']'

theorem element?_of_beforeSuffix? {t rest : Text} (h : Text.beforeSuffix? "[]" t = some rest) :
    element? t = some rest := by
  rw [element?, h]

/-- Without brackets at the end an opening decides. -/
theorem element?_opening {outer : ArraySpelling} (enclosing : outer ≠ brackets) {t : Text}
    (noBrackets : Text.beforeSuffix? "[]" (outer.opening ++ t) = none) :
    element? (outer.opening ++ t) = some (t.dropEndWhile isClosing) := by
  rw [element?, noBrackets]
  cases outer with
  | brackets => exact absurd rfl enclosing
  | arrayOf | listOf | listIn => rfl

theorem exists_of_element? {t rest : Text} (noBrackets : Text.beforeSuffix? "[]" t = none)
    (h : element? t = some rest) :
    ∃ outer : ArraySpelling, outer ≠ brackets ∧ ∃ inside, t = outer.opening ++ inside ∧
      rest = inside.dropEndWhile isClosing := by
  rw [element?, noBrackets] at h
  obtain ⟨inside, found, rfl⟩ := Option.map_eq_some_iff.1 h
  obtain ⟨opener, mem, found⟩ := List.exists_of_findSome?_eq_some found
  have whole := Text.afterPrefix?_eq_some_iff.1 found
  simp only [List.mem_cons, List.not_mem_nil, or_false] at mem
  rcases mem with rfl | rfl | rfl
  · exact ⟨arrayOf, by decide, inside, whole, rfl⟩
  · exact ⟨listOf, by decide, inside, whole, rfl⟩
  · exact ⟨listIn, by decide, inside, whole, rfl⟩

/-! ## Reading one spelling -/

theorem parse_brackets (t : Text) : parse (t ++ "[]") = .array (parse t) := by
  have trimmed : (t ++ "[]").trim = t.trimStart ++ "[]" := Text.trim_append_brackets t
  have found : element? (t ++ "[]").trim = some t.trimStart := by
    rw [trimmed]
    exact element?_of_beforeSuffix? (Text.beforeSuffix?_eq_some_iff.2 rfl)
  rw [parse_of_element? found]
  exact congrArg SchemaType.array (parse_congr (Text.trim_trimStart t))

/-- An opening ends with a bracket that is no closing one. -/
theorem exists_opening {outer : ArraySpelling} (enclosing : outer ≠ brackets) :
    ∃ front c, outer.opening = front ++ [c] ∧ Text.isBlank c = false ∧ isClosing c = false := by
  cases outer with
  | brackets => exact absurd rfl enclosing
  | arrayOf => exact ⟨"Array", '<', rfl, by decide⟩
  | listOf => exact ⟨"List", '<', rfl, by decide⟩
  | listIn => exact ⟨"list", '[', rfl, by decide⟩

theorem exists_head_opening {outer : ArraySpelling} (enclosing : outer ≠ brackets) :
    ∃ c more, outer.opening = c :: more ∧ Text.isBlank c = false := by
  cases outer with
  | brackets => exact absurd rfl enclosing
  | arrayOf | listOf | listIn => exact ⟨_, _, rfl, by decide⟩

theorem exists_closing {outer : ArraySpelling} (enclosing : outer ≠ brackets) :
    ∃ c, outer.closing = [c] ∧ Text.isBlank c = false ∧ isClosing c = true ∧
      (c = ']' → outer = listIn) := by
  cases outer with
  | brackets => exact absurd rfl enclosing
  | arrayOf | listOf | listIn => exact ⟨_, rfl, by decide⟩

theorem dropEndWhile_opening {outer : ArraySpelling} (enclosing : outer ≠ brackets) (t : Text) :
    (outer.opening ++ t).dropEndWhile isClosing = outer.opening ++ t.dropEndWhile isClosing := by
  obtain ⟨front, c, spelled, -, open_⟩ := exists_opening enclosing
  rw [spelled, List.append_assoc, List.append_assoc]
  exact Text.dropEndWhile_append_cons open_

/-- What is not closed at its end is read behind its opening. -/
theorem parse_opening {outer : ArraySpelling} (enclosing : outer ≠ brackets) {t : Text}
    (unclosed : ∀ c ∈ t, isClosing c = false) :
    parse (outer.opening ++ t) = .array (parse t) := by
  have trimmed : (outer.opening ++ t).trim = outer.opening ++ t.trimEnd := by
    obtain ⟨c, more, head, visible⟩ := exists_head_opening enclosing
    obtain ⟨front, d, foot, visible', -⟩ := exists_opening enclosing
    have start : (outer.opening ++ t).trimStart = outer.opening ++ t := by
      rw [head, List.cons_append]
      exact Text.trimStart_cons_of_not_isBlank visible
    rw [Text.trim, start, foot, List.append_assoc, List.append_assoc]
    exact Text.dropEndWhile_append_cons visible'
  have inside : ∀ c ∈ t.trimEnd, isClosing c = false := fun c mem =>
    unclosed c ((Text.trimEnd_isPrefix t).subset mem)
  have noBrackets : Text.beforeSuffix? "[]" (outer.opening ++ t.trimEnd) = none := by
    refine Option.eq_none_iff_forall_ne_some.2 fun rest found => ?_
    have whole := Text.beforeSuffix?_eq_some_iff.1 found
    have mem : ']' ∈ outer.opening ++ t.trimEnd := whole ▸ List.mem_append_right rest (by decide)
    rcases List.mem_append.1 mem with opened | closed
    · cases outer <;> revert opened <;> decide
    · exact absurd (inside _ closed) (by decide)
  have found : element? (outer.opening ++ t).trim = some t.trimEnd := by
    rw [trimmed, element?_opening enclosing noBrackets, Text.dropEndWhile_eq_self inside]
  rw [parse_of_element? found]
  exact congrArg SchemaType.array (parse_congr (Text.trim_trimEnd t))

/-- Of what is enclosed all closing brackets at the end are dropped. -/
theorem parse_enclosed {outer : ArraySpelling} (enclosing : outer ≠ brackets) {t : Text}
    (noBrackets : outer = listIn → (outer.opening ++ t).getLast? ≠ some '[') :
    parse (outer.opening ++ t ++ outer.closing) = .array (parse (t.dropEndWhile isClosing)) := by
  obtain ⟨c, more, head, visible⟩ := exists_head_opening enclosing
  obtain ⟨d, foot, visible', closes, isListIn⟩ := exists_closing enclosing
  have trimmed : (outer.opening ++ t ++ outer.closing).trim = outer.opening ++ (t ++ [d]) := by
    rw [foot, List.append_assoc]
    have start : outer.opening ++ (t ++ [d]) = c :: (more ++ (t ++ [d])) := by
      rw [head, List.cons_append]
    exact Text.trim_eq_self_of_ends visible visible' start (List.append_assoc _ _ _).symm
  have absent : Text.beforeSuffix? "[]" (outer.opening ++ (t ++ [d])) = none := by
    refine Option.eq_none_iff_forall_ne_some.2 fun rest found => ?_
    have whole : outer.opening ++ t ++ [d] = rest ++ ['['] ++ [']'] := by
      rw [List.append_assoc, Text.beforeSuffix?_eq_some_iff.1 found, List.append_assoc]
      rfl
    obtain ⟨front, same⟩ := List.append_inj' whole rfl
    refine noBrackets (isListIn (List.singleton_inj.1 same)) ?_
    rw [front, List.getLast?_concat]
  have found : element? (outer.opening ++ t ++ outer.closing).trim =
      some (t.dropEndWhile isClosing) := by
    rw [trimmed, element?_opening enclosing absent, Text.dropEndWhile_append_singleton closes]
  exact parse_of_element? found

/-! ## Names -/

/-- Whether a text has none of the brackets that spellings are made of. -/
def Bracketless (t : Text) : Prop :=
  ∀ c ∈ t, c ∉ ['<', '>', '[', ']']

instance decidableBracketless (t : Text) : Decidable (Bracketless t) :=
  List.decidableBAll (fun c => c ∉ ['<', '>', '[', ']']) t

theorem Bracketless.unclosed {t : Text} (plain : Bracketless t) : ∀ c ∈ t, isClosing c = false := by
  intro c mem
  have other := plain c mem
  simp only [List.mem_cons, List.not_mem_nil, or_false, not_or] at other
  simp [isClosing, other]

theorem Bracketless.trim {t : Text} (plain : Bracketless t) : Bracketless t.trim :=
  fun c mem => plain c (Text.mem_of_mem_trim mem)

theorem element?_bracketless {t : Text} (plain : Bracketless t) : element? t = none := by
  have noBrackets : Text.beforeSuffix? "[]" t = none := by
    refine Option.eq_none_iff_forall_ne_some.2 fun rest found => ?_
    have mem : '[' ∈ t := by
      rw [Text.beforeSuffix?_eq_some_iff.1 found]
      exact List.mem_append_right rest (by decide)
    exact plain '[' mem (by decide)
  refine Option.eq_none_iff_forall_ne_some.2 fun rest found => ?_
  obtain ⟨outer, enclosing, inside, rfl, -⟩ := exists_of_element? noBrackets found
  have bracket : ∃ c ∈ outer.opening, c ∈ ['<', '>', '[', ']'] := by
    cases outer with
    | brackets => exact absurd rfl enclosing
    | arrayOf | listOf => exact ⟨'<', by decide, by decide⟩
    | listIn => exact ⟨'[', by decide, by decide⟩
  obtain ⟨c, mem, isBracket⟩ := bracket
  exact plain c (List.mem_append_left inside mem) isBracket

theorem parse_bracketless {t : Text} (plain : Bracketless t) : parse t = ofBaseName t.trim :=
  parse_of_element?_eq_none (element?_bracketless plain.trim)

/-- A type that is named is no array, and a name that is not known is kept. -/
theorem ofBaseName_cases (t : Text) :
    (ofBaseName t).depth = 0 ∧ (ofBaseName t).base = ofBaseName t ∧
      ∀ name, ofBaseName t = .opaqueType name → name = t := by
  unfold ofBaseName
  dsimp only
  repeat' split
  all_goals exact ⟨rfl, rfl, by intro name same; cases same; try rfl⟩

/-- No known name ends with an opening bracket. -/
theorem ofBaseName_of_open (t : Text) : ofBaseName (t ++ ['[']) = .opaqueType (t ++ ['[']) := by
  have unknown {names : List Text} (absent : ∀ name ∈ names, name.getLast? ≠ some '[') :
      Text.lower (t ++ ['[']) ∉ names := by
    intro mem
    refine absent _ mem ?_
    rw [Text.lower, List.map_append]
    exact List.getLast?_concat
  have noStructure : Composite.ofName? (t ++ ['[']) = none := by
    refine List.find?_eq_none.2 fun kind _ same => ?_
    have ending : (t ++ ['[']).trim = t.trimStart ++ ['['] := by
      rw [Text.trim, Text.trimStart_append_of_not_isBlank (by decide),
        Text.trimEnd_append_of_not_isBlank (by decide)]
    have last : kind.typeName.getLast? = some '[' := by
      rw [of_decide_eq_true same, ending]
      exact List.getLast?_concat
    cases kind <;> exact absurd last (by decide)
  rw [ofBaseName]
  simp only [noStructure]
  rw [if_neg (unknown (by decide)), if_neg (unknown (by decide)), if_neg (unknown (by decide)),
    if_neg (unknown (by decide))]

/-! ## Reading nested spellings -/

section Nested

variable {spellings : List ArraySpelling} {outer : ArraySpelling} {name t : Text}

theorem spell_append (spellings more : List ArraySpelling) (name : Text) :
    spell (spellings ++ more) name = spell spellings (spell more name) := by
  induction spellings with
  | nil => rfl
  | cons outer spellings ih => rw [List.cons_append, spell, ih, spell]

theorem openAll_append (spellings : List ArraySpelling) (t more : Text) :
    openAll spellings (t ++ more) = openAll spellings t ++ more := by
  induction spellings with
  | nil => rfl
  | cons outer spellings ih => rw [openAll, ih, openAll, List.append_assoc]

/-- Dropping the closing brackets at the end drops those of all spellings but brackets. -/
theorem dropEndWhile_spell (enclosing : brackets ∉ spellings) (t : Text) :
    (spell spellings t).dropEndWhile isClosing =
      openAll spellings (t.dropEndWhile isClosing) := by
  induction spellings with
  | nil => rfl
  | cons outer spellings ih =>
    rw [List.mem_cons, not_or] at enclosing
    obtain ⟨c, closing, -, closes, -⟩ := exists_closing (Ne.symm enclosing.1)
    rw [spell, closing, Text.dropEndWhile_append_singleton closes,
      dropEndWhile_opening (Ne.symm enclosing.1), ih enclosing.2, openAll]

theorem isClosing_of_mem_openAll (unclosed : ∀ c ∈ t, isClosing c = false) :
    ∀ c ∈ openAll spellings t, isClosing c = false := by
  induction spellings with
  | nil => exact unclosed
  | cons outer spellings ih =>
    refine List.forall_mem_append.2 ⟨?_, ih⟩
    cases outer <;> exact List.all_iff_forall_prop.1 (by decide)

/-- The openings alone make as many arrays as there are. -/
theorem parse_openAll (enclosing : brackets ∉ spellings) (unclosed : ∀ c ∈ t, isClosing c = false) :
    parse (openAll spellings t) = SchemaType.array^[spellings.length] (parse t) := by
  induction spellings with
  | nil => rfl
  | cons outer spellings ih =>
    rw [List.mem_cons, not_or] at enclosing
    rw [openAll, parse_opening (Ne.symm enclosing.1) (isClosing_of_mem_openAll unclosed),
      ih enclosing.2, List.length_cons, Function.iterate_succ_apply']

theorem depth_iterate (count : Nat) (type : SchemaType) :
    (SchemaType.array^[count] type).depth = count + type.depth := by
  induction count with
  | zero => exact (Nat.zero_add _).symm
  | succ count ih =>
    rw [Function.iterate_succ_apply', depth, ih, Nat.add_comm 1, Nat.add_right_comm]

theorem base_iterate (count : Nat) (type : SchemaType) :
    (SchemaType.array^[count] type).base = type.base := by
  induction count with
  | zero => rfl
  | succ count ih => rw [Function.iterate_succ_apply', base, ih]

/-- What ends a nest of spellings: the last closing bracket, or the last character of the name. -/
theorem getLast?_spell (plain : Bracketless name) (spellings : List ArraySpelling) :
    ∀ c ∈ (spell spellings name).getLast?, c ≠ '[' ∧ (c = 't' → spellings = [] ∧ 't' ∈ name) := by
  intro c last
  cases spellings with
  | nil =>
    have mem : c ∈ name := List.mem_of_getLast? last
    refine ⟨?_, fun same => ⟨rfl, same ▸ mem⟩⟩
    rintro rfl
    exact plain _ mem (by decide)
  | cons outer inner =>
    have closes : ∃ d ∈ ['>', ']'], outer.closing.getLast? = some d := by
      cases outer <;> exact ⟨_, by decide, rfl⟩
    obtain ⟨d, mem, ending⟩ := closes
    rw [spell, List.getLast?_append, ending, Option.some_or] at last
    obtain rfl := Option.mem_some_iff.1 last
    refine ⟨?_, ?_⟩ <;> rintro rfl <;> exact absurd mem (by decide)

/-! ### Names with a bracket left -/

theorem getLast?_of_trimStart {c : Char} (h : t.trimStart.getLast? = some c) :
    t.getLast? = some c := by
  rw [← Text.takeWhile_append_trimStart t, List.getLast?_append, h, Option.some_or]

/-- A text that ends with an opening bracket is read as a nest of arrays of a name that ends with
one; only of `list[` no name is left. By induction on the length, since each opening is taken off
the front. -/
theorem base_parse_of_open (t : Text) :
    ∃ rest, (parse (t ++ ['['])).base = .opaqueType rest ∧
      (rest.getLast? = some '[' ∨ rest = [] ∧ t.getLast? = some 't') := by
  have trimmed : (t ++ ['[']).trim = t.trimStart ++ ['['] := by
    rw [Text.trim, Text.trimStart_append_of_not_isBlank (by decide),
      Text.trimEnd_append_of_not_isBlank (by decide)]
  have noBrackets : Text.beforeSuffix? "[]" (t.trimStart ++ ['[']) = none := by
    refine Option.eq_none_iff_forall_ne_some.2 fun rest found => ?_
    have last := congrArg List.getLast? (Text.beforeSuffix?_eq_some_iff.1 found)
    have bracket : ("[]" : Text).getLast? = some ']' := rfl
    rw [List.getLast?_concat, List.getLast?_append, bracket, Option.some_or] at last
    exact absurd last (by decide)
  cases found : element? (t ++ ['[']).trim with
  | none =>
    refine ⟨t.trimStart ++ ['['], ?_, Or.inl List.getLast?_concat⟩
    rw [parse_of_element?_eq_none found, trimmed, ofBaseName_of_open]
    rfl
  | some rest =>
    rw [parse_of_element? found, base]
    rw [trimmed] at found
    obtain ⟨outer, enclosing, inside, whole, kept⟩ := exists_of_element? noBrackets found
    rcases List.eq_nil_or_concat inside with rfl | ⟨front, c, rfl⟩
    · have isListIn : outer = listIn := by
        have last := congrArg List.getLast? whole
        rw [List.getLast?_concat, List.append_nil] at last
        cases outer <;> first | rfl | exact absurd last (by decide)
      subst isListIn kept
      have spelled : t.trimStart = "list" :=
        List.append_cancel_right (whole.trans (List.append_nil _))
      refine ⟨[], ?_, Or.inr ⟨rfl, getLast?_of_trimStart (by rw [spelled]; rfl)⟩⟩
      exact congrArg base (parse_bracketless (List.forall_mem_nil _))
    · rw [List.concat_eq_append, ← List.append_assoc] at whole
      obtain ⟨front', same⟩ := List.append_inj' whole rfl
      obtain rfl := List.singleton_inj.1 same
      have shorter : front.length < t.length := by
        have size := congrArg List.length front'
        obtain ⟨c, more, head, -⟩ := exists_head_opening enclosing
        have start := (List.dropWhile_suffix Text.isBlank (l := t)).length_le
        rw [← Text.trimStart, size, head, List.length_append, List.length_cons] at start
        omega
      have kept' : rest = front ++ ['['] := by
        rw [kept, List.concat_eq_append]
        exact Text.dropEndWhile_append_cons (by decide)
      obtain ⟨rest', read, ends⟩ := base_parse_of_open front
      refine ⟨rest', kept' ▸ read, ends.imp_right ?_⟩
      rintro ⟨empty, last⟩
      refine ⟨empty, getLast?_of_trimStart ?_⟩
      rw [front', List.getLast?_append, last, Option.some_or]
  termination_by t.length

theorem getLast?_openAll {c : Char} (h : (openAll spellings t).getLast? = some c) :
    t.getLast? = some c ∨ c ∈ ['<', '['] := by
  induction spellings with
  | nil => exact Or.inl h
  | cons outer spellings ih =>
    rw [openAll, List.getLast?_append] at h
    cases last : (openAll spellings t).getLast? with
    | some d =>
      rw [last, Option.some_or] at h
      exact ih (last.trans h)
    | none =>
      rw [last, Option.none_or] at h
      refine Or.inr ?_
      cases outer <;> cases h <;> decide

theorem parse_eq_opaqueType {rest : Text} (plain : Bracketless name)
    (h : parse name = .opaqueType rest) : rest = name.trim := by
  rw [parse_bracketless plain] at h
  exact (ofBaseName_cases name.trim).2.2 rest h

/-- With one closing bracket dropped, the text inside is no name of an array. -/
theorem base_parse_cut_ne (plain : Bracketless name) (enclosing more : List ArraySpelling) :
    (parse (openAll enclosing (spell more name ++ ['[']))).base ≠ parse name := by
  intro same
  rw [openAll_append] at same
  obtain ⟨rest, read, ends⟩ := base_parse_of_open (openAll enclosing (spell more name))
  have kept : rest = name.trim := parse_eq_opaqueType plain (same.symm.trans read)
  rcases ends with bracket | ⟨empty, last⟩
  · have mem : '[' ∈ name.trim := kept ▸ List.mem_of_getLast? bracket
    exact plain.trim _ mem (by decide)
  · have blank : Text.Blank name := Text.blank_of_trim_eq_nil (kept.symm.trans empty)
    rcases getLast?_openAll last with inside | bracket
    · obtain ⟨-, mem⟩ := (getLast?_spell plain more 't' inside).2 rfl
      exact absurd (blank _ mem) (by decide)
    · exact absurd bracket (by decide)

/-! ### The whole nest -/

theorem spell_eq_nil (empty : spell spellings name = []) : spellings = [] ∧ name = [] := by
  cases spellings with
  | nil => exact ⟨rfl, empty⟩
  | cons outer inner =>
    obtain ⟨-, closed⟩ := List.append_eq_nil_iff.1 empty
    cases outer <;> exact absurd closed (by decide)

theorem compose_cons (enclosing : outer ≠ brackets) (inner : List ArraySpelling) :
    Compose name (outer :: inner) ↔
      brackets ∉ inner ∧ ¬ (outer = listIn ∧ inner = [] ∧ name = []) := by
  cases outer with
  | brackets => exact absurd rfl enclosing
  | arrayOf | listOf | listIn => exact Iff.rfl

/-- A nest around a name that is not missing ends with no pair of brackets of `list[]`. -/
theorem parse_spell_cons (enclosing : outer ≠ brackets) (plain : Bracketless name)
    {inner : List ArraySpelling} (named : ¬ (outer = listIn ∧ inner = [] ∧ name = [])) :
    parse (spell (outer :: inner) name) =
      .array (parse ((spell inner name).dropEndWhile isClosing)) := by
  refine parse_enclosed enclosing fun isListIn last => ?_
  cases ending : (spell inner name).getLast? with
  | none => exact named ⟨isListIn, spell_eq_nil (List.getLast?_eq_none_iff.1 ending)⟩
  | some c =>
    rw [List.getLast?_append, ending, Option.some_or] at last
    exact (getLast?_spell plain inner c ending).1 (Option.some.inj last)

theorem array_composes_iff {type : SchemaType} {base : SchemaType} {count : Nat} :
    ((SchemaType.array type).depth = count + 1 ∧ (SchemaType.array type).base = base) ↔
      type.depth = count ∧ type.base = base := by
  rw [depth, SchemaType.base, Nat.add_comm 1, Nat.add_right_cancel_iff]

/-- A nest of spellings around a name is read as arrays of that depth around the type of the name
exactly when no brackets stand inside of another spelling, and the name is not missing between the
brackets of `list[]`. -/
theorem parse_spell_iff (plain : Bracketless name) (spellings : List ArraySpelling) :
    ((parse (spell spellings name)).depth = spellings.length ∧
        (parse (spell spellings name)).base = parse name) ↔ Compose name spellings := by
  induction spellings with
  | nil =>
    have named := ofBaseName_cases name.trim
    refine iff_of_true ?_ trivial
    rw [spell, parse_bracketless plain]
    exact ⟨named.1, named.2.1⟩
  | cons outer inner ih =>
    by_cases enclosing : outer = brackets
    case pos =>
      subst enclosing
      have read : parse (spell (brackets :: inner) name) = .array (parse (spell inner name)) :=
        parse_brackets _
      rw [read, List.length_cons, array_composes_iff, ih, Compose]
    case neg =>
      rw [compose_cons enclosing]
      by_cases named : outer = listIn ∧ inner = [] ∧ name = []
      case pos =>
        obtain ⟨rfl, rfl, rfl⟩ := named
        refine iff_of_false (fun composes => ?_) fun composes => composes.2 ⟨rfl, rfl, rfl⟩
        exact absurd composes.2 (by decide +kernel)
      case neg =>
        rw [parse_spell_cons enclosing plain named, List.length_cons, array_composes_iff]
        by_cases nested : brackets ∈ inner
        case pos =>
          obtain ⟨around, more, rfl, outside⟩ := List.eq_append_cons_of_mem nested
          refine iff_of_false (fun composes => ?_) fun composes => composes.1 nested
          have cut : (spell (around ++ brackets :: more) name).dropEndWhile isClosing =
              openAll around (spell more name ++ ['[']) := by
            rw [spell_append, dropEndWhile_spell outside]
            refine congrArg (openAll around) ?_
            have whole : spell (brackets :: more) name = spell more name ++ ['['] ++ [']'] :=
              (List.append_assoc (spell more name) ['['] [']']).symm
            rw [whole, Text.dropEndWhile_append_singleton (by decide)]
            exact Text.dropEndWhile_append_cons (by decide)
          rw [cut] at composes
          exact base_parse_cut_ne plain around more composes.2
        case neg =>
          have known := ofBaseName_cases name.trim
          refine iff_of_true ?_ ⟨nested, named⟩
          rw [dropEndWhile_spell nested, Text.dropEndWhile_eq_self plain.unclosed,
            parse_openAll nested plain.unclosed, depth_iterate, base_iterate,
            parse_bracketless plain]
          exact ⟨by rw [known.1, Nat.add_zero], known.2.1⟩

/-- Brackets around mixed spellings of arrays of numbers. -/
theorem parse_spell_iff_number :
    Bracketless "number" ∧
      (parse "Array<list[number]>[][]").depth = 4 ∧
      (parse "Array<list[number]>[][]").base = .number := by
  have plain : Bracketless "number" := by decide
  have composes : Compose "number" [brackets, brackets, arrayOf, listIn] :=
    ⟨by decide, by decide⟩
  have read := (parse_spell_iff plain [brackets, brackets, arrayOf, listIn]).2 composes
  exact ⟨plain, read.1, read.2.trans (by decide +kernel)⟩

/-- An array of number arrays is read as an array of an unknown type. -/
theorem parse_spell_brackets_inside :
    Bracketless "number" ∧ parse "Array<number[]>" = .array (.opaqueType "number[") ∧
      ¬ ((parse (spell [arrayOf, brackets] "number")).depth = 2 ∧
        (parse (spell [arrayOf, brackets] "number")).base = parse "number") := by
  decide +kernel

end Nested

end SchemaType

end HarnessSynthesis
