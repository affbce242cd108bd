/-
# Where static is written

The places at which `makeStatic` writes its word are found in the stripped source, by scanners that
go over whatever they meet: type names, blanks of every script, strings. Still each of them is the
place of a character of the source that is neither in a comment nor part of a mark, an escape or a
string's end. So the word can be written in there, what was a comment stays one, and nothing else
becomes one.
-/

import Mathlib.Data.Bool.AllAny
import Mathlib.Data.Finset.Sort
import HarnessSynthesis.Proofs.Entry.Headers
import HarnessSynthesis.Proofs.Entry.Insertion
import HarnessSynthesis.Proofs.Source.TypeHead

namespace HarnessSynthesis.TypedSource

open Source
open Text (isBlank isAsciiBlank isNameStart)

/-! ## Places in the stripped source -/

/-- A class is read as its keyword, blanks and its name. -/
theorem spelled_of_class? {previous : Option Char} {t behind : Text}
    (h : class? previous t = some ((), behind)) :
    ∃ gap name, t = "class".toList ++ (gap ++ (name ++ behind)) ∧ Text.Blank gap ∧ gap ≠ [] ∧
      IsName isNameStart Text.isWordChar name := by
  obtain ⟨-, -, h⟩ := Option.bind_eq_some_iff.1 h
  obtain ⟨rest, keyword, h⟩ := Option.bind_eq_some_iff.1 h
  obtain ⟨atName, spaced, h⟩ := Option.bind_eq_some_iff.1 h
  obtain ⟨⟨name, rest'⟩, named, h⟩ := Option.bind_eq_some_iff.1 h
  cases h
  obtain ⟨gap, nonempty, blank, apart⟩ := exists_of_blanks? spaced
  refine ⟨gap, name, ?_, blank, nonempty, isName_of_name? named⟩
  rw [Text.afterPrefix?_eq_some_iff.1 keyword, apart, eq_append_of_name? named]

/-- A class is found where its keyword stands. -/
theorem exists_of_class? {previous : Option Char} {t behind : Text}
    (h : class? previous t = some ((), behind)) : ∃ rest, t = 'c' :: rest ∧ behind <:+ rest := by
  obtain ⟨gap, name, rfl, -⟩ := spelled_of_class? h
  exact ⟨"lass" ++ (gap ++ (name ++ behind)), rfl, "lass" ++ (gap ++ name),
    by simp only [List.append_assoc]⟩

theorem takes_class? : Scanner.Takes class? := by
  intro previous t behind found h
  obtain ⟨rest, rfl, ending⟩ := exists_of_class? h
  exact ending.trans (List.suffix_cons _ _)

/-- The characters in front of which the word is written. -/
def StartsType (c : Char) : Prop :=
  isNameStart c = true ∨ c = '<' ∨ isBlank c = true ∧ isAsciiBlank c = false

instance (c : Char) : Decidable (StartsType c) :=
  inferInstanceAs (Decidable (_ ∨ _ ∨ _ ∧ _))

/-- No such character has a part in a comment, and none is a blank that comments leave. -/
theorem StartsType.not_mem {c : Char} (h : StartsType c) :
    c ∉ ['"', '\'', '`', '#', '/', '*', '\\', '\n', ' '] := by
  intro mem
  have all : ∀ d ∈ ['"', '\'', '`', '#', '/', '*', '\\', '\n', ' '],
      isNameStart d = false ∧ d ≠ '<' ∧ (isBlank d = true → isAsciiBlank d = true) :=
    List.all_iff_forall_prop.1 (by decide)
  obtain ⟨noName, noAngle, blank⟩ := all c mem
  rcases h with name | angle | ⟨space, wide⟩
  · rw [noName] at name
    cases name
  · exact noAngle angle
  · rw [blank space] at wide
    cases wide

theorem StartsType.idle {c : Char} (h : StartsType c) : Idle .java c := by
  have absent := h.not_mem
  simp only [List.mem_cons, List.not_mem_nil, or_false, not_or] at absent
  constructor
  · simp [isDelimiter, absent]
  · simp [absent]

theorem StartsType.visible {c : Char} (h : StartsType c) : ¬ IsBlanking c := by
  have absent := h.not_mem
  rintro (rfl | rfl) <;> exact absent (by decide)

theorem StartsType.isAsciiBlank {c : Char} (h : StartsType c) : Text.isAsciiBlank c = false := by
  rcases h with name | rfl | ⟨-, wide⟩
  · refine Bool.eq_false_iff.2 fun blank => ?_
    simp only [Text.isAsciiBlank, Bool.or_eq_true, beq_iff_eq] at blank
    rcases blank with (((rfl | rfl) | rfl) | rfl) | rfl <;> exact absurd name (by decide)
  · decide
  · exact wide

/-- Every offset is the place of a character that may start a type. -/
theorem exists_of_mem_offsets {stripped : Text} {place : Nat}
    (h : place ∈ methodOffsets stripped ∨ place ∈ classOffsets stripped) :
    ∃ (front : Text) (c : Char) (back : Text),
      stripped = front ++ c :: back ∧ Text.octets front = place ∧ StartsType c := by
  rcases h with method | outer
  · obtain ⟨candidate, found, placed⟩ := List.mem_filterMap.1 method
    obtain ⟨hit, occurs, declared⟩ := List.mem_filterMap.1 found
    obtain ⟨-, -, header, -, -, -, read, -, -, -, offset⟩ := exists_of_declared? declared
    obtain ⟨rest, behind', whole, -⟩ := exists_of_mem_occurrences readsTo_callable?.takes occurs
    obtain ⟨c, more, before, starts⟩ := exists_of_header? read
    obtain ⟨-, size⟩ := Option.ite_none_right_eq_some.1 placed
    refine ⟨header.before, c, more ++ rest, ?_, offset.symm.trans (Option.some.inj size), starts⟩
    rw [whole, before, List.append_assoc, List.cons_append]
  · obtain ⟨hit, occurs, placed⟩ := List.mem_filterMap.1 outer
    obtain ⟨rest, behind, whole, read⟩ := exists_of_mem_occurrences takes_class? occurs
    obtain ⟨more, rfl, -⟩ := exists_of_class? read
    obtain ⟨-, size⟩ := Option.ite_none_right_eq_some.1 placed
    exact ⟨hit.before, 'c', more, whole, Option.some.inj size, Or.inl (by decide)⟩

/-! ## Places in the source -/

/-- The offsets of a stripped source are places of the source itself, outside of its comments. -/
theorem exists_of_mem_offsets_stripComments {source : Text} {place : Nat}
    (h : place ∈ methodOffsets (stripComments .java source) ∨
      place ∈ classOffsets (stripComments .java source)) :
    ∃ (before : Text) (c : Char) (rest : Text), source = before ++ c :: rest ∧
      Text.octets before = place ∧ (regionAt .java .code before (c :: rest)).Keeps ∧
      Idle .java c := by
  obtain ⟨front, c, back, stripped, size, starts⟩ := exists_of_mem_offsets h
  obtain ⟨before, rest, whole, same, keeps⟩ := exists_of_stripFrom_eq stripped starts.visible
  exact ⟨before, c, rest, whole, same.trans size, keeps, starts.idle⟩

theorem idle_static : ∀ c ∈ "static ".toList, Idle .java c :=
  List.all_iff_forall_prop.1 (by decide)

/-- Writing `static` into a Java source is writing it in between parts of the source, at ascending
offsets at which the source can be cut and which are in no comment. The comments of the new source
are those of the old one: stripped it is the stripped old source, with the word at the same
offsets. -/
theorem makeStatic_inserts (source : Text) :
    ∃ offsets : List Nat, offsets.Pairwise (· < ·) ∧
      (∀ place, place ∈ offsets ↔ place ∈ methodOffsets (stripComments .java source) ∨
        place ∈ classOffsets (stripComments .java source)) ∧
      (∀ place ∈ offsets, ∃ before rest, source = before ++ rest ∧
        Text.octets before = place ∧ (regionAt .java .code before rest).Keeps) ∧
      splice? "static " 0 offsets source = some (makeStatic source) ∧
      splice? "static " 0 offsets (stripComments .java source) =
        some (stripComments .java (makeStatic source)) := by
  let found := methodOffsets (stripComments .java source) ++
    classOffsets (stripComments .java source)
  have same (place : Nat) : place ∈ found.toFinset.sort ↔
      place ∈ methodOffsets (stripComments .java source) ∨
        place ∈ classOffsets (stripComments .java source) := by
    rw [Finset.mem_sort, List.mem_toFinset, List.mem_append]
  have ascending : found.toFinset.sort.Pairwise (· < ·) :=
    (Finset.sortedLT_sort found.toFinset).pairwise
  have written : insertAt "static " found.toFinset.sort 0 source = makeStatic source := by
    refine insertAt_congr (fun place _ => ?_) source
    rw [same, List.mem_append]
  refine ⟨found.toFinset.sort, ascending, same, ?outside, ?inserted, ?stripped⟩
  case outside =>
    intro place mem
    obtain ⟨before, c, rest, whole, size, keeps, -⟩ :=
      exists_of_mem_offsets_stripComments ((same place).1 mem)
    exact ⟨before, c :: rest, whole, size, keeps⟩
  case inserted =>
    rw [← written]
    refine splice?_eq_insertAt ascending fun place mem => ⟨Nat.zero_le place, ?_⟩
    obtain ⟨before, c, rest, whole, size, -⟩ :=
      exists_of_mem_offsets_stripComments ((same place).1 mem)
    exact ⟨before, c :: rest, whole, size⟩
  case stripped =>
    have placed : WellPlaced .java .code 0 found.toFinset.sort source := by
      intro place mem _
      obtain ⟨before, c, rest, whole, size, keeps, idle⟩ :=
        exists_of_mem_offsets_stripComments ((same place).1 mem)
      exact ⟨before, c, rest, whole, by rw [size, Nat.zero_add], keeps, idle⟩
    have belongs : Region.code.Belongs .java := trivial
    have commutes : stripComments .java (makeStatic source) =
        insertAt "static " found.toFinset.sort 0 (stripComments .java source) := by
      rw [← written]
      exact stripFrom_insertAt (by decide) idle_static (by decide) belongs placed
    rw [commutes]
    refine splice?_eq_insertAt ascending fun place mem => ⟨Nat.zero_le place, ?_⟩
    obtain ⟨front, c, back, whole, size, -⟩ := exists_of_mem_offsets ((same place).1 mem)
    exact ⟨front, c :: back, whole, size⟩

end HarnessSynthesis.TypedSource
