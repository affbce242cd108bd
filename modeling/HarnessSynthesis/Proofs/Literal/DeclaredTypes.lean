/-
# Declared types spelled anew

A harness declares an argument with the type as `NativeType.render` spells it, and writes the
literal by reading that spelling, not the user's. In Java the reading is the type that was spelled.
In C++ arrays become vectors, which makes no difference to a literal, and bytes become
`signed char`, a spelling that is not read as a scalar: an element that is there is then written for
the text of a type instead of as a number.

The parts of a text are trimmed as it is read, so what is said about reading holds for every text
and not only for trimmed ones.
-/

import HarnessSynthesis.Proofs.Harness.Calls
import HarnessSynthesis.Proofs.Json.RoundTrip
import HarnessSynthesis.Proofs.Text.Search

namespace HarnessSynthesis

open Json

namespace NativeType

variable {l : Language}

/-! ## Reading -/

theorem parse_eq (l : Language) (written : Text) :
    parse l written =
      match arrayElement? written.trim with
      | some rest => .array (parse l rest)
      | none =>
        match generic? written.trim with
        | some (outer, argument) =>
          if isContainer l outer then .list outer (parse l argument) else .other written.trim
        | none => ofName written.trim := by
  rw [parse]
  split
  · rename_i isArray
    rw [isArray]
  · rename_i notArray
    rw [notArray]
    split
    · rename_i isGeneric
      simp only [isGeneric]
    · rename_i notGeneric
      simp only [notGeneric]

/-- Only the trimmed text counts. -/
theorem parse_congr {written written' : Text} (same : written.trim = written'.trim) :
    parse l written = parse l written' := by
  rw [parse_eq l written, parse_eq l written', same]

theorem eq_of_ofName_eq_other {t text : Text} (h : ofName t = .other text) : text = t := by
  have scalar : ∀ entry ∈ scalars, ∀ text, entry.1 ≠ .other text := by
    simp [scalars]
  rw [ofName] at h
  split at h
  · cases h
  · split at h
    · rename_i found
      exact absurd h (scalar _ (List.mem_of_find?_eq_some found) text)
    · cases h
      rfl

/-- The text that a type keeps is the one that was read, and is kept again. -/
theorem parse_of_parse_eq_other {written text : Text} (h : parse l written = .other text) :
    parse l text = .other text := by
  have kept : text = written.trim := by
    rw [parse_eq] at h
    split at h
    · cases h
    · split at h
      · split at h
        · cases h
        · cases h
          rfl
      · exact eq_of_ofName_eq_other h
  rw [kept, parse_congr (Text.trim_trim written), h, kept]

/-- What can come of reading: containers have their names, and a text that is kept is kept again. -/
def IsRead (l : Language) : NativeType → Prop
  | .array element => element.IsRead l
  | .list container element => isContainer l container = true ∧ element.IsRead l
  | .other text => parse l text = .other text
  | _ => True

theorem isRead_parse (l : Language) (written : Text) : (parse l written).IsRead l := by
  fun_induction parse l written with
  | case1 written rest isArray ih => exact ih
  | case2 written notArray outer argument isGeneric container ih => exact ⟨container, ih⟩
  | case3 written notArray outer argument isGeneric notContainer =>
    have kept : parse l written = .other written.trim := by
      rw [parse_eq, notArray]
      simp only [isGeneric, if_neg notContainer]
    exact parse_of_parse_eq_other kept
  | case4 written notArray notGeneric =>
    have scalar : ∀ entry ∈ scalars, entry.1.IsRead l := by
      simp [scalars, IsRead]
    have result : parse l written = ofName written.trim := by
      rw [parse_eq, notArray]
      simp only [notGeneric]
    rw [ofName] at result ⊢
    split
    · trivial
    · split
      · rename_i found
        exact scalar _ (List.mem_of_find?_eq_some found)
      · rename_i noStructure _ noScalar
        have kept : parse l written = .other written.trim := by
          simp only [result, noStructure, noScalar]
        exact parse_of_parse_eq_other kept

/-! ## Reading a spelling -/

theorem arrayElement?_append_brackets (t : Text) : arrayElement? (t ++ "[]") = some t := by
  have noDots : Text.beforeSuffix? "..." (t ++ "[]") = none := by
    rw [Text.beforeSuffix?, List.reverse_append]
    rfl
  rw [arrayElement?, noDots]
  exact Text.beforeSuffix?_eq_some_iff.2 rfl

theorem parse_append_brackets (l : Language) (t : Text) :
    parse l (t ++ "[]") = .array (parse l t) := by
  rw [parse_eq, Text.trim_append_brackets, arrayElement?_append_brackets]
  exact congrArg NativeType.array (parse_congr (Text.trim_trimStart t))

/-- The names of containers are words. -/
theorem exists_of_isContainer {container : Text} (h : isContainer l container = true) :
    ∃ c name, container = c :: name ∧ Text.isBlank c = false ∧ '<' ∉ container ∧
      container.trim = container := by
  rw [isContainer] at h
  split at h <;>
  · obtain ⟨word, place, same⟩ := List.any_eq_true.1 h
    obtain rfl := eq_of_beq same
    simp only [List.mem_cons, List.not_mem_nil, or_false] at place
    rcases place with rfl | rfl | rfl | rfl | rfl | rfl | rfl <;> exact ⟨_, _, rfl, by decide⟩

theorem parse_generic {container : Text} (h : isContainer l container = true) (t : Text) :
    parse l (container ++ ['<'] ++ t ++ ['>']) = .list container (parse l t) := by
  obtain ⟨c, name, spelled, unblank, noBracket, trimmed⟩ := exists_of_isContainer h
  have whole : (container ++ ['<'] ++ t ++ ['>']).trim = container ++ ['<'] ++ t ++ ['>'] := by
    have start : (container ++ ['<'] ++ t ++ ['>']).trimStart =
        container ++ ['<'] ++ t ++ ['>'] := by
      rw [spelled]
      exact Text.trimStart_cons_of_not_isBlank unblank
    rw [Text.trim, start]
    exact Text.trimEnd_append_of_not_isBlank (by decide)
  have noArray : arrayElement? (container ++ ['<'] ++ t ++ ['>']) = none := by
    rw [arrayElement?, Text.beforeSuffix?, Text.beforeSuffix?, List.reverse_append]
    rfl
  have isGeneric : generic? (container ++ ['<'] ++ t ++ ['>']) = some (container, t) := by
    have opened : Text.cut? ['<'] (container ++ ['<'] ++ t ++ ['>']) =
        some (container, t ++ ['>']) := by
      rw [List.append_assoc, List.append_assoc]
      exact Text.cut?_singleton_of_not_mem noBracket
    have closed : Text.beforeSuffix? ['>'] (t ++ ['>']) = some t :=
      Text.beforeSuffix?_eq_some_iff.2 rfl
    simp only [generic?, opened, Option.bind_eq_bind, Option.bind_some, closed, trimmed]
    rfl
  rw [parse_eq, whole, noArray, isGeneric]
  simp only [if_pos h]

theorem parse_renderJava {t : NativeType} (h : t.IsRead .java) (boxed : Bool) :
    parse .java (t.renderJava boxed) = t := by
  induction t generalizing boxed with
  | array element ih => exact (parse_append_brackets _ _).trans (congrArg _ (ih h false))
  | list container element ih => exact (parse_generic h.1 _).trans (congrArg _ (ih h.2 true))
  | other text => exact h
  | composite kind =>
    change parse .java kind.typeName = .composite kind
    cases kind <;> decide +kernel
  | int | long | short | byte | double | float | bool | char | str =>
    cases boxed <;> decide +kernel

/-- What a C++ spelling of a type is read as. -/
def respelt : NativeType → NativeType
  | .array element => .list "vector" element.respelt
  | .list _ element => .list "vector" element.respelt
  | .byte => .other "signed char"
  | t => t

theorem parse_renderCpp {t : NativeType} (h : t.IsRead .cpp) :
    parse .cpp t.renderCpp = t.respelt := by
  have isVector : isContainer .cpp "vector" = true := by decide
  induction t with
  | array element ih => exact (parse_generic isVector _).trans (congrArg _ (ih h))
  | list container element ih => exact (parse_generic isVector _).trans (congrArg _ (ih h.2))
  | other text => exact h
  | composite kind => cases kind <;> decide +kernel
  | int | long | short | byte | double | float | bool | char | str => decide +kernel

theorem renderCpp_respelt (t : NativeType) : t.respelt.renderCpp = t.renderCpp := by
  induction t with
  | array element ih | list container element ih =>
    exact congrArg (fun spelled : Text => "vector<" ++ spelled ++ ['>']) ih
  | _ => rfl

/-! ## Bytes in values -/

/-- Whether an element of a value that is there stands where the type has a byte. -/
def showsByte : NativeType → Value → Bool
  | .byte, v => !v.isNull
  | .array element, v => (v.items?.getD []).any element.showsByte
  | .list _ element, v => (v.items?.getD []).any element.showsByte
  | _, _ => false

/-- A type with bytes is made of bytes, and its spelling has no capital letter. -/
theorem not_mem_renderCpp_of_showsByte {t : NativeType} {v : Value} (h : t.showsByte v = true) :
    'J' ∉ t.renderCpp := by
  induction t generalizing v with
  | byte => decide
  | array element ih | list container element ih =>
    obtain ⟨item, -, shown⟩ := List.any_eq_true.1 h
    change 'J' ∉ "vector<".toList ++ element.renderCpp ++ ['>']
    simp [ih shown]
  | _ => cases h

end NativeType

namespace Text

theorem mem_join_of_mem {separator : Text} {c : Char} {ts : List Text} {t : Text} (place : t ∈ ts)
    (h : c ∈ t) : c ∈ join separator ts := by
  induction ts with
  | nil => cases place
  | cons s ts ih =>
    cases ts with
    | nil =>
      rw [List.mem_singleton] at place
      exact place ▸ h
    | cons s' ts =>
      change c ∈ s ++ separator ++ join separator (s' :: ts)
      rw [List.mem_append, List.mem_append]
      rcases List.mem_cons.1 place with rfl | later
      · exact Or.inl (Or.inl h)
      · exact Or.inr (ih later)

theorem mem_or_exists_of_mem_join {separator : Text} {c : Char} {ts : List Text}
    (h : c ∈ join separator ts) : c ∈ separator ∨ ∃ t ∈ ts, c ∈ t := by
  induction ts with
  | nil => cases h
  | cons s ts ih =>
    cases ts with
    | nil => exact Or.inr ⟨s, List.mem_cons_self, h⟩
    | cons s' ts =>
      change c ∈ s ++ separator ++ join separator (s' :: ts) at h
      rw [List.mem_append, List.mem_append] at h
      rcases h with (first | between) | later
      · exact Or.inr ⟨s, List.mem_cons_self, first⟩
      · exact Or.inl between
      · exact (ih later).imp id fun ⟨t, place, inside⟩ => ⟨t, List.mem_cons_of_mem s place, inside⟩

end Text

theorem Json.Value.isNull_eq_false {v : Value} (h : v ≠ .null) : v.isNull = false := by
  cases v <;> first | rfl | exact absurd rfl h

namespace Literal

open NativeType

variable {t element : NativeType} {v : Value}

/-! ## Literals of bytes -/

theorem native_list_cpp (container : Text) (present : v.isNull = false) :
    native .cpp (.list container element) v =
      ['{'] ++ Text.join ", " ((v.items?.getD []).map (native .cpp element)) ++ ['}'] :=
  native_list present

theorem native_list_null (container : Text) (element : NativeType) :
    native .cpp (.list container element) .null = "vector<" ++ element.renderCpp ++ ['>'] ++ "()" :=
  rfl

/-- Arrays are written as vectors. -/
theorem native_array_cpp (container : Text) (element : NativeType) (v : Value) :
    native .cpp (.array element) v = native .cpp (.list container element) v := by
  cases v <;> rfl

theorem native_respelt_list (container : Text)
    (same : ∀ item ∈ v.items?.getD [],
      native .cpp element.respelt item = native .cpp element item) :
    native .cpp (.list "vector" element.respelt) v = native .cpp (.list container element) v := by
  by_cases null : v = .null
  · rw [null, native_list_null, native_list_null, renderCpp_respelt]
  · have present := Value.isNull_eq_false null
    rw [native_list_cpp _ present, native_list_cpp _ present, List.map_congr_left same]

/-- Where no byte shows, a spelling makes no difference. -/
theorem native_respelt (hidden : t.showsByte v = false) :
    native .cpp t.respelt v = native .cpp t v := by
  induction t generalizing v with
  | array element ih =>
    rw [native_array_cpp "vector"]
    refine native_respelt_list "vector" fun item place => ih ?_
    exact Bool.eq_false_iff.2 (List.any_eq_false.1 hidden item place)
  | list container element ih =>
    refine native_respelt_list container fun item place => ih ?_
    exact Bool.eq_false_iff.2 (List.any_eq_false.1 hidden item place)
  | byte =>
    cases v <;> first | decide | cases hidden
  | _ => rfl

theorem not_mem_integer (v : Value) : 'J' ∉ integer [] v := by
  have digits : ∀ i : Int, 'J' ∉ Text.ofInt i := by
    intro i h
    have digit : 'J' = '-' ∨ Text.isAsciiDigit 'J' = true := by
      cases i with
      | ofNat n => exact Or.inr (Text.isAsciiDigit_of_mem_ofNat n h)
      | negSucc n => exact (List.mem_cons.1 h).imp id (Text.isAsciiDigit_of_mem_ofNat (n + 1))
    exact absurd digit (by decide)
  rw [integer]
  split <;> simp [digits]

theorem not_mem_native_list {container : Text} (spelled : 'J' ∉ element.renderCpp)
    (items : ∀ item, 'J' ∉ native .cpp element item) (w : Value) :
    'J' ∉ native .cpp (.list container element) w := by
  by_cases null : w = .null
  · rw [null, native_list_null]
    simp [spelled]
  · rw [native_list_cpp _ (Value.isNull_eq_false null), List.mem_append, List.mem_append]
    rintro ((brace | inside) | brace)
    · exact absurd brace (by decide)
    · rcases Text.mem_or_exists_of_mem_join inside with between | ⟨literal, place, inside⟩
      · exact absurd between (by decide)
      · obtain ⟨item, -, rfl⟩ := List.mem_map.1 place
        exact items item inside
    · exact absurd brace (by decide)

/-- The literal of a sequence of bytes has numbers only. -/
theorem not_mem_native_of_showsByte (shown : t.showsByte v = true) (w : Value) :
    'J' ∉ native .cpp t w := by
  induction t generalizing v w with
  | byte =>
    cases w with
    | null => decide
    | bool b => exact not_mem_integer (.bool b)
    | number n => exact not_mem_integer (.number n)
    | string s => exact not_mem_integer (.string s)
    | array items => exact not_mem_integer (.array items)
    | object members => exact not_mem_integer (.object members)
  | array element ih =>
    obtain ⟨item, -, inner⟩ := List.any_eq_true.1 shown
    rw [native_array_cpp "vector"]
    exact not_mem_native_list (not_mem_renderCpp_of_showsByte inner) (ih inner) w
  | list container element ih =>
    obtain ⟨item, -, inner⟩ := List.any_eq_true.1 shown
    exact not_mem_native_list (not_mem_renderCpp_of_showsByte inner) (ih inner) w
  | _ => cases shown

/-- A byte that shows is converted by the name of a type once its type is spelled. -/
theorem mem_native_respelt_of_showsByte (shown : t.showsByte v = true) :
    'J' ∈ native .cpp t.respelt v := by
  induction t generalizing v with
  | byte =>
    have present : v.isNull = false := by
      rwa [showsByte, Bool.not_eq_true'] at shown
    rw [respelt, native_other_cpp present (by decide)]
    exact List.mem_cons_self
  | array element ih | list container element ih =>
    obtain ⟨item, place, inner⟩ := List.any_eq_true.1 shown
    have present : v.isNull = false := by
      cases v <;> first | rfl | cases place
    rw [respelt, native_list_cpp _ present]
    refine List.mem_append_left _ (List.mem_append_right _ ?_)
    exact Text.mem_join_of_mem (List.mem_map_of_mem place) (ih inner)
  | _ => cases shown

theorem native_respelt_eq_iff :
    native .cpp t.respelt v = native .cpp t v ↔ t.showsByte v = false := by
  refine ⟨fun same => ?_, native_respelt⟩
  rw [Bool.eq_false_iff]
  intro shown
  exact not_mem_native_of_showsByte shown v (same ▸ mem_native_respelt_of_showsByte shown)

/-- Spelling a declared type anew changes no literal of Java, and in C++ it changes the literals in
which a byte shows. -/
theorem write_render_parse (d : Text) (t : SchemaType) (v : Value) :
    write .java t (some ((parse .java d).render .java false)) v = write .java t (some d) v ∧
      (write .cpp t (some ((parse .cpp d).render .cpp false)) v = write .cpp t (some d) v ↔
        (parse .cpp d).showsByte v = false) := by
  constructor
  · exact congrArg (native .java · v) (parse_renderJava (isRead_parse .java d) false)
  · rw [← native_respelt_eq_iff, ← parse_renderCpp (isRead_parse .cpp d)]
    rfl

/-- A byte of C++ is no longer a number once its type is spelled. -/
theorem write_render_parse_byte :
    write .cpp .number (some ((parse .cpp "byte").render .cpp false)) (.int 5) ≠
      write .cpp .number (some "byte") (.int 5) := by
  decide +kernel

end Literal

end HarnessSynthesis
