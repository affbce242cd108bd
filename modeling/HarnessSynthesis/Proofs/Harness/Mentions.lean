/-
# Structures that a type mentions

A declared type is read for its structures in two ways: `NativeType.parse` follows its arrays and
containers, and the plan of a harness looks for the names of structures among the words of its text.
Whatever the first finds the second finds too, since everything that an array or a container adds
to the text of its element is set off from it. A type that is written out again mentions nothing
new.

A type that is derived from the schema mentions the structure of the schema's type. There is one
other way for a name to get into it: of a name that means nothing to the schema the text is kept
when no sample shows what stands there.
-/

import HarnessSynthesis.NativeType
import HarnessSynthesis.Proofs.Text.Words

namespace HarnessSynthesis

open Source Json

namespace Composite

theorem typeName_ne_nil (k : Composite) : k.typeName ≠ [] := by
  cases k <;> decide

theorem hasWord_typeName {k kind : Composite} (h : hasWord k.typeName kind.typeName = true) :
    kind = k := by
  cases k <;> cases kind <;> first | rfl | exact absurd h (by decide)

theorem hasWord_cppType {k kind : Composite} (h : hasWord k.typeName kind.cppType = true) :
    kind = k := by
  rw [cppType] at h
  split at h
  · exact hasWord_typeName h
  · rw [hasWord_append_wordless k.typeName_ne_nil _ (by decide)] at h
    exact hasWord_typeName h

theorem typeName_of_ofName? {t : Text} {k : Composite} (h : ofName? t = some k) :
    k.typeName = t.trim := by
  rw [ofName?] at h
  simpa using List.find?_some h

theorem hasWord_of_ofName? {t : Text} {k : Composite} (h : ofName? t = some k) :
    hasWord k.typeName t = true := by
  rw [← hasWord_trim k.typeName_ne_nil, ← typeName_of_ofName? h]
  cases k <;> decide

end Composite

namespace NativeType

/-- Whether a type names a structure, as itself or in its text. -/
def mentions (k : Composite) : NativeType → Bool
  | .array element => element.mentions k
  | .list container element => hasWord k.typeName container || element.mentions k
  | .composite kind => kind = k
  | .other text => hasWord k.typeName text
  | _ => false

theorem mentions_of_composite? {k : Composite} {t : NativeType} (h : t.composite? = some k) :
    t.mentions k = true := by
  induction t with
  | composite kind =>
    cases h
    exact decide_eq_true rfl
  | array element ih => exact ih h
  | list container element ih =>
    rw [mentions, ih h, Bool.or_true]
  | int | long | short | byte | double | float | bool | char | str | other => cases h

/-! ## Writing a type -/

theorem mentions_of_hasWord_renderJava {k : Composite} {t : NativeType} {boxed : Bool}
    (h : hasWord k.typeName (t.renderJava boxed) = true) : t.mentions k = true := by
  induction t generalizing boxed with
  | array element ih =>
    change hasWord k.typeName (renderJava false element ++ "[]".toList) = true at h
    rw [hasWord_append_wordless k.typeName_ne_nil _ (by decide)] at h
    exact ih h
  | list container element ih =>
    change hasWord k.typeName (container ++ ['<'] ++ renderJava true element ++ ['>']) = true at h
    rw [List.append_assoc, List.append_assoc, List.singleton_append,
      hasWord_append_cons (by decide), hasWord_append_wordless k.typeName_ne_nil _ (by decide),
      Bool.or_eq_true] at h
    rw [mentions, Bool.or_eq_true]
    exact h.imp id ih
  | composite kind => exact decide_eq_true (Composite.hasWord_typeName h)
  | other text => exact h
  | int | long | short | byte | double | float | bool | char | str =>
    cases k <;> cases boxed <;> exact absurd h (by decide)

theorem mentions_of_hasWord_renderCpp {k : Composite} {t : NativeType}
    (h : hasWord k.typeName t.renderCpp = true) : t.mentions k = true := by
  have vector {t : Text} (h : hasWord k.typeName ("vector<" ++ t ++ ['>']) = true) :
      hasWord k.typeName t = true := by
    have absent : hasWord k.typeName "vector".toList = false := by cases k <;> decide
    rwa [show "vector<".toList = "vector".toList ++ ['<'] from rfl, List.append_assoc,
      List.append_assoc, List.singleton_append, hasWord_append_cons (by decide), absent,
      Bool.false_or, hasWord_append_wordless k.typeName_ne_nil _ (by decide)] at h
  induction t with
  | array element ih => exact ih (vector h)
  | list container element ih =>
    rw [mentions, ih (vector h), Bool.or_true]
  | composite kind => exact decide_eq_true (Composite.hasWord_cppType h)
  | other text => exact h
  | int | long | short | byte | double | float | bool | char | str =>
    cases k <;> exact absurd h (by decide)

/-- The text of a type has no structure among its words that the type does not mention. -/
theorem mentions_of_hasWord_render {k : Composite} {l : Language} {t : NativeType} {boxed : Bool}
    (h : hasWord k.typeName (t.render l boxed) = true) : t.mentions k = true := by
  rw [render] at h
  split at h
  · exact mentions_of_hasWord_renderCpp h
  · exact mentions_of_hasWord_renderJava h

/-! ## Reading a type -/

theorem mentions_of_mem_scalars (k : Composite) :
    ∀ entry ∈ scalars, entry.1.mentions k = false := by
  cases k <;> decide

theorem hasWord_of_mentions_ofName {k : Composite} {t : Text} (h : (ofName t).mentions k = true) :
    hasWord k.typeName t = true := by
  rw [ofName] at h
  split at h
  · rename_i kind named
    obtain rfl : kind = k := of_decide_eq_true h
    obtain ⟨count, whole⟩ := Text.exists_eq_trimEndMatches_append ['*'] t
    have word := Composite.hasWord_of_ofName? named
    rw [hasWord_trim kind.typeName_ne_nil] at word
    have stars : Wordless (Text.repeated count ['*']) := Wordless.repeated (by decide) count
    rw [whole, hasWord_append_wordless kind.typeName_ne_nil _ stars]
    exact word
  · split at h
    · rename_i found
      rw [mentions_of_mem_scalars k _ (List.mem_of_find?_eq_some found)] at h
      cases h
    · exact h

theorem exists_of_arrayElement? {t rest : Text} (h : arrayElement? t = some rest) :
    ∃ marks, Wordless marks ∧ t = rest ++ marks := by
  rw [arrayElement?] at h
  cases dots : Text.beforeSuffix? "..." t with
  | some r =>
    rw [dots] at h
    cases h
    exact ⟨"...".toList, by decide, Text.beforeSuffix?_eq_some_iff.1 dots⟩
  | none =>
    rw [dots] at h
    exact ⟨"[]".toList, by decide, Text.beforeSuffix?_eq_some_iff.1 h⟩

theorem exists_of_generic? {t outer argument : Text} (h : generic? t = some (outer, argument)) :
    ∃ before, outer = before.trim ∧ t = before ++ '<' :: (argument ++ ['>']) := by
  obtain ⟨⟨before, behind⟩, opened, h⟩ := Option.bind_eq_some_iff.1 h
  obtain ⟨inner, closed, h⟩ := Option.bind_eq_some_iff.1 h
  cases h
  refine ⟨before, rfl, ?_⟩
  rw [Text.eq_append_of_cut? opened, Text.beforeSuffix?_eq_some_iff.1 closed, List.append_assoc]
  rfl

/-- What the reading of a type's text mentions is a word of the text. -/
theorem hasWord_of_mentions_parse {k : Composite} {l : Language} {written : Text}
    (h : (parse l written).mentions k = true) : hasWord k.typeName written = true := by
  rw [← hasWord_trim k.typeName_ne_nil]
  fun_induction parse l written with
  | case1 written rest isArray ih =>
    have element := ih h
    rw [hasWord_trim k.typeName_ne_nil] at element
    obtain ⟨marks, wordless, whole⟩ := exists_of_arrayElement? isArray
    rw [whole, hasWord_append_wordless k.typeName_ne_nil _ wordless]
    exact element
  | case2 written outer argument notArray isGeneric isSequence ih =>
    obtain ⟨before, rfl, whole⟩ := exists_of_generic? isGeneric
    rw [whole, hasWord_append_cons (by decide),
      hasWord_append_wordless k.typeName_ne_nil _ (by decide), Bool.or_eq_true]
    rw [mentions, hasWord_trim k.typeName_ne_nil, Bool.or_eq_true] at h
    refine h.imp id fun element => ?_
    have inner := ih element
    rw [hasWord_trim k.typeName_ne_nil] at inner
    exact inner
  | case3 written outer argument notArray isGeneric noSequence => exact h
  | case4 written notArray noGeneric => exact hasWord_of_mentions_ofName h

/-! ## Deriving a type -/

theorem mentions_sequence (k : Composite) (l : Language) (element : NativeType) :
    (sequence l element).mentions k = element.mentions k := by
  rw [sequence]
  split
  · have absent : hasWord k.typeName "vector".toList = false := by cases k <;> decide
    rw [mentions, absent, Bool.false_or]
  · rfl

theorem composite?_sequence (l : Language) (element : NativeType) :
    (sequence l element).composite? = element.composite? := by
  rw [sequence]
  split <;> rfl

theorem mentions_ofNumber? (k : Composite) (sample : Option Value) :
    (ofNumber? sample).mentions k = false := by
  unfold ofNumber?
  split
  · rfl
  · split <;> rfl
  · rfl

theorem mentions_shapeless (k : Composite) (l : Language) :
    (if l = .cpp then other "JsonValue" else other "Object").mentions k = false := by
  cases l <;> cases k <;> decide

mutual

/-- A type by the shape of a value mentions no structure. -/
theorem mentions_infer (k : Composite) (l : Language) :
    (v : Value) → (infer l v).mentions k = false
  | .number _ => mentions_ofNumber? k _
  | .string _ => rfl
  | .bool _ => rfl
  | .array items => mentions_inferItems k l items
  | .null => mentions_shapeless k l
  | .object _ => mentions_shapeless k l

theorem mentions_inferItems (k : Composite) (l : Language) :
    (items : List Value) → (infer.inferItems l items).mentions k = false
  | [] => mentions_sequence k l .int
  | .null :: rest => mentions_inferItems k l rest
  | .bool b :: _ => (mentions_sequence k l _).trans (mentions_infer k l (.bool b))
  | .number n :: _ => (mentions_sequence k l _).trans (mentions_infer k l (.number n))
  | .string s :: _ => (mentions_sequence k l _).trans (mentions_infer k l (.string s))
  | .array items :: _ => (mentions_sequence k l _).trans (mentions_infer k l (.array items))
  | .object members :: _ => (mentions_sequence k l _).trans (mentions_infer k l (.object members))

end

theorem composite?_infer (l : Language) (v : Value) : (infer l v).composite? = none := by
  cases found : (infer l v).composite? with
  | none => rfl
  | some k =>
    have mentioned := mentions_of_composite? found
    rw [mentions_infer] at mentioned
    cases mentioned

/-- The structure of a derived type is that of the schema's type. -/
theorem composite?_derive (l : Language) (type : SchemaType) (sample : Option Value) :
    (derive l type sample).composite? = type.composite? := by
  induction type generalizing sample with
  | number =>
    cases found : (derive l .number sample).composite? with
    | none => rfl
    | some k =>
      have mentioned := mentions_of_composite? found
      rw [derive, mentions_ofNumber?] at mentioned
      cases mentioned
  | string | boolean | char | composite => rfl
  | array element ih =>
    rw [derive, composite?_sequence, ih]
    rfl
  | opaqueType name =>
    cases sample with
    | some v => exact composite?_infer l v
    | none =>
      rw [derive]
      split <;> rfl

/-- The part of a sample that shows what stands at the base of a schema's type. -/
def drill : SchemaType → Option Value → Option Value
  | .array element, sample => drill element (sample.bind sampleElement?)
  | _, sample => sample

/-- Besides the structure of the schema's type a derived type mentions what stands in a name that is
kept as text for want of a sample. -/
theorem of_mentions_derive {k : Composite} {l : Language} {type : SchemaType}
    {sample : Option Value} (h : (derive l type sample).mentions k = true) :
    type.composite? = some k ∨ l ≠ .cpp ∧ drill type sample = none ∧
      ∃ name, type.base = .opaqueType name ∧ hasWord k.typeName name = true := by
  induction type generalizing sample with
  | number =>
    rw [derive, mentions_ofNumber?] at h
    cases h
  | string | boolean | char => cases h
  | composite kind =>
    obtain rfl : kind = k := of_decide_eq_true h
    exact Or.inl rfl
  | array element ih =>
    rw [derive, mentions_sequence] at h
    exact ih h
  | opaqueType name =>
    right
    cases sample with
    | some v =>
      rw [derive, mentions_infer] at h
      cases h
    | none =>
      rw [derive] at h
      split at h
      · rename_i isCpp
        subst isCpp
        have absent := mentions_shapeless k .cpp
        rw [if_pos rfl, h] at absent
        cases absent
      · rename_i notCpp
        refine ⟨notCpp, rfl, name, rfl, ?_⟩
        split at h
        · have absent : (other "Object").mentions k = false := mentions_shapeless k .java
          rw [h] at absent
          cases absent
        · exact h

end NativeType

end HarnessSynthesis
