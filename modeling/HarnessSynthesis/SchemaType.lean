/-
# Types of a schema

A schema names the type of each input in a notation of its own, in which an array can be spelled
four ways. `SchemaType.parse` reads it. A name that is not known is kept and its values are taken
as they are.
-/

import HarnessSynthesis.Composite

namespace HarnessSynthesis

/-- The type of an input as a schema states it. -/
inductive SchemaType where
  | number
  | string
  | boolean
  | char
  | composite (kind : Composite)
  | array (element : SchemaType)
  | opaqueType (name : Text)
  deriving DecidableEq, Repr

namespace SchemaType

/-- What an array spelling wraps: the text in front of `[]`, or the text behind one of the openers
without the brackets at its end. -/
def element? (t : Text) : Option Text :=
  match Text.beforeSuffix? "[]" t with
  | some rest => some rest
  | none =>
    let openers : List Text := ["Array<", "List<", "list["]
    (openers.findSome? fun opener => Text.afterPrefix? opener t).map
      (Text.dropEndWhile fun c => c == '>' || c == ']')

theorem length_lt_of_element? {t rest : Text} (h : element? t = some rest) :
    rest.length < t.length := by
  unfold element? at h
  split at h
  · rename_i inner found
    obtain rfl := Option.some.inj h
    have := Text.beforeSuffix?_eq_some_iff.1 found
    subst this
    simp
  · obtain ⟨inner, found, rfl⟩ := Option.map_eq_some_iff.1 h
    obtain ⟨opener, mem, found⟩ := List.exists_of_findSome?_eq_some found
    have := Text.afterPrefix?_eq_some_iff.1 found
    subst this
    refine Nat.lt_of_le_of_lt (Text.length_dropEndWhile_le _ _) ?_
    have : opener.length ≠ 0 := by
      simp only [List.mem_cons, List.not_mem_nil, or_false] at mem
      rcases mem with rfl | rfl | rfl <;> simp
    simp only [List.length_append]
    omega

/-- The type of a name that spells no array. -/
def ofBaseName (t : Text) : SchemaType :=
  let name := t.lower
  if name ∈ (["number", "int", "integer", "long", "float", "double"] : List Text) then .number
  else if name ∈ (["string", "str"] : List Text) then .string
  else if name ∈ (["boolean", "bool"] : List Text) then .boolean
  else if name ∈ (["char", "character"] : List Text) then .char
  else match Composite.ofName? t with
    | some kind => .composite kind
    | none => .opaqueType t

/-- The type a schema states. -/
def parse (written : Text) : SchemaType :=
  match _found : element? written.trim with
  | some rest => .array (parse rest)
  | none => ofBaseName written.trim
  termination_by written.length
  decreasing_by exact Nat.lt_of_lt_of_le (length_lt_of_element? _found) (Text.length_trim_le _)

/-- How many array dimensions stand around the base. -/
def depth : SchemaType → Nat
  | .array element => 1 + element.depth
  | _ => 0

/-- The innermost type that is no array. -/
def base : SchemaType → SchemaType
  | .array element => element.base
  | t => t

/-- The structure at the base, when there is one. -/
def composite? (t : SchemaType) : Option Composite :=
  match t.base with
  | .composite kind => some kind
  | _ => none

end SchemaType

end HarnessSynthesis
