/-
# Declared types

What a literal of Java or C++ needs to know of a declared type: which scalar it is, whether a
sequence is an array or a container, and how deep sequences nest. Text that says nothing of this is
kept as it stands. Where a signature declares no type, `NativeType.derive` finds one from the
schema and a sample value.
-/

import HarnessSynthesis.SchemaType

namespace HarnessSynthesis

open Json

/-- A declared type of Java or C++. -/
inductive NativeType where
  | int
  | long
  | short
  | byte
  | double
  | float
  | bool
  | char
  | str
  /-- `T[]`. -/
  | array (element : NativeType)
  /-- A container of one element type, the container's name kept. -/
  | list (container : Text) (element : NativeType)
  | composite (kind : Composite)
  /-- Any other text. -/
  | other (text : Text)
  deriving DecidableEq, Repr

namespace NativeType

/-! ## Reading a declared type -/

/-- The text in front of one of the marks that make an array of it. -/
def arrayElement? (t : Text) : Option Text :=
  Text.beforeSuffix? "..." t <|> Text.beforeSuffix? "[]" t

/-- A text that ends with an angle bracket, around its first opening one. -/
def generic? (t : Text) : Option (Text × Text) := do
  let (outer, behind) ← Text.cut? ['<'] t
  let argument ← Text.beforeSuffix? ['>'] behind
  return (outer.trim, argument)

/-- The containers that are taken for sequences. -/
def isContainer (l : Language) (name : Text) : Bool :=
  if l = .cpp then ["vector", "std::vector"].any fun (w : String) => name == w
  else ["List", "ArrayList", "LinkedList", "Collection", "Iterable", "Deque", "ArrayDeque"].any
    fun (w : String) => name == w

/-- The scalar types by their names. -/
def scalars : List (NativeType × List String) :=
  [(.int, ["int", "Integer", "int32_t", "unsigned", "unsigned int"]),
    (.long, ["long", "Long", "long long", "int64_t", "long int", "unsigned long",
      "unsigned long long", "size_t"]),
    (.short, ["short", "Short"]),
    (.byte, ["byte", "Byte"]),
    (.double, ["double", "Double", "long double"]),
    (.float, ["float", "Float"]),
    (.bool, ["boolean", "Boolean", "bool"]),
    (.char, ["char", "Character"]),
    (.str, ["String", "string"])]

/-- The type of a text that is neither an array nor generic. Asterisks behind the name of a
structure do not count. -/
def ofName (t : Text) : NativeType :=
  match Composite.ofName? (Text.trimEndMatches ['*'] t).trim with
  | some kind => .composite kind
  | none =>
    match scalars.find? fun (_, names) => names.any fun name => t == name with
    | some (scalar, _) => scalar
    | none => .other t

theorem length_lt_of_arrayElement? {t rest : Text} (h : arrayElement? t = some rest) :
    rest.length < t.length := by
  unfold arrayElement? at h
  cases dots : Text.beforeSuffix? "..." t with
  | some r =>
    rw [dots] at h
    obtain rfl := Option.some.inj h
    have := Text.beforeSuffix?_eq_some_iff.1 dots
    subst this
    simp
  | none =>
    rw [dots] at h
    have := Text.beforeSuffix?_eq_some_iff.1 (show Text.beforeSuffix? "[]" t = some rest from h)
    subst this
    simp

theorem length_lt_of_generic? {t outer argument : Text}
    (h : generic? t = some (outer, argument)) : argument.length < t.length := by
  unfold generic? at h
  cases opened : Text.cut? ['<'] t with
  | none => rw [opened] at h; exact absurd h nofun
  | some p =>
    rw [opened] at h
    obtain ⟨before, behind⟩ := p
    cases closed : Text.beforeSuffix? ['>'] behind with
    | none =>
      simp only [Option.bind_eq_bind, Option.bind_some, closed] at h
      exact absurd h nofun
    | some inner =>
      simp only [Option.bind_eq_bind, Option.bind_some, closed] at h
      obtain ⟨_, rfl⟩ := Prod.mk.inj (Option.some.inj h)
      have whole := Text.eq_append_of_cut? opened
      have tail := Text.beforeSuffix?_eq_some_iff.1 closed
      subst tail
      subst whole
      simp only [List.length_append, List.length_singleton]
      omega

/-- The type that a declared type text stands for. -/
def parse (l : Language) (written : Text) : NativeType :=
  match _array : arrayElement? written.trim with
  | some rest => .array (parse l rest)
  | none =>
    match _generic : generic? written.trim with
    | some (outer, argument) =>
      if isContainer l outer then .list outer (parse l argument) else .other written.trim
    | none => ofName written.trim
  termination_by written.length
  decreasing_by
    · exact Nat.lt_of_lt_of_le (length_lt_of_arrayElement? _array) (Text.length_trim_le _)
    · exact Nat.lt_of_lt_of_le (length_lt_of_generic? _generic) (Text.length_trim_le _)

/-! ## Writing a type -/

/-- A type in a C++ declaration. -/
def renderCpp : NativeType → Text
  | .int => "int"
  | .long => "long long"
  | .short => "short"
  | .byte => "signed char"
  | .double => "double"
  | .float => "float"
  | .bool => "bool"
  | .char => "char"
  | .str => "string"
  | .array element => "vector<" ++ renderCpp element ++ ['>']
  | .list _ element => "vector<" ++ renderCpp element ++ ['>']
  | .composite kind => kind.cppType
  | .other text => text

/-- A type in a Java declaration, or, boxed, as the argument of a generic type. -/
def renderJava (boxed : Bool) : NativeType → Text
  | .int => if boxed then "Integer" else "int"
  | .long => if boxed then "Long" else "long"
  | .short => if boxed then "Short" else "short"
  | .byte => if boxed then "Byte" else "byte"
  | .double => if boxed then "Double" else "double"
  | .float => if boxed then "Float" else "float"
  | .bool => if boxed then "Boolean" else "boolean"
  | .char => if boxed then "Character" else "char"
  | .str => "String"
  | .array element => renderJava false element ++ "[]"
  | .list container element => container ++ ['<'] ++ renderJava true element ++ ['>']
  | .composite kind => kind.typeName
  | .other text => text

/-- A type as a declaration spells it. -/
def render (l : Language) (boxed : Bool) (t : NativeType) : Text :=
  if l = .cpp then t.renderCpp else t.renderJava boxed

/-- The element type of an array without its dimensions, and how many there are. -/
def arrayBase : NativeType → NativeType × Nat
  | .array element =>
    let (base, dimensions) := element.arrayBase
    (base, dimensions + 1)
  | t => (t, 0)

/-- The structure a type is or is a sequence of. -/
def composite? : NativeType → Option Composite
  | .composite kind => some kind
  | .array element => element.composite?
  | .list _ element => element.composite?
  | _ => none

/-! ## Deriving a type -/

/-- A sequence as it is declared where the user declared nothing. -/
def sequence (l : Language) (element : NativeType) : NativeType :=
  if l = .cpp then .list "vector" element else .array element

/-- The element that an array's type is taken from. -/
def sampleElement? (v : Value) : Option Value :=
  v.items?.bind fun items => items.find? fun item => !item.isNull

/-- The type of a number: a double, or the narrower of two words that holds it. -/
def ofNumber? : Option Value → NativeType
  | some (.number (.binary _)) => .double
  | some (.number n) => if (n.toInt64?.map (Word.fitsSigned 32)).getD false then .int else .long
  | _ => .int

/-- A type by the shape of a value. An array without elements tells nothing and counts as one of
integers. -/
def infer (l : Language) : Value → NativeType
  | .number n => ofNumber? (some (.number n))
  | .string _ => .str
  | .bool _ => .bool
  | .array items => inferItems items
  | _ => if l = .cpp then .other "JsonValue" else .other "Object"
where
  /-- The type of an array by its first element that is not null. -/
  inferItems : List Value → NativeType
  | [] => sequence l .int
  | .null :: rest => inferItems rest
  | item :: _ => sequence l (infer l item)

/-- The type for a parameter whose signature declares none, from the schema and a sample. -/
def derive (l : Language) : SchemaType → Option Value → NativeType
  | .number, sample => ofNumber? sample
  | .string, _ => .str
  | .boolean, _ => .bool
  | .char, _ => .char
  | .composite kind, _ => .composite kind
  | .array element, sample => sequence l (derive l element (sample.bind sampleElement?))
  | .opaqueType _, some v => infer l v
  | .opaqueType name, none =>
    if l = .cpp then .other "JsonValue" else .other (if name = [] then "Object" else name)

end NativeType

end HarnessSynthesis
