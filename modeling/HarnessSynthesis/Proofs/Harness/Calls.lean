/-
# Calls of parsers

A literal or a conversion is text, in which a parser's name can also stand as part of an input or of
a type. To say which parsers are called the text is taken apart into the pieces that it is written
from. Each function that writes an expression has a companion that gives its pieces, and written out
the pieces are the expression. A parser is called by a piece that is its name. A conversion to a C++
type counts as well: it ends in the parser of every structure that the type is made of.
-/

import HarnessSynthesis.Harness.Cpp
import HarnessSynthesis.Harness.Java
import HarnessSynthesis.Harness.Python
import HarnessSynthesis.Harness.Typescript
import HarnessSynthesis.Proofs.Harness.Mentions

namespace HarnessSynthesis

open Source Json

/-- A piece of an expression. -/
inductive Piece where
  /-- The name of a structure's parser in front of its argument. -/
  | parser (kind : Composite)
  /-- The name of the conversion of JSON to a C++ type. -/
  | conversion (type : Text)
  | text (t : Text)

namespace Piece

def write (l : Language) : Piece → Text
  | .parser kind => kind.parserName l
  | .conversion type => "JsonConvert<" ++ type ++ ">::from"
  | .text t => t

/-- Whether a piece calls the parser of a structure. -/
def Calls (k : Composite) : Piece → Prop
  | .parser kind => kind = k
  | .conversion type => hasWord k.typeName type = true
  | .text _ => False

end Piece

namespace Pieces

/-- Pieces written out. -/
def write (l : Language) (ps : List Piece) : Text :=
  ps.flatMap (Piece.write l)

/-- Whether one of the pieces calls the parser of a structure. -/
def Calls (k : Composite) (ps : List Piece) : Prop :=
  ∃ p ∈ ps, p.Calls k

/-- The pieces of several expressions with commas between. -/
def join : List (List Piece) → List Piece
  | [] => []
  | [ps] => ps
  | ps :: rest => ps ++ .text ", " :: join rest

section Write

variable {l : Language}

@[simp] theorem write_nil : write l [] = [] := rfl

@[simp] theorem write_parser_cons (kind : Composite) (ps : List Piece) :
    write l (.parser kind :: ps) = kind.parserName l ++ write l ps := rfl

@[simp] theorem write_conversion_cons (type : Text) (ps : List Piece) :
    write l (.conversion type :: ps) = "JsonConvert<" ++ type ++ ">::from" ++ write l ps := rfl

@[simp] theorem write_text_cons (t : Text) (ps : List Piece) :
    write l (.text t :: ps) = t ++ write l ps := rfl

@[simp] theorem write_append (ps qs : List Piece) :
    write l (ps ++ qs) = write l ps ++ write l qs :=
  List.flatMap_append

/-- Expressions with commas between are written out one by one. -/
theorem write_join_map {α : Type} {f : α → List Piece} {g : α → Text}
    (same : ∀ a, write l (f a) = g a) (items : List α) :
    write l (join (items.map f)) = Text.join ", " (items.map g) := by
  induction items with
  | nil => rfl
  | cons a items ih =>
    cases items with
    | nil => exact same a
    | cons b items =>
      change write l (f a ++ .text ", " :: join ((b :: items).map f)) =
        g a ++ ", ".toList ++ Text.join ", " ((b :: items).map g)
      rw [write_append, write_text_cons, ih, same, List.append_assoc]

end Write

section Calls

variable {k : Composite}

theorem calls_nil : ¬ Calls k [] := by
  rintro ⟨p, hp, -⟩
  cases hp

theorem calls_cons {p : Piece} {ps : List Piece} :
    Calls k (p :: ps) ↔ p.Calls k ∨ Calls k ps := by
  simp only [Calls, List.mem_cons, or_and_right, exists_or, exists_eq_left]

theorem calls_text_cons {t : Text} {ps : List Piece} : Calls k (.text t :: ps) ↔ Calls k ps := by
  rw [calls_cons, Piece.Calls, false_or]

theorem calls_append {ps qs : List Piece} : Calls k (ps ++ qs) ↔ Calls k ps ∨ Calls k qs := by
  simp only [Calls, List.mem_append, or_and_right, exists_or]

theorem not_calls_text {t : Text} : ¬ Calls k [.text t] := by
  rw [calls_text_cons]
  exact calls_nil

theorem exists_of_calls_join {es : List (List Piece)} (h : Calls k (join es)) :
    ∃ ps ∈ es, Calls k ps := by
  induction es with
  | nil => exact absurd h calls_nil
  | cons ps rest ih =>
    cases rest with
    | nil => exact ⟨ps, List.mem_cons_self, h⟩
    | cons qs rest =>
      change Calls k (ps ++ .text ", " :: join (qs :: rest)) at h
      rw [calls_append, calls_text_cons] at h
      rcases h with first | later
      · exact ⟨ps, List.mem_cons_self, first⟩
      · obtain ⟨found, place, calls⟩ := ih later
        exact ⟨found, List.mem_cons_of_mem ps place, calls⟩

/-- What expressions between two texts call, one of them calls. -/
theorem exists_of_calls_enclosed {α : Type} {f : α → List Piece} {items : List α}
    {before behind : Text}
    (h : Calls k (.text before :: join (items.map f) ++ [.text behind])) :
    ∃ a ∈ items, Calls k (f a) := by
  rw [List.cons_append, calls_text_cons, calls_append] at h
  obtain ⟨ps, place, calls⟩ := exists_of_calls_join (h.resolve_right not_calls_text)
  obtain ⟨a, ha, rfl⟩ := List.mem_map.1 place
  exact ⟨a, ha, calls⟩

end Calls

end Pieces

open Pieces

/-! ## Literals -/

namespace Literal

/-- The pieces of a value as an expression of TypeScript or Python. -/
def dynamicPieces (l : Language) : SchemaType → Value → List Piece
  | .composite kind, v => [.parser kind, .text (['('] ++ data l v ++ [')'])]
  | .array element, .array items =>
    if (element.composite?).isSome then
      .text ['['] :: Pieces.join (items.map (dynamicPieces l element)) ++ [.text [']']]
    else [.text (data l (.array items))]
  | _, v => [.text (data l v)]

/-- The pieces of a value of a declared type as an expression of Java or C++. -/
def nativePieces (l : Language) : NativeType → Value → List Piece
  | .composite kind, v => [.parser kind, .text (['('] ++ parsed l v ++ [')'])]
  | .array element, v =>
    if v.isNull then [.text (nativeNull l (.array element))]
    else
      let items := (v.items?.getD []).map (nativePieces l element)
      let body := .text ['{'] :: Pieces.join items ++ [.text ['}']]
      if l = .cpp then body
      else
        let (base, dimensions) := (NativeType.array element).arrayBase
        .text ("new " ++ base.render l false ++ Text.repeated dimensions "[]") :: body
  | .list container element, v =>
    if v.isNull then [.text (nativeNull l (.list container element))]
    else
      let items := (v.items?.getD []).map (nativePieces l element)
      if l = .cpp then .text ['{'] :: Pieces.join items ++ [.text ['}']]
      else
        let boxed := element.render l true
        let head := "new " ++ constructedClass container ++ ['<'] ++ boxed ++ ">("
        if items.isEmpty then [.text (head ++ [')'])]
        else
          .text (head ++ "Arrays.<" ++ boxed ++ ">asList(") :: Pieces.join items ++ [.text "))"]
  | .other text, v =>
    if l = .cpp ∧ text ≠ "JsonValue" ∧ v.isNull = false then
      [.conversion text, .text (['('] ++ parsed l v ++ [')'])]
    else [.text (native l (.other text) v)]
  | t, v => [.text (native l t v)]

/-- The pieces of a value as an expression. -/
def pieces (l : Language) (t : SchemaType) (declared : Option Text) (v : Value) : List Piece :=
  if l.isCFamily then
    nativePieces l (match declared with
      | some d => NativeType.parse l d
      | none => NativeType.derive l t (some v)) v
  else dynamicPieces l t v

theorem write_dynamicPieces (l : Language) (t : SchemaType) (v : Value) :
    Pieces.write l (dynamicPieces l t v) = dynamic l t v := by
  induction t generalizing v with
  | composite kind => simp [dynamicPieces, dynamic]
  | array element ih =>
    cases v with
    | array items =>
      rw [dynamicPieces, dynamic]
      split
      · simp [write_join_map ih]
      · simp
    | _ => simp [dynamicPieces, dynamic]
  | number | string | boolean | char | opaqueType => simp [dynamicPieces, dynamic]

section Native

variable {l : Language} {v : Value} {element : NativeType}

theorem native_array (present : v.isNull = false) :
    native l (.array element) v =
      let body := ['{'] ++ Text.join ", " ((v.items?.getD []).map (native l element)) ++ ['}']
      if l = .cpp then body
      else
        let (base, dimensions) := (NativeType.array element).arrayBase
        "new " ++ base.render l false ++ Text.repeated dimensions "[]" ++ body := by
  cases v <;> first | rfl | cases present

theorem native_list {container : Text} (present : v.isNull = false) :
    native l (.list container element) v =
      let items := (v.items?.getD []).map (native l element)
      if l = .cpp then ['{'] ++ Text.join ", " items ++ ['}']
      else
        let boxed := element.render l true
        let head := "new " ++ constructedClass container ++ ['<'] ++ boxed ++ ">("
        if items.isEmpty then head ++ [')']
        else head ++ "Arrays.<" ++ boxed ++ ">asList(" ++ Text.join ", " items ++ "))" := by
  cases v <;> first | rfl | cases present

theorem native_other_cpp {text : Text} (present : v.isNull = false) (named : text ≠ "JsonValue") :
    native .cpp (.other text) v =
      "JsonConvert<" ++ text ++ ">::from(" ++ parsed .cpp v ++ [')'] := by
  cases v <;> first | exact if_neg named | cases present

theorem write_nativePieces (l : Language) (t : NativeType) (v : Value) :
    Pieces.write l (nativePieces l t v) = native l t v := by
  induction t generalizing v with
  | composite kind =>
    change Pieces.write l [.parser kind, .text (['('] ++ parsed l v ++ [')'])] =
      kind.parserName l ++ ['('] ++ parsed l v ++ [')']
    simp
  | array element ih =>
    rw [nativePieces]
    cases null : v.isNull with
    | true =>
      cases v <;> first | exact List.append_nil _ | cases null
    | false =>
      rw [native_array null, if_neg Bool.false_ne_true]
      by_cases cpp : l = .cpp
      · subst cpp
        simp [write_join_map ih]
      · simp [cpp, write_join_map ih]
  | list container element ih =>
    rw [nativePieces]
    cases null : v.isNull with
    | true =>
      cases v <;> first | exact List.append_nil _ | cases null
    | false =>
      rw [native_list null, if_neg Bool.false_ne_true]
      by_cases cpp : l = .cpp
      · subst cpp
        simp [write_join_map ih]
      · by_cases empty : v.items?.getD [] = []
        · simp [cpp, empty]
        · simp [cpp, empty, write_join_map ih]
  | other text =>
    rw [nativePieces]
    split
    · rename_i converted
      obtain ⟨rfl, named, present⟩ := converted
      rw [native_other_cpp present named]
      simp
    · exact List.append_nil _
  | int | long | short | byte | double | float | bool | char | str => exact List.append_nil _

end Native

/-- Written out, the pieces of a literal are the literal. -/
theorem write_pieces (l : Language) (t : SchemaType) (declared : Option Text) (v : Value) :
    Pieces.write l (pieces l t declared v) = write l t declared v := by
  unfold pieces write
  split
  · exact write_nativePieces l _ v
  · exact write_dynamicPieces l t v

/-- An expression of TypeScript or Python calls the parser of the structure its type is made of. -/
theorem composite?_of_calls_dynamicPieces {l : Language} {k : Composite} {t : SchemaType}
    {v : Value} (h : Pieces.Calls k (dynamicPieces l t v)) : t.composite? = some k := by
  induction t generalizing v with
  | composite kind =>
    rw [dynamicPieces, calls_cons, calls_text_cons] at h
    obtain rfl : kind = k := h.resolve_right calls_nil
    rfl
  | array element ih =>
    cases v with
    | array items =>
      rw [dynamicPieces] at h
      split at h
      · obtain ⟨item, -, calls⟩ := exists_of_calls_enclosed h
        exact ih calls
      · exact absurd h not_calls_text
    | _ => exact absurd h not_calls_text
  | number | string | boolean | char | opaqueType => exact absurd h not_calls_text

/-- An expression of Java or C++ calls parsers of structures that its type mentions only. -/
theorem mentions_of_calls_nativePieces {l : Language} {k : Composite} {t : NativeType} {v : Value}
    (h : Pieces.Calls k (nativePieces l t v)) : t.mentions k = true := by
  induction t generalizing v with
  | composite kind =>
    rw [nativePieces, calls_cons, calls_text_cons] at h
    exact decide_eq_true (h.resolve_right calls_nil)
  | array element ih =>
    rw [nativePieces] at h
    split at h
    · exact absurd h not_calls_text
    · split at h
      · obtain ⟨item, -, calls⟩ := exists_of_calls_enclosed h
        exact ih calls
      · rw [calls_text_cons] at h
        obtain ⟨item, -, calls⟩ := exists_of_calls_enclosed h
        exact ih calls
  | list container element ih =>
    have inner : element.mentions k = true := by
      rw [nativePieces] at h
      split at h
      · exact absurd h not_calls_text
      · split at h
        · obtain ⟨item, -, calls⟩ := exists_of_calls_enclosed h
          exact ih calls
        · dsimp only at h
          split at h
          · exact absurd h not_calls_text
          · obtain ⟨item, -, calls⟩ := exists_of_calls_enclosed h
            exact ih calls
    rw [NativeType.mentions, inner, Bool.or_true]
  | other text =>
    rw [nativePieces] at h
    split at h
    · rw [calls_cons, calls_text_cons] at h
      exact h.resolve_right calls_nil
    · exact absurd h not_calls_text
  | int | long | short | byte | double | float | bool | char | str => exact absurd h not_calls_text

end Literal

/-! ## Conversions -/

namespace Conversion

/-- The pieces of an expression that converts an input to the shape of a parameter in TypeScript or
Python. Around the conversion of an element stand two texts that each language writes in its way. -/
def dynamicPieces (around : (expression name : Text) → Text × Text) :
    SchemaType → (expression : Text) → (depth : Nat) → List Piece
  | .composite k, e, _ => [.parser k, .text (['('] ++ e ++ [')'])]
  | .array element, e, depth =>
    if element.composite?.isSome then
      let name := "jv" ++ Text.ofNat depth
      .text (around e name).1 :: dynamicPieces around element name (depth + 1) ++
        [.text (around e name).2]
    else [.text e]
  | _, e, _ => [.text e]

/-- The text around the conversion of an element in TypeScript. -/
def aroundTypescript (e name : Text) : Text × Text :=
  (['('] ++ e ++ " || []).map((" ++ name ++ ": any) => ", [')'])

/-- The text around the conversion of an element in Python. -/
def aroundPython (e name : Text) : Text × Text :=
  (['['], " for " ++ name ++ " in (" ++ e ++ " or [])]")

/-- Arrays of these elements are converted by a call of the runtime or of a stream of numbers. -/
def isUnboxed : NativeType → Bool
  | .int | .long | .double | .char | .bool => true
  | _ => false

/-- The pieces of an expression that converts parsed input to a declared type in Java. -/
def javaPieces : NativeType → (expression : Text) → (depth : Nat) → List Piece
  | .composite k, e, _ => [.parser k, .text (['('] ++ e ++ [')'])]
  | .array element, e, depth =>
    if isUnboxed element then [.text (Harness.Java.convert (.array element) e depth)]
    else
      let bound := "jv" ++ Text.ofNat depth
      .text ("((List<?>) " ++ e ++ ").stream().map(" ++ bound ++ " -> ") ::
        javaPieces element bound (depth + 1) ++
        [.text (").toArray(" ++ element.render .java false ++ "[]::new)")]
  | .list container element, e, depth =>
    let bound := "jv" ++ Text.ofNat depth
    .text ("((List<?>) " ++ e ++ ").stream().<" ++ element.render .java true ++ ">map(" ++ bound ++
        " -> ") ::
      javaPieces element bound (depth + 1) ++
      [.text (").collect(Collectors.toCollection(" ++ Harness.Java.collectorClass container ++
        "::new))")]
  | t, e, depth => [.text (Harness.Java.convert t e depth)]

theorem write_typescript (t : SchemaType) (e : Text) (depth : Nat) :
    Pieces.write .typescript (dynamicPieces aroundTypescript t e depth) =
      Harness.Typescript.convert t e depth := by
  induction t generalizing e depth with
  | composite kind => simp [dynamicPieces, Harness.Typescript.convert]
  | array element ih =>
    rw [dynamicPieces, Harness.Typescript.convert]
    split
    · simp [ih, aroundTypescript]
    · simp
  | number | string | boolean | char | opaqueType =>
    simp [dynamicPieces, Harness.Typescript.convert]

theorem write_python (t : SchemaType) (e : Text) (depth : Nat) :
    Pieces.write .python (dynamicPieces aroundPython t e depth) =
      Harness.Python.convert t e depth := by
  induction t generalizing e depth with
  | composite kind => simp [dynamicPieces, Harness.Python.convert]
  | array element ih =>
    rw [dynamicPieces, Harness.Python.convert]
    split
    · simp [ih, aroundPython]
    · simp
  | number | string | boolean | char | opaqueType => simp [dynamicPieces, Harness.Python.convert]

theorem convert_array {element : NativeType} (boxed : isUnboxed element = false) (e : Text)
    (depth : Nat) :
    Harness.Java.convert (.array element) e depth =
      "((List<?>) " ++ e ++ ").stream().map(" ++ ("jv" ++ Text.ofNat depth) ++ " -> " ++
        Harness.Java.convert element ("jv" ++ Text.ofNat depth) (depth + 1) ++ ").toArray(" ++
        element.render .java false ++ "[]::new)" := by
  cases element <;> first | rfl | cases boxed

theorem convert_list (container : Text) (element : NativeType) (e : Text) (depth : Nat) :
    Harness.Java.convert (.list container element) e depth =
      "((List<?>) " ++ e ++ ").stream().<" ++ element.render .java true ++ ">map(" ++
        ("jv" ++ Text.ofNat depth) ++ " -> " ++
        Harness.Java.convert element ("jv" ++ Text.ofNat depth) (depth + 1) ++
        ").collect(Collectors.toCollection(" ++ Harness.Java.collectorClass container ++
        "::new))" := rfl

theorem write_javaPieces (t : NativeType) (e : Text) (depth : Nat) :
    Pieces.write .java (javaPieces t e depth) = Harness.Java.convert t e depth := by
  induction t generalizing e depth with
  | composite kind =>
    change kind.parserName .java ++ (['('] ++ e ++ [')'] ++ []) =
      kind.parserName .java ++ ['('] ++ e ++ [')']
    simp
  | array element ih =>
    rw [javaPieces]
    split
    · exact List.append_nil _
    · rename_i boxed
      rw [convert_array (Bool.eq_false_iff.2 boxed)]
      simp [ih]
  | list container element ih =>
    rw [javaPieces, convert_list]
    simp [ih]
  | int | long | short | byte | double | float | bool | char | str | other =>
    exact List.append_nil _

theorem composite?_of_calls_dynamicPieces {around : Text → Text → Text × Text} {k : Composite}
    {t : SchemaType} {e : Text} {depth : Nat}
    (h : Pieces.Calls k (dynamicPieces around t e depth)) : t.composite? = some k := by
  induction t generalizing e depth with
  | composite kind =>
    rw [dynamicPieces, calls_cons, calls_text_cons] at h
    obtain rfl : kind = k := h.resolve_right calls_nil
    rfl
  | array element ih =>
    rw [dynamicPieces] at h
    split at h
    · rw [List.cons_append, calls_text_cons, calls_append] at h
      exact ih (h.resolve_right not_calls_text)
    · exact absurd h not_calls_text
  | number | string | boolean | char | opaqueType => exact absurd h not_calls_text

theorem composite?_of_calls_javaPieces {k : Composite} {t : NativeType} {e : Text} {depth : Nat}
    (h : Pieces.Calls k (javaPieces t e depth)) : t.composite? = some k := by
  induction t generalizing e depth with
  | composite kind =>
    rw [javaPieces, calls_cons, calls_text_cons] at h
    obtain rfl : kind = k := h.resolve_right calls_nil
    rfl
  | array element ih =>
    rw [javaPieces] at h
    split at h
    · exact absurd h not_calls_text
    · rw [List.cons_append, calls_text_cons, calls_append] at h
      exact ih (h.resolve_right not_calls_text)
  | list container element ih =>
    rw [javaPieces, List.cons_append, calls_text_cons, calls_append] at h
    exact ih (h.resolve_right not_calls_text)
  | int | long | short | byte | double | float | bool | char | str | other =>
    exact absurd h not_calls_text

end Conversion

end HarnessSynthesis
