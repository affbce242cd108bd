/-
# Candidates

A candidate is a declaration in the user's source that a harness could call. This module holds what
is known of one, which names are never candidates, and how hits of several scanners become one list:
in the order of the source, each declaration once.
-/

import HarnessSynthesis.Composite
import HarnessSynthesis.Source.Comments
import HarnessSynthesis.Source.Parameter
import HarnessSynthesis.Source.Scan

namespace HarnessSynthesis

open Source Json

/-- A declaration that could be called. -/
structure Candidate where
  name : Text
  argumentCount : Nat
  /-- The parameter list as it is written. -/
  arguments : Text
  returnType : Option Text
  isPublic : Bool
  looksLikeSolution : Bool
  /-- Position among the candidates of a source. -/
  order : Nat
  /-- Offset of the name in octets. -/
  offset : Nat
  /-- Offset at which the return type begins, where it stands in front of the name. -/
  typeOffset : Nat
  modifiers : List Text
  /-- How many braces are open at the name. -/
  depth : Nat
  deriving DecidableEq, Repr

namespace Candidate

/-- Words in front of a parenthesis that declare nothing. -/
def controlWords : List Text :=
  ["if", "for", "while", "switch", "catch", "return", "new", "else", "throw", "sizeof", "do",
    "try", "synchronized", "function", "constructor", "operator", "super", "this", "delete",
    "typeof"]

/-- Names that are never candidates. -/
def isExcluded (name : Text) : Bool :=
  name ∈ controlWords || name ∈ (["main", "Main", "Solution"] : List Text) ||
    (Composite.ofName? name).isSome

/-- Whether a name suggests the function that solves the task. -/
def suggestsSolution (name : Text) : Bool :=
  Text.contains "solution" name.lower || name.lower == ("solve" : Text)

/-- A declaration by its name, the text in front of the name and its parameter list. -/
def of (before name arguments : Text) (returnType : Option Text) (depth : Nat) : Candidate where
  name := name
  argumentCount := (splitParameters arguments).length
  arguments := arguments.trim
  returnType := returnType
  isPublic := false
  looksLikeSolution := suggestsSolution name
  order := 0
  offset := before.octets
  typeOffset := before.octets
  modifiers := []
  depth := depth

/-- Candidates in the order of their offsets, of those at one offset the first. -/
def arrange (found : List Candidate) : List Candidate :=
  let sorted := found.mergeSort fun a b => a.offset ≤ b.offset
  let once := sorted.eraseRepsBy fun a b => a.offset == b.offset
  once.zipIdx.map fun (c, i) => { c with order := i }

/-- A candidate as a record. -/
def encode (c : Candidate) : Node :=
  .record [("name", .text c.name), ("argCount", .int c.argumentCount),
    ("argsStr", .text c.arguments), ("returnType", Node.ofOption .text c.returnType),
    ("isPublic", .bool c.isPublic), ("looksLikeMainSolution", .bool c.looksLikeSolution),
    ("sourceOrder", .int c.order)]

/-- A candidate from a record, which does not say where it stands. -/
def decoder : Decoder Candidate :=
  (Shape.field "name" Decoder.text .required <|
    .field "argCount" (Decoder.word 64) .required <|
    .field "argsStr" Decoder.text .required <|
    .field "returnType" (Decoder.nullable Decoder.text) (.defaultInObject none) <|
    .field "isPublic" Decoder.bool .required <|
    .field "looksLikeMainSolution" Decoder.bool .required <|
    .field "sourceOrder" (Decoder.word 64) .required .done).decoder.map
  fun (name, count, arguments, returnType, isPublic, looks, order, ()) =>
    ⟨name, count, arguments, returnType, isPublic, looks, order, 0, 0, [], 0⟩

end Candidate

end HarnessSynthesis
