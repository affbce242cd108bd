/-
# Expressions in programs

The test harness of a plan holds the literal of each input of the cases that it runs, and the
program that makes one call holds the conversion of each input that it reads. In Java and C++ a
literal is written with the type of its parameter as a declaration spells it, since that is what the
variable is declared with.
-/

import HarnessSynthesis.Harness.Program

namespace HarnessSynthesis

open Json

/-! ## Parts of a text -/

section Infix

variable {t u s : Text}

theorem isInfix_append_left (h : t <:+: u) : t <:+: u ++ s :=
  h.trans (List.prefix_append u s).isInfix

theorem isInfix_append_right (h : t <:+: s) : t <:+: u ++ s :=
  h.trans (List.suffix_append u s).isInfix

theorem isInfix_flatMap {α : Type} {f : α → Text} {list : List α} {a : α} (ha : a ∈ list)
    (h : t <:+: f a) : t <:+: list.flatMap f := by
  obtain ⟨before, behind, rfl⟩ := List.append_of_mem ha
  rw [List.flatMap_append, List.flatMap_cons]
  exact isInfix_append_right (isInfix_append_left h)

theorem isInfix_lines {ts : List Text} (hu : u ∈ ts) (h : t <:+: u) : t <:+: Fragments.lines ts :=
  isInfix_flatMap hu (isInfix_append_left h)

/-- An expression in a line. -/
theorem isInfix_line (t before behind : Text) :
    t <:+: Fragments.lines [before ++ t ++ behind] :=
  isInfix_lines List.mem_cons_self (List.infix_append before t behind)

end Infix

namespace Plan

/-- The type's text that a literal for a parameter is written with. -/
def writtenType (p : Plan) (i : Nat) : Option Text :=
  if p.language.isCFamily then some ((p.nativeType i).render p.language false) else none

/-- The literal of an input for a parameter. -/
def literal (p : Plan) (i : Nat) (type : SchemaType) (v : Value) : Text :=
  Literal.write p.language type (p.writtenType i) v

/-- The expression that converts an input for a parameter. -/
def conversion (p : Plan) (i : Nat) (type : SchemaType) (e : Text) : Text :=
  match p.language with
  | .typescript => Harness.Typescript.convert type e 0
  | .python => Harness.Python.convert type e 0
  | .java => Harness.Java.convert (p.nativeType i) e 0
  | .cpp => "JsonConvert<" ++ (p.nativeType i).render .cpp false ++ ">::from(" ++ e ++ [')']

/-- An input in a program that has read its arguments. -/
def inputRead (p : Plan) (i : Nat) : Text :=
  match p.language with
  | .typescript => "harnessArgs[" ++ Text.ofNat i ++ [']']
  | .python => "_harness_args[" ++ Text.ofNat i ++ [']']
  | .java => "input.get(" ++ Text.ofNat i ++ [')']
  | .cpp => "input.items[" ++ Text.ofNat i ++ [']']

variable {p : Plan} {i : Nat} {parameter : PlannedParameter}

theorem literal_isInfix_testHarness (h : p.parameters[i]? = some parameter) {c : PlannedCase}
    (hc : c ∈ p.cases) {inputs : List Value} {accepted : List Text}
    (runnable : c.body = .runnable inputs accepted) {v : Value} (given : inputs[i]? = some v) :
    p.literal i parameter.type v <:+: p.testHarness := by
  have place : ((v, parameter), i) ∈ (inputs.zip p.parameters).zipIdx :=
    List.mem_zipIdx_iff_getElem?.2 (List.getElem?_zip_eq_some.2 ⟨given, h⟩)
  rw [literal, writtenType, testHarness]
  cases p.language with
  | typescript =>
    refine isInfix_append_left (isInfix_append_right (isInfix_flatMap hc ?_))
    rw [Harness.Typescript.testCase, runnable]
    refine isInfix_append_left (isInfix_append_right (isInfix_flatMap place ?_))
    exact isInfix_line _ _ _
  | python =>
    refine isInfix_append_left (isInfix_append_left (isInfix_append_left (isInfix_append_right
      (isInfix_flatMap hc ?_))))
    rw [Harness.Python.caseFunction, runnable]
    refine isInfix_append_left (isInfix_append_right (isInfix_flatMap place ?_))
    exact isInfix_lines List.mem_cons_self (isInfix_append_right List.infix_rfl)
  | java =>
    refine isInfix_append_left (isInfix_append_left (isInfix_append_left (isInfix_append_right
      (isInfix_flatMap hc ?_))))
    rw [Harness.Java.caseMethod, runnable]
    iterate 5 refine isInfix_append_left ?_
    refine isInfix_append_right (isInfix_flatMap place ?_)
    exact isInfix_line _ _ _
  | cpp =>
    refine isInfix_append_left (isInfix_append_left (isInfix_append_left (isInfix_append_right
      (isInfix_flatMap hc ?_))))
    rw [Harness.Cpp.caseFunction, runnable]
    iterate 2 refine isInfix_append_left ?_
    refine isInfix_append_right (isInfix_flatMap place ?_)
    exact isInfix_line _ _ _

theorem conversion_isInfix_callProgram (h : p.parameters[i]? = some parameter) :
    p.conversion i parameter.type (p.inputRead i) <:+: p.callProgram := by
  have place : (parameter, i) ∈ p.parameters.zipIdx := List.mem_zipIdx_iff_getElem?.2 h
  have inside : i ∈ List.range p.parameters.length :=
    List.mem_range.2 (List.getElem?_eq_some_iff.1 h).1
  rw [conversion, inputRead, callProgram]
  cases p.language with
  | typescript =>
    iterate 5 refine isInfix_append_left ?_
    refine isInfix_append_right (isInfix_flatMap place ?_)
    exact isInfix_line _ _ _
  | python =>
    iterate 5 refine isInfix_append_left ?_
    refine isInfix_append_right (isInfix_flatMap place ?_)
    exact isInfix_lines List.mem_cons_self (isInfix_append_right List.infix_rfl)
  | java =>
    iterate 4 refine isInfix_append_left ?_
    refine isInfix_append_right (isInfix_flatMap inside ?_)
    exact isInfix_line _ _ _
  | cpp =>
    iterate 2 refine isInfix_append_left ?_
    refine isInfix_append_right (isInfix_flatMap inside ?_)
    refine isInfix_lines List.mem_cons_self
      ⟨"    " ++ (p.nativeType i).render .cpp false ++ [' '] ++ argument i ++ " = ", [';'], ?_⟩
    simp

end Plan

end HarnessSynthesis
