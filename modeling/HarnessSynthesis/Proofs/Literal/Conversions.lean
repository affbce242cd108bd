/-
# Literals against conversions

The test harness of TypeScript or Python writes an argument as a literal of the case's value. The
judge harness reads the value from its input and converts it. Here both are expressions, `literal`
and `conversion`, and both place the parsers of structures by the type alone. They part where the
type is an array of structures and the value is no array: the literal is then the value as it is,
while the conversion loops over it.
-/

import HarnessSynthesis.Harness.Python
import HarnessSynthesis.Harness.Typescript
import HarnessSynthesis.Proofs.Json.ProperValues
import HarnessSynthesis.Proofs.Literal.Arguments

namespace HarnessSynthesis

open Json Argument

namespace Json.Value

mutual

/-- Whether an object literal can state every object of a value. -/
def hasLiteral (l : Language) : Value → Bool
  | .array items => allHaveLiteral l items
  | .object members => membersHaveLiteral l members
  | _ => true
  termination_by structural v => v

def allHaveLiteral (l : Language) : List Value → Bool
  | [] => true
  | v :: rest => v.hasLiteral l && allHaveLiteral l rest
  termination_by structural items => items

def membersHaveLiteral (l : Language) : List (Text × Value) → Bool
  | [] => true
  | (name, v) :: rest => isDataName l name && v.hasLiteral l && membersHaveLiteral l rest
  termination_by structural members => members

end

mutual

/-- Python states every object. -/
@[simp] theorem hasLiteral_python : ∀ v : Value, v.hasLiteral .python = true
  | .null | .bool _ | .number _ | .string _ => rfl
  | .array items => allHaveLiteral_python items
  | .object members => membersHaveLiteral_python members

theorem allHaveLiteral_python : ∀ items, allHaveLiteral .python items = true
  | [] => rfl
  | v :: rest => by
    rw [allHaveLiteral, hasLiteral_python v, allHaveLiteral_python rest, Bool.and_self]

theorem membersHaveLiteral_python : ∀ members, membersHaveLiteral .python members = true
  | [] => rfl
  | (name, v) :: rest => by
    rw [membersHaveLiteral, hasLiteral_python v, membersHaveLiteral_python rest]
    rfl

end

end Json.Value

open Json.Value

namespace Expression

variable {l : Language}

/-! ## Plain data -/

mutual

/-- Plain data as an expression. -/
def data : Value → Expression
  | .null => .null
  | .bool b => .bool b
  | .number n => .number n
  | .string s => .string s
  | .array items => .array (dataItems items)
  | .object members => .object (dataMembers members)
  termination_by structural v => v

def dataItems : List Value → List Expression
  | [] => []
  | v :: rest => data v :: dataItems rest
  termination_by structural items => items

def dataMembers : List (Text × Value) → List (Text × Expression)
  | [] => []
  | (name, v) :: rest => (name, data v) :: dataMembers rest
  termination_by structural members => members

end

mutual

theorem write_data : ∀ v : Value, (data v).write l = Literal.data l v
  | .null | .bool _ | .number _ | .string _ => rfl
  | .array items => by rw [data, write_array, map_write_dataItems items, Literal.data]
  | .object members => by rw [data, write_object, map_write_dataMembers members, Literal.data]

theorem map_write_dataItems : ∀ items : List Value,
    (dataItems items).map (write l) = Literal.dataItems l items
  | [] => rfl
  | v :: rest => by
    rw [dataItems, List.map_cons, write_data v, map_write_dataItems rest, Literal.dataItems]

theorem map_write_dataMembers : ∀ members : List (Text × Value),
    (dataMembers members).map (writeMember l) = Literal.dataMembers l members
  | [] => rfl
  | (name, v) :: rest => by
    rw [dataMembers, List.map_cons, writeMember, write_data v, map_write_dataMembers rest,
      Literal.dataMembers]

end

mutual

theorem proper_data : ∀ v : Value, v.Proper → (data v).Proper
  | .null, _ | .bool _, _ | .string _, _ => trivial
  | .number _, proper => proper
  | .array items, proper => allProper_dataItems items proper
  | .object members, proper => membersProper_dataMembers members proper

theorem allProper_dataItems :
    ∀ items : List Value, Value.AllProper items → AllProper (dataItems items)
  | [], _ => trivial
  | v :: rest, proper => ⟨proper_data v proper.1, allProper_dataItems rest proper.2⟩

theorem membersProper_dataMembers : ∀ members : List (Text × Value),
    Value.MembersProper members → MembersProper (dataMembers members)
  | [], _ => trivial
  | (_, v) :: rest, proper => ⟨proper_data v proper.1, membersProper_dataMembers rest proper.2⟩

end

section Eval

variable {inputs : List Value} {scope : Nat → Option Value}

mutual

/-- Plain data is worth itself where its objects have literals. -/
theorem eval_data : ∀ v : Value,
    eval l inputs scope (data v) = if v.hasLiteral l then some (ofValue v) else none
  | .null | .bool _ | .number _ | .string _ => rfl
  | .array items => by
    rw [data, eval, evalItems_dataItems items, hasLiteral, ofValue]
    split <;> rfl
  | .object members => by
    rw [data, eval, evalMembers_dataMembers members, hasLiteral, ofValue]
    split <;> rfl

theorem evalItems_dataItems : ∀ items : List Value,
    evalItems l inputs scope (dataItems items) =
      if allHaveLiteral l items then some (ofValues items) else none
  | [] => rfl
  | v :: rest => by
    rw [dataItems, evalItems, eval_data v, evalItems_dataItems rest, allHaveLiteral, ofValues]
    cases v.hasLiteral l <;> cases allHaveLiteral l rest <;> rfl

theorem evalMembers_dataMembers : ∀ members : List (Text × Value),
    evalMembers l inputs scope (dataMembers members) =
      if membersHaveLiteral l members then some members else none
  | [] => rfl
  | (name, v) :: rest => by
    rw [dataMembers, evalMembers, eval_data v, evalMembers_dataMembers rest, membersHaveLiteral]
    cases isDataName l name <;> cases v.hasLiteral l <;> cases membersHaveLiteral l rest <;>
      simp
end

end Eval

/-! ## Literals -/

/-- The literal of a value of a schema type. -/
def literal : SchemaType → Value → Expression
  | .composite kind, v => .parsed kind (data v)
  | .array element, .array items =>
    if (element.composite?).isSome then .array (items.map (literal element))
    else data (.array items)
  | _, v => data v

end Expression

/-- The argument that a schema type makes of a value: structures are parsed, also inside arrays. -/
def argument : SchemaType → Value → Argument
  | .composite kind, v => .parsed kind v
  | .array element, .array items =>
    if (element.composite?).isSome then .array (items.map (argument element))
    else ofValue (.array items)
  | _, v => ofValue v

namespace Expression

variable {l : Language}

theorem write_literal (t : SchemaType) (v : Value) :
    (literal t v).write l = Literal.dynamic l t v := by
  induction t generalizing v with
  | composite kind => rw [literal, write, write_data, Literal.dynamic]
  | array element ih =>
    cases v with
    | array items =>
      rw [literal, Literal.dynamic]
      split
      · rw [write_array, List.map_map]
        congr 3
        exact List.map_congr_left fun v _ => ih v
      · exact write_data _
    | null | bool b | number n | string s | object members => exact write_data _
  | number | string | boolean | char | opaqueType name => exact write_data v

theorem allProper_map {f : Value → Expression} (keeps : ∀ v : Value, v.Proper → (f v).Proper) :
    ∀ items : List Value, Value.AllProper items → AllProper (items.map f)
  | [], _ => trivial
  | v :: rest, proper => ⟨keeps v proper.1, allProper_map keeps rest proper.2⟩

theorem proper_literal (t : SchemaType) {v : Value} (proper : v.Proper) : (literal t v).Proper := by
  induction t generalizing v with
  | composite kind => exact proper_data v proper
  | array element ih =>
    cases v with
    | array items =>
      rw [literal]
      split
      · exact allProper_map (fun _ => ih) items proper
      · exact proper_data _ proper
    | null | bool b | number n | string s | object members => exact proper_data _ proper
  | number | string | boolean | char | opaqueType name => exact proper_data v proper

theorem evalItems_map {inputs : List Value} {scope : Nat → Option Value} {f : Value → Expression}
    {g : Value → Argument}
    (worth : ∀ v, eval l inputs scope (f v) = if v.hasLiteral l then some (g v) else none)
    (items : List Value) :
    evalItems l inputs scope (items.map f) =
      if allHaveLiteral l items then some (items.map g) else none := by
  induction items with
  | nil => rfl
  | cons v rest ih =>
    rw [List.map_cons, evalItems, worth, ih, allHaveLiteral, List.map_cons]
    cases v.hasLiteral l <;> cases allHaveLiteral l rest <;> rfl

/-- A literal is worth the argument that its type makes of the value. -/
theorem eval_literal {inputs : List Value} {scope : Nat → Option Value} (t : SchemaType)
    (v : Value) :
    eval l inputs scope (literal t v) = if v.hasLiteral l then some (argument t v) else none := by
  induction t generalizing v with
  | composite kind =>
    rw [literal, eval, eval_data, argument]
    split
    · simp only [Option.bind_eq_bind, Option.bind_some, value?_ofValue, Option.pure_def]
    · rfl
  | array element ih =>
    cases v with
    | array items =>
      rw [literal, argument]
      split
      · rw [eval, evalItems_map ih, hasLiteral]
        split <;> rfl
      · exact eval_data _
    | null | bool b | number n | string s | object members => exact eval_data _
  | number | string | boolean | char | opaqueType name => exact eval_data v

/-! ## Conversions -/

/-- The conversion of an expression to a schema type, inside as many loops as the depth says. -/
def conversion : SchemaType → Expression → (depth : Nat) → Expression
  | .composite kind, e, _ => .parsed kind e
  | .array element, e, depth =>
    if (element.composite?).isSome then
      .each depth (conversion element (.bound depth) (depth + 1)) e
    else e
  | _, e, _ => e

theorem write_conversion_typescript (t : SchemaType) (e : Expression) (depth : Nat) :
    (conversion t e depth).write .typescript =
      Harness.Typescript.convert t (e.write .typescript) depth := by
  induction t generalizing e depth with
  | composite kind => rfl
  | array element ih =>
    rw [conversion, Harness.Typescript.convert]
    split
    · rw [write, if_neg (by decide), ih]
      rfl
    · rfl
  | number | string | boolean | char | opaqueType name => rfl

theorem write_conversion_python (t : SchemaType) (e : Expression) (depth : Nat) :
    (conversion t e depth).write .python = Harness.Python.convert t (e.write .python) depth := by
  induction t generalizing e depth with
  | composite kind => rfl
  | array element ih =>
    rw [conversion, Harness.Python.convert]
    split
    · rw [write, if_pos rfl, ih]
      rfl
    · rfl
  | number | string | boolean | char | opaqueType name => rfl

theorem proper_conversion (t : SchemaType) {e : Expression} (proper : e.Proper) (depth : Nat) :
    (conversion t e depth).Proper := by
  induction t generalizing e depth with
  | composite kind => exact proper
  | array element ih =>
    rw [conversion]
    split
    · exact ⟨ih (e := .bound depth) trivial (depth + 1), proper⟩
    · exact proper
  | number | string | boolean | char | opaqueType name => exact proper

end Expression

/-- What a conversion makes of a value, unless a loop breaks off. -/
def converted (l : Language) : SchemaType → Value → Option Argument
  | .composite kind, v => some (.parsed kind v)
  | .array element, v =>
    if (element.composite?).isSome then do
      let elements ← elements? l v
      let items ← elements.mapM (converted l element)
      return .array items
    else some (ofValue v)
  | _, v => some (ofValue v)

namespace Expression

variable {l : Language}

theorem eval_conversion {inputs : List Value} {scope : Nat → Option Value} {e : Expression}
    {v : Value} (t : SchemaType) (depth : Nat)
    (worth : eval l inputs scope e = some (ofValue v)) :
    eval l inputs scope (conversion t e depth) = converted l t v := by
  induction t generalizing scope e v depth with
  | composite kind =>
    simp only [conversion, eval, worth, value?_ofValue, converted, Option.bind_eq_bind,
      Option.bind_some, Option.pure_def]
  | array element ih =>
    rw [conversion, converted]
    split
    · have body (x : Value) :
          eval l inputs (Function.update scope depth (some x))
            (conversion element (.bound depth) (depth + 1)) = converted l element x := by
        apply ih
        rw [eval, Function.update_self, Option.map_some]
      simp only [eval, worth, value?_ofValue, body, Option.bind_eq_bind, Option.bind_some]
    · exact worth
  | number | string | boolean | char | opaqueType name => exact worth

end Expression

/-! ## Agreement -/

/-- Whether arrays stand in a value wherever a schema type has arrays of structures. -/
def SchemaType.fits : SchemaType → Value → Bool
  | .array element, .array items => !(element.composite?).isSome || items.all element.fits
  | .array element, _ => !(element.composite?).isSome
  | _, _ => true

theorem mapM_eq_some_map_iff {α β : Type} {f : α → Option β} {g : α → β} (xs : List α) :
    xs.mapM f = some (xs.map g) ↔ ∀ x ∈ xs, f x = some (g x) := by
  induction xs with
  | nil => simp
  | cons x xs ih =>
    rw [List.forall_mem_cons, ← ih, List.mapM_cons, List.map_cons]
    cases f x <;> cases xs.mapM f <;> simp

/-- The conversion makes what the type makes of a value exactly where the value fits. -/
theorem converted_eq_some_argument_iff {l : Language} (t : SchemaType) (v : Value) :
    converted l t v = some (argument t v) ↔ t.fits v = true := by
  induction t generalizing v with
  | composite kind => exact iff_of_true rfl rfl
  | array element ih =>
    by_cases structures : (element.composite?).isSome
    · -- A loop makes an array of whatever it runs over, and only an array is worth one.
      have loop (a : Argument) : converted l (.array element) v = some a ↔
          ∃ elements items, elements? l v = some elements ∧
            elements.mapM (converted l element) = some items ∧ .array items = a := by
        simp only [converted, if_pos structures, Option.bind_eq_bind, Option.bind_eq_some_iff,
          Option.pure_def, Option.some.injEq, exists_and_left]
      cases v with
      | array items =>
        have fits : (SchemaType.array element).fits (.array items) = items.all element.fits := by
          rw [SchemaType.fits, structures, Bool.not_true, Bool.false_or]
        simp only [loop, fits, argument, if_pos structures, elements?, Option.some.injEq,
          Argument.array.injEq, ↓existsAndEq, true_and, and_true, mapM_eq_some_map_iff, ih,
          List.all_eq_true]
      | null | bool b | number n | string s | object members =>
        refine iff_of_false ?_ (by simp [SchemaType.fits, structures])
        intro made
        obtain ⟨_, items, -, -, same⟩ := (loop _).1 made
        exact ofValue_ne_array rfl items same.symm
    · cases v with
      | array items =>
        rw [converted, argument, if_neg structures, if_neg structures]
        exact iff_of_true rfl (by simp [SchemaType.fits, structures])
      | null | bool b | number n | string s | object members =>
        rw [converted, if_neg structures]
        exact iff_of_true rfl (by simp [SchemaType.fits, structures])
  | number | string | boolean | char | opaqueType name => exact iff_of_true rfl rfl

/-- The literal that the test harness writes stands for what the type makes of the value. -/
theorem meaning_dynamic {l : Language} (t : SchemaType) {v : Value} (proper : v.Proper)
    (inputs : List Value) :
    meaning l inputs (Literal.dynamic l t v) =
      if v.hasLiteral l then some (argument t v) else none := by
  rw [← Expression.write_literal, meaning_write (Expression.proper_literal t proper),
    Expression.eval_literal]

section Convert

variable {inputs : List Value} {i : Nat} {v : Value}

theorem meaning_conversion {l : Language} (t : SchemaType) (input : inputs[i]? = some v) :
    meaning l inputs ((Expression.conversion t (.input i) 0).write l) = converted l t v := by
  have worth : Expression.eval l inputs (fun _ => none) (.input i) = some (ofValue v) := by
    rw [Expression.eval, input, Option.map_some]
  rw [meaning_write (Expression.proper_conversion t (e := .input i) trivial 0),
    Expression.eval_conversion t 0 worth]

theorem meaning_convert_typescript (t : SchemaType) (input : inputs[i]? = some v) :
    meaning .typescript inputs
        (Harness.Typescript.convert t ("harnessArgs[" ++ Text.ofNat i ++ [']']) 0) =
      converted .typescript t v := by
  rw [← meaning_conversion t input, Expression.write_conversion_typescript]
  rfl

theorem meaning_convert_python (t : SchemaType) (input : inputs[i]? = some v) :
    meaning .python inputs
        (Harness.Python.convert t ("_harness_args[" ++ Text.ofNat i ++ [']']) 0) =
      converted .python t v := by
  rw [← meaning_conversion t input, Expression.write_conversion_python]
  rfl

theorem exists_literal_and_converted_iff {l : Language} (t : SchemaType) :
    (∃ a, (if v.hasLiteral l then some (argument t v) else none) = some a ∧
        converted l t v = some a) ↔ t.fits v = true ∧ v.hasLiteral l = true := by
  cases v.hasLiteral l with
  | false => simp
  | true =>
    simp only [if_true, Option.some.injEq, exists_eq_left', converted_eq_some_argument_iff,
      and_true]

/-- The argument that the test harness writes is the one that the type makes of the value, and the
judge harness converts its input to the same, exactly where the value has arrays wherever its type
has arrays of structures and, in TypeScript, no object with a member that its literal cannot
state. -/
theorem test_and_judge_argument_agree_iff (t : SchemaType) (input : inputs[i]? = some v)
    (proper : v.Proper) :
    let test (l : Language) := meaning l inputs (Literal.write l t none v)
    let judgeTypescript := meaning .typescript inputs
      (Harness.Typescript.convert t ("harnessArgs[" ++ Text.ofNat i ++ [']']) 0)
    let judgePython := meaning .python inputs
      (Harness.Python.convert t ("_harness_args[" ++ Text.ofNat i ++ [']']) 0)
    test .typescript = (if v.hasLiteral .typescript then some (argument t v) else none) ∧
      test .python = some (argument t v) ∧
      ((∃ a, test .typescript = some a ∧ judgeTypescript = some a) ↔
        t.fits v = true ∧ v.hasLiteral .typescript = true) ∧
      ((∃ a, test .python = some a ∧ judgePython = some a) ↔ t.fits v = true) := by
  intro test judgeTypescript judgePython
  have written (l : Language) (dynamic : l.isCFamily = false) :
      test l = if v.hasLiteral l then some (argument t v) else none := by
    change meaning l inputs (Literal.write l t none v) = _
    rw [Literal.write, dynamic, if_neg Bool.false_ne_true, meaning_dynamic t proper]
  have typescript : judgeTypescript = converted .typescript t v :=
    meaning_convert_typescript t input
  have python : judgePython = converted .python t v := meaning_convert_python t input
  rw [written .typescript rfl, written .python rfl, typescript, python]
  refine ⟨rfl, if_pos (hasLiteral_python v), exists_literal_and_converted_iff t, ?_⟩
  rw [exists_literal_and_converted_iff t]
  exact and_iff_left (hasLiteral_python v)

/-- A matrix of lists is the same argument in both harnesses, down to the list that is null. -/
theorem list_matrix_argument_agrees :
    let t := SchemaType.array (.array (.composite .listNode))
    let v := Value.array [.array [.array [.int 1, .int 2], .null], .array []]
    (∃ a, meaning .typescript [v] (Literal.write .typescript t none v) = some a ∧
        meaning .typescript [v]
          (Harness.Typescript.convert t ("harnessArgs[" ++ Text.ofNat 0 ++ [']']) 0) = some a) ∧
      ∃ a, meaning .python [v] (Literal.write .python t none v) = some a ∧
        meaning .python [v]
          (Harness.Python.convert t ("_harness_args[" ++ Text.ofNat 0 ++ [']']) 0) = some a := by
  intro t v
  have input : [v][0]? = some v := rfl
  have proper : v.Proper := by
    simp [v, Proper, AllProper, Number.Proper, Value.int]
  obtain ⟨-, -, typescript, python⟩ := test_and_judge_argument_agree_iff t input proper
  exact ⟨typescript.2 ⟨rfl, rfl⟩, python.2 rfl⟩

/-- Null for an array of lists: the test harness passes null, the judge harness an empty array. -/
theorem null_list_array_argument_differs :
    let t := SchemaType.array (.composite .listNode)
    (meaning .typescript [.null] (Literal.write .typescript t none .null) = some .null ∧
        meaning .typescript [.null]
          (Harness.Typescript.convert t ("harnessArgs[" ++ Text.ofNat 0 ++ [']']) 0) =
            some (.array [])) ∧
      meaning .python [.null] (Literal.write .python t none .null) = some .null ∧
        meaning .python [.null]
          (Harness.Python.convert t ("_harness_args[" ++ Text.ofNat 0 ++ [']']) 0) =
            some (.array []) := by
  intro t
  have input : [Value.null][0]? = some .null := rfl
  have literal (l : Language) :
      meaning l [.null] (Literal.dynamic l t .null) = some .null :=
    meaning_dynamic t (v := .null) trivial _
  refine ⟨⟨literal .typescript, ?_⟩, literal .python, ?_⟩
  · exact meaning_convert_typescript t input
  · exact meaning_convert_python t input

end Convert

end HarnessSynthesis
