/-
# Expressions of the dynamic languages

Literals and conversions of TypeScript and Python are written in one small language: plain data,
inputs, loop variables, calls of parsers, and loops over the elements of an array. This module gives
its syntax, its text in either language and a reader of that text, and shows that what is written is
read back. The reader takes blanks as the languages do and knows nothing of types.

A member of an object is data under its name, as in JSON.
-/

import HarnessSynthesis.Composite
import HarnessSynthesis.Proofs.Json.DoubleText
import HarnessSynthesis.Proofs.Json.RoundTrip

namespace HarnessSynthesis

open Json

/-- An expression for an argument. -/
inductive Expression where
  | null
  | bool (b : Bool)
  | number (n : Number)
  | string (s : Text)
  | array (items : List Expression)
  | object (members : List (Text × Expression))
  /-- The input of an index. -/
  | input (index : Nat)
  /-- The variable of the loop at a depth. -/
  | bound (depth : Nat)
  /-- A call of the parser of a structure. -/
  | parsed (kind : Composite) (argument : Expression)
  /-- The array of what the body is for each element of the source, or of nothing for a source that
  stands for nothing. -/
  | each (depth : Nat) (body source : Expression)

namespace Expression

/-! ## Writing -/

section Words

variable (l : Language)

def nullWord : Text :=
  if l = .python then "None" else "null"

def boolWord (b : Bool) : Text :=
  if l = .python then (if b then "True" else "False") else (if b then "true" else "false")

/-- The array that a program has read its inputs into. -/
def inputsName : Text :=
  if l = .python then "_harness_args" else "harnessArgs"

end Words

mutual

/-- An expression as it stands in a program. -/
def write (l : Language) : Expression → Text
  | .null => nullWord l
  | .bool b => boolWord l b
  | .number n => n.write
  | .string s => Node.quote s
  | .array [] => "[]"
  | .array (first :: rest) => '[' :: (write l first ++ (writeFurther l rest ++ [']']))
  | .object [] => "\x7b\x7d"
  | .object ((name, e) :: rest) =>
    '{' :: (Node.quote name ++ ": " ++ write l e ++ (writeFurtherMembers l rest ++ ['}']))
  | .input index => inputsName l ++ ['['] ++ Text.ofNat index ++ [']']
  | .bound depth => "jv" ++ Text.ofNat depth
  | .parsed kind e => kind.parserName l ++ ['('] ++ write l e ++ [')']
  | .each depth body source =>
    if l = .python then
      ['['] ++ write l body ++ " for " ++ ("jv" ++ Text.ofNat depth) ++ " in (" ++ write l source ++
        " or [])]"
    else
      ['('] ++ write l source ++ " || []).map((" ++ ("jv" ++ Text.ofNat depth) ++ ": any) => " ++
        write l body ++ [')']
  termination_by structural e => e

/-- Elements behind a first one. -/
def writeFurther (l : Language) : List Expression → Text
  | [] => []
  | e :: rest => ", " ++ write l e ++ writeFurther l rest
  termination_by structural items => items

/-- Members behind a first one. -/
def writeFurtherMembers (l : Language) : List (Text × Expression) → Text
  | [] => []
  | (name, e) :: rest => ", " ++ Node.quote name ++ ": " ++ write l e ++ writeFurtherMembers l rest
  termination_by structural members => members

end

section Write

variable {l : Language}

theorem append_writeFurther (t : Text) (items : List Expression) :
    t ++ writeFurther l items = Text.join ", " (t :: items.map (write l)) := by
  induction items generalizing t with
  | nil => exact List.append_nil t
  | cons e items ih =>
    calc t ++ writeFurther l (e :: items)
        = t ++ ", " ++ (write l e ++ writeFurther l items) := by
          simp only [writeFurther, List.append_assoc]
      _ = Text.join ", " (t :: (e :: items).map (write l)) := by
          rw [ih]
          rfl

/-- The text of a member of an object. -/
def writeMember (l : Language) (member : Text × Expression) : Text :=
  Node.quote member.1 ++ ": " ++ write l member.2

theorem append_writeFurtherMembers (t : Text) (members : List (Text × Expression)) :
    t ++ writeFurtherMembers l members = Text.join ", " (t :: members.map (writeMember l)) := by
  induction members generalizing t with
  | nil => exact List.append_nil t
  | cons member members ih =>
    calc t ++ writeFurtherMembers l (member :: members)
        = t ++ ", " ++ (writeMember l member ++ writeFurtherMembers l members) := by
          simp only [writeFurtherMembers, writeMember, List.append_assoc]
      _ = Text.join ", " (t :: (member :: members).map (writeMember l)) := by
          rw [ih]
          rfl

/-- An array is its elements with commas between. -/
theorem write_array (items : List Expression) :
    write l (.array items) = ['['] ++ Text.join ", " (items.map (write l)) ++ [']'] := by
  cases items with
  | nil => rfl
  | cons first rest =>
    rw [write, ← List.append_assoc, append_writeFurther]
    rfl

/-- An object is its members with commas between. -/
theorem write_object (members : List (Text × Expression)) :
    write l (.object members) = ['{'] ++ Text.join ", " (members.map (writeMember l)) ++ ['}'] := by
  cases members with
  | nil => rfl
  | cons first rest =>
    rw [write, ← List.append_assoc, append_writeFurtherMembers]
    rfl

end Write

/-! ## Reading -/

/-- The index or depth at the head of a text. -/
def readIndex? (t : Text) : Option (Nat × Text) :=
  (Numeral.natural? (Spelling.digits t).1).map fun n => (n, (Spelling.digits t).2)

/-- The string behind an opening quote. -/
def readString? (t : Text) : Option (Text × Text) :=
  (Node.readString? t).bind fun (s, rest) => s.map (·, rest)

/-- The structure whose parser is called at the head of a text. -/
def readParser? (l : Language) (t : Text) : Option (Composite × Text) :=
  Composite.all.findSome? fun k => (Text.afterPrefix? (k.parserName l ++ ['(']) t).map (k, ·)

/-- An expression of one word: a constant, an input, a variable or a number. -/
def readSimple? (l : Language) (t : Text) : Option (Expression × Text) :=
  (Text.afterPrefix? (nullWord l) t).map (.null, ·)
    <|> (Text.afterPrefix? (boolWord l true) t).map (.bool true, ·)
    <|> (Text.afterPrefix? (boolWord l false) t).map (.bool false, ·)
    <|> (Text.afterPrefix? (inputsName l ++ ['[']) t).bind (fun rest => do
      let (index, rest) ← readIndex? rest
      let rest ← Text.afterPrefix? [']'] rest
      return (.input index, rest))
    <|> (Text.afterPrefix? "jv" t).bind (fun rest => do
      let (depth, rest) ← readIndex? rest
      return (.bound depth, rest))
    <|> (Spelling.readNearest? t).map fun (n, rest) => (.number n, rest)

mutual

/-- The expression at the head of a text and the text behind it. -/
def readFrom (l : Language) : (fuel : Nat) → Text → Option (Expression × Text)
  | 0, _ => none
  | fuel + 1, t =>
    match Node.skipSpace t with
    | '"' :: rest => (readString? rest).map fun (s, rest) => (.string s, rest)
    | '[' :: rest =>
      match Node.skipSpace rest with
      | ']' :: rest => some (.array [], rest)
      | rest => do
        let (first, rest) ← readFrom l fuel rest
        match Node.skipSpace rest with
        | 'f' :: rest => if l = .python then readLoop l fuel first rest else none
        | rest =>
          let (items, rest) ← readFurther l fuel rest
          return (.array (first :: items), rest)
    | '{' :: rest =>
      match Node.skipSpace rest with
      | '}' :: rest => some (.object [], rest)
      | rest => do
        let (first, rest) ← readMember l fuel rest
        let (members, rest) ← readFurtherMembers l fuel rest
        return (.object (first :: members), rest)
    | '(' :: rest => if l = .python then none else readMap l fuel rest
    | 'p' :: rest => do
      let (kind, rest) ← readParser? l ('p' :: rest)
      let (e, rest) ← readFrom l fuel rest
      let rest ← Text.afterPrefix? [')'] (Node.skipSpace rest)
      return (.parsed kind e, rest)
    | t => readSimple? l t
  termination_by structural fuel => fuel

/-- The elements behind a first one, up to the closing bracket. -/
def readFurther (l : Language) : (fuel : Nat) → Text → Option (List Expression × Text)
  | 0, _ => none
  | fuel + 1, t =>
    match Node.skipSpace t with
    | ']' :: rest => some ([], rest)
    | ',' :: rest => do
      let (e, rest) ← readFrom l fuel rest
      let (items, rest) ← readFurther l fuel rest
      return (e :: items, rest)
    | _ => none
  termination_by structural fuel => fuel

/-- A name with what stands behind its colon. -/
def readMember (l : Language) : (fuel : Nat) → Text → Option ((Text × Expression) × Text)
  | 0, _ => none
  | fuel + 1, t =>
    match Node.skipSpace t with
    | '"' :: rest => do
      let (name, rest) ← readString? rest
      let rest ← Text.afterPrefix? [':'] (Node.skipSpace rest)
      let (e, rest) ← readFrom l fuel rest
      return ((name, e), rest)
    | _ => none
  termination_by structural fuel => fuel

/-- The members behind a first one, up to the closing brace. -/
def readFurtherMembers (l : Language) :
    (fuel : Nat) → Text → Option (List (Text × Expression) × Text)
  | 0, _ => none
  | fuel + 1, t =>
    match Node.skipSpace t with
    | '}' :: rest => some ([], rest)
    | ',' :: rest => do
      let (member, rest) ← readMember l fuel rest
      let (members, rest) ← readFurtherMembers l fuel rest
      return (member :: members, rest)
    | _ => none
  termination_by structural fuel => fuel

/-- A comprehension of Python behind its body and the first letter of `for`. -/
def readLoop (l : Language) : (fuel : Nat) → (body : Expression) → Text → Option (Expression × Text)
  | 0, _, _ => none
  | fuel + 1, body, t => do
    let rest ← Text.afterPrefix? "or jv" t
    let (depth, rest) ← readIndex? rest
    let rest ← Text.afterPrefix? " in (" rest
    let (source, rest) ← readFrom l fuel rest
    let rest ← Text.afterPrefix? " or [])]" rest
    return (.each depth body source, rest)
  termination_by structural fuel => fuel

/-- A call of `map` in TypeScript behind its opening bracket. -/
def readMap (l : Language) : (fuel : Nat) → Text → Option (Expression × Text)
  | 0, _ => none
  | fuel + 1, t => do
    let (source, rest) ← readFrom l fuel t
    let rest ← Text.afterPrefix? " || []).map((jv" rest
    let (depth, rest) ← readIndex? rest
    let rest ← Text.afterPrefix? ": any) => " rest
    let (body, rest) ← readFrom l fuel rest
    let rest ← Text.afterPrefix? [')'] rest
    return (.each depth body source, rest)
  termination_by structural fuel => fuel

end

/-- The expression that a text is. Every second step takes a character. -/
def read? (l : Language) (t : Text) : Option Expression :=
  match readFrom l (2 * t.length + 2) t with
  | some (e, []) => some e
  | _ => none

/-! ## Reading words -/

mutual

/-- Whether every number of an expression has one form only. -/
def Proper : Expression → Prop
  | .number n => n.Proper
  | .array items => AllProper items
  | .object members => MembersProper members
  | .parsed _ e => e.Proper
  | .each _ body source => body.Proper ∧ source.Proper
  | _ => True
  termination_by structural e => e

def AllProper : List Expression → Prop
  | [] => True
  | e :: rest => e.Proper ∧ AllProper rest
  termination_by structural items => items

def MembersProper : List (Text × Expression) → Prop
  | [] => True
  | (_, e) :: rest => e.Proper ∧ MembersProper rest
  termination_by structural members => members

end

section Words

variable {l : Language} {rest : Text}

theorem readIndex?_ofNat (n : Nat) (stops : Spelling.Stops rest) :
    readIndex? (Text.ofNat n ++ rest) = some (n, rest) := by
  rw [readIndex?, Spelling.digits_append (fun c => Text.isAsciiDigit_of_mem_ofNat n) stops,
    Numeral.natural?_ofNat, Option.map_some]

theorem readString?_quote (s t : Text) :
    readString? (s.flatMap Node.escape ++ '"' :: t) = some (s, t) := by
  rw [readString?, Node.readString?_flatMap_escape]
  rfl

theorem readParser?_parserName (kind : Composite) (t : Text) :
    readParser? l (kind.parserName l ++ '(' :: t) = some (kind, t) := by
  cases l <;> cases kind <;> rfl

/-- No other word of an expression starts like an earlier one. -/
theorem readSimple?_of_none {t : Text} (null : Text.afterPrefix? (nullWord l) t = none)
    (yes : Text.afterPrefix? (boolWord l true) t = none)
    (no : Text.afterPrefix? (boolWord l false) t = none) :
    readSimple? l t =
      ((Text.afterPrefix? (inputsName l ++ ['[']) t).bind (fun rest => do
        let (index, rest) ← readIndex? rest
        let rest ← Text.afterPrefix? [']'] rest
        return (.input index, rest))
      <|> (Text.afterPrefix? "jv" t).bind (fun rest => do
        let (depth, rest) ← readIndex? rest
        return (.bound depth, rest))
      <|> (Spelling.readNearest? t).map fun (n, rest) => (.number n, rest)) := by
  rw [readSimple?, null, yes, no]
  rfl

theorem readSimple?_input (index : Nat) :
    readSimple? l (inputsName l ++ '[' :: (Text.ofNat index ++ ']' :: rest)) =
      some (.input index, rest) := by
  have stops : Spelling.Stops (']' :: rest) := Spelling.stops_cons (by decide)
  have read := readIndex?_ofNat index stops
  have name (t : Text) : Text.afterPrefix? (inputsName l ++ ['[']) (inputsName l ++ '[' :: t) =
      some t := by
    cases l <;> rfl
  have closed : Text.afterPrefix? [']'] (']' :: rest) = some rest := rfl
  rw [readSimple?_of_none (by cases l <;> rfl) (by cases l <;> rfl) (by cases l <;> rfl), name]
  simp only [Option.bind_some, read, Option.bind_eq_bind, closed, Option.pure_def]
  rfl

theorem readSimple?_bound (depth : Nat) (stops : Spelling.Stops rest) :
    readSimple? l ("jv" ++ (Text.ofNat depth ++ rest)) = some (.bound depth, rest) := by
  have read := readIndex?_ofNat depth stops
  have name (t : Text) : Text.afterPrefix? "jv" ("jv" ++ t) = some t := rfl
  have noInput (t : Text) : Text.afterPrefix? (inputsName l ++ ['[']) ("jv" ++ t) = none := by
    cases l <;> rfl
  rw [readSimple?_of_none (by cases l <;> rfl) (by cases l <;> rfl) (by cases l <;> rfl), name,
    noInput]
  simp only [Option.bind_some, read, Option.bind_eq_bind, Option.pure_def]
  rfl

/-- A number starts with a digit or a sign, and no word does. -/
theorem readSimple?_number {n : Number} (proper : n.Proper) (ends : Spelling.Ends rest) :
    readSimple? l (n.write ++ rest) = some (.number n, rest) := by
  have read := Number.readNearest?_write proper ends
  obtain ⟨c, t, head, digit⟩ := Spelling.exists_of_readNearest? read
  have fails {w : Text} (h : ∃ p ps, w = p :: ps ∧ p ≠ '-' ∧ Text.isAsciiDigit p = false) :
      Text.afterPrefix? w (n.write ++ rest) = none := by
    obtain ⟨p, ps, rfl, other⟩ := h
    rw [head]
    exact if_neg (Node.ne_of_digit digit other).symm
  rw [readSimple?_of_none (fails ?_) (fails ?_) (fails ?_), fails ?_, fails ?_, read]
  · rfl
  all_goals
    cases l <;> exact ⟨_, _, rfl, by decide⟩

end Words

/-! ## Reading back -/

section ReadBack

variable {l : Language} {rest : Text} {fuel : Nat}

/-- An expression starts with a character that is no blank and closes no array. -/
theorem write_eq_cons {e : Expression} (proper : e.Proper) :
    ∃ c t, e.write l = c :: t ∧ Node.isSpace c = false ∧ c ≠ ']' := by
  cases e with
  | null => cases l <;> exact ⟨_, _, rfl, by decide⟩
  | bool b => cases l <;> cases b <;> exact ⟨_, _, rfl, by decide⟩
  | number n =>
    obtain ⟨c, t, head, digit⟩ :=
      Spelling.exists_of_readNearest? (Number.readNearest?_write proper Spelling.ends_nil)
    rw [List.append_nil] at head
    exact ⟨c, t, head, Node.not_isSpace_of_digit digit, Node.ne_of_digit digit (by decide)⟩
  | string s => exact ⟨_, _, rfl, by decide⟩
  | array items => cases items <;> exact ⟨_, _, rfl, by decide⟩
  | object members => cases members <;> exact ⟨_, _, rfl, by decide⟩
  | input index => cases l <;> exact ⟨_, _, rfl, by decide⟩
  | bound depth => exact ⟨_, _, rfl, by decide⟩
  | parsed kind e => cases l <;> cases kind <;> exact ⟨_, _, rfl, by decide⟩
  | each depth body source => cases l <;> exact ⟨_, _, rfl, by decide⟩

theorem skipSpace_write {e : Expression} (proper : e.Proper) (t : Text) :
    Node.skipSpace (e.write l ++ t) = e.write l ++ t := by
  obtain ⟨c, u, written, space, -⟩ := write_eq_cons (l := l) proper
  rw [written, List.cons_append, Node.skipSpace_cons_of_not_isSpace space]

/-- A blank in front of an expression is passed over. -/
theorem readFrom_space (fuel : Nat) (t : Text) :
    readFrom l fuel (' ' :: t) = readFrom l fuel t := by
  cases fuel <;> rfl

theorem readMember_space (fuel : Nat) (t : Text) :
    readMember l fuel (' ' :: t) = readMember l fuel t := by
  cases fuel <;> rfl

/-- What starts like nothing that encloses others is one word. -/
theorem readFrom_of_other {c : Char} {t : Text} (space : Node.isSpace c = false)
    (other : c ∉ ['"', '[', '{', '(', 'p']) (fuel : Nat) :
    readFrom l (fuel + 1) (c :: t) = readSimple? l (c :: t) := by
  have differs {d : Char} (opens : d ∈ ['"', '[', '{', '(', 'p']) : c ≠ d :=
    fun same => other (same ▸ opens)
  rw [readFrom, Node.skipSpace_cons_of_not_isSpace space]
  split
  · exact absurd (List.cons.inj ‹_›).1 (differs (by decide))
  · exact absurd (List.cons.inj ‹_›).1 (differs (by decide))
  · exact absurd (List.cons.inj ‹_›).1 (differs (by decide))
  · exact absurd (List.cons.inj ‹_›).1 (differs (by decide))
  · exact absurd (List.cons.inj ‹_›).1 (differs (by decide))
  · rfl

theorem readFrom_number_write {n : Number} (proper : n.Proper) (fuel : Nat)
    (ends : Spelling.Ends rest) :
    readFrom l (fuel + 1) (n.write ++ rest) = some (.number n, rest) := by
  obtain ⟨c, t, head, digit⟩ :=
    Spelling.exists_of_readNearest? (Number.readNearest?_write proper ends)
  have unmarked : (['"', '[', '{', '(', 'p'].all
      fun d => decide (d ≠ '-' ∧ Text.isAsciiDigit d = false)) = true := by decide
  rw [← readSimple?_number proper ends, head]
  exact readFrom_of_other (Node.not_isSpace_of_digit digit)
    (fun opens => Node.ne_of_digit digit
      (of_decide_eq_true (List.all_eq_true.1 unmarked c opens)) rfl) fuel

theorem readFrom_input_write (index fuel : Nat) :
    readFrom l (fuel + 1) (write l (.input index) ++ rest) = some (.input index, rest) := by
  have text : write l (.input index) ++ rest =
      inputsName l ++ '[' :: (Text.ofNat index ++ ']' :: rest) := by
    simp [write]
  rw [text, ← readSimple?_input (l := l)]
  cases l <;> exact readFrom_of_other (by decide) (by decide) fuel

theorem readFrom_bound_write (depth fuel : Nat) (stops : Spelling.Stops rest) :
    readFrom l (fuel + 1) (write l (.bound depth) ++ rest) = some (.bound depth, rest) := by
  rw [write, List.append_assoc, ← readSimple?_bound depth stops]
  exact readFrom_of_other (by decide) (by decide) fuel

theorem readFrom_parsed_write {kind : Composite} {e : Expression}
    (read : readFrom l fuel (e.write l ++ ')' :: rest) = some (e, ')' :: rest)) :
    readFrom l (fuel + 1) (write l (.parsed kind e) ++ rest) = some (.parsed kind e, rest) := by
  have text : write l (.parsed kind e) ++ rest =
      kind.parserName l ++ '(' :: (e.write l ++ ')' :: rest) := by
    simp [write]
  obtain ⟨t, head⟩ : ∃ t, kind.parserName l ++ '(' :: (e.write l ++ ')' :: rest) = 'p' :: t := by
    cases l <;> cases kind <;> exact ⟨_, rfl⟩
  have name := readParser?_parserName (l := l) kind (e.write l ++ ')' :: rest)
  have closed : Text.afterPrefix? [')'] (Node.skipSpace (')' :: rest)) = some rest := rfl
  rw [text]
  rw [head] at name ⊢
  rw [readFrom, Node.skipSpace_cons_of_not_isSpace (by decide)]
  simp only [name, Option.bind_eq_bind, Option.bind_some, read, closed, Option.pure_def]

theorem writeFurther_eq_cons (items : List Expression) (rest : Text) :
    ∃ c t, writeFurther l items ++ ']' :: rest = c :: t ∧ Node.isSpace c = false ∧ c ≠ 'f' ∧
      Spelling.Ends (c :: t) := by
  cases items with
  | nil => exact ⟨_, _, rfl, by decide, by decide, Spelling.ends_cons (by decide)⟩
  | cons e items => exact ⟨_, _, rfl, by decide, by decide, Spelling.ends_cons (by decide)⟩

theorem ends_writeFurther (items : List Expression) (rest : Text) :
    Spelling.Ends (writeFurther l items ++ ']' :: rest) := by
  obtain ⟨c, t, written, -, -, ends⟩ := writeFurther_eq_cons (l := l) items rest
  exact written ▸ ends

theorem ends_writeFurtherMembers (members : List (Text × Expression)) (rest : Text) :
    Spelling.Ends (writeFurtherMembers l members ++ '}' :: rest) := by
  cases members with
  | nil => exact Spelling.ends_cons (by decide)
  | cons m members => exact Spelling.ends_cons (by decide)

/-- What follows the bracket of an array that is not empty. -/
theorem readFrom_bracket {first : Expression} (proper : first.Proper) {t rest : Text}
    (readFirst : readFrom l fuel (first.write l ++ t) = some (first, rest)) :
    readFrom l (fuel + 1) ('[' :: (first.write l ++ t)) =
      match Node.skipSpace rest with
      | 'f' :: rest => if l = .python then readLoop l fuel first rest else none
      | rest => do
        let (items, rest) ← readFurther l fuel rest
        return (.array (first :: items), rest) := by
  rw [readFrom, Node.skipSpace_cons_of_not_isSpace (by decide)]
  simp only [skipSpace_write proper]
  split
  · rename_i closed
    obtain ⟨c, u, written, -, other⟩ := write_eq_cons (l := l) proper
    rw [written] at closed
    exact absurd (List.cons.inj closed).1 other
  · rw [readFirst]
    rfl

theorem readFrom_array_write {first : Expression} {items : List Expression}
    (proper : first.Proper)
    (readFirst : readFrom l fuel (first.write l ++ (writeFurther l items ++ ']' :: rest)) =
      some (first, writeFurther l items ++ ']' :: rest))
    (readRest : readFurther l fuel (writeFurther l items ++ ']' :: rest) = some (items, rest)) :
    readFrom l (fuel + 1) (write l (.array (first :: items)) ++ rest) =
      some (.array (first :: items), rest) := by
  have text : write l (.array (first :: items)) ++ rest =
      '[' :: (first.write l ++ (writeFurther l items ++ ']' :: rest)) := by
    simp [write]
  obtain ⟨c, t, written, space, other, -⟩ := writeFurther_eq_cons (l := l) items rest
  rw [text, readFrom_bracket proper readFirst]
  rw [written] at readRest ⊢
  rw [Node.skipSpace_cons_of_not_isSpace space]
  split
  · exact absurd (List.cons.inj ‹_›).1 other
  · rw [readRest]
    rfl

theorem readFrom_object_write {first : Text × Expression} {members : List (Text × Expression)}
    (readFirst : readMember l fuel
      (Node.quote first.1 ++ (": " ++ (first.2.write l ++
        (writeFurtherMembers l members ++ '}' :: rest)))) =
      some (first, writeFurtherMembers l members ++ '}' :: rest))
    (readRest : readFurtherMembers l fuel (writeFurtherMembers l members ++ '}' :: rest) =
      some (members, rest)) :
    readFrom l (fuel + 1) (write l (.object (first :: members)) ++ rest) =
      some (.object (first :: members), rest) := by
  have text : write l (.object (first :: members)) ++ rest =
      '{' :: (Node.quote first.1 ++ (": " ++ (first.2.write l ++
        (writeFurtherMembers l members ++ '}' :: rest)))) := by
    simp [write]
  rw [text, readFrom, Node.skipSpace_cons_of_not_isSpace (by decide)]
  rw [Node.quote_append] at readFirst ⊢
  simp only [Node.skipSpace_cons_of_not_isSpace (show Node.isSpace '"' = false by decide)]
  split
  · exact absurd (List.cons.inj ‹_›).1 (by decide)
  · rw [readFirst]
    simp only [Option.bind_eq_bind, Option.bind_some, readRest, Option.pure_def]

theorem readMember_write {name : Text} {e : Expression} {t : Text}
    (read : readFrom l fuel (e.write l ++ t) = some (e, rest)) :
    readMember l (fuel + 1) (Node.quote name ++ (": " ++ (e.write l ++ t))) =
      some ((name, e), rest) := by
  have colon : ": ".toList ++ (e.write l ++ t) = ':' :: ' ' :: (e.write l ++ t) := rfl
  have opened (u : Text) : Text.afterPrefix? [':'] (Node.skipSpace (':' :: u)) = some u := rfl
  rw [colon, Node.quote_append, readMember, Node.skipSpace_cons_of_not_isSpace (by decide)]
  simp only [readString?_quote, Option.bind_eq_bind, Option.bind_some, opened, readFrom_space, read,
    Option.pure_def]

/-- The comprehension of Python: the body stands first, and `for` tells it from an array. -/
theorem readFrom_loop_write {depth : Nat} {body source : Expression} (proper : body.Proper)
    (readBody : ∀ t, Spelling.Ends t →
      readFrom .python (fuel + 1) (body.write .python ++ t) = some (body, t))
    (readSource : ∀ t, Spelling.Ends t →
      readFrom .python fuel (source.write .python ++ t) = some (source, t)) :
    readFrom .python (fuel + 2) (write .python (.each depth body source) ++ rest) =
      some (.each depth body source, rest) := by
  have text : write .python (.each depth body source) ++ rest =
      '[' :: (body.write .python ++ (" for jv" ++ (Text.ofNat depth ++ (" in (" ++
        (source.write .python ++ (" or [])]" ++ rest)))))) := by
    simp [write]
  have blank (t : Text) : Node.skipSpace (" for jv" ++ t) = 'f' :: ("or jv" ++ t) := rfl
  have start : Spelling.Ends (" for jv" ++ (Text.ofNat depth ++ (" in (" ++
      (source.write .python ++ (" or [])]" ++ rest))))) := Spelling.ends_cons (by decide)
  have stops : Spelling.Stops (" in (" ++ (source.write .python ++ (" or [])]" ++ rest))) :=
    Spelling.stops_cons (by decide)
  have index := readIndex?_ofNat depth stops
  have inner := readSource (" or [])]" ++ rest) (Spelling.ends_cons (by decide))
  rw [text, readFrom_bracket proper (readBody _ start), blank]
  simp only [if_true, readLoop, Text.afterPrefix?_append, Option.bind_eq_bind, Option.bind_some,
    index, inner, Option.pure_def]

/-- The call of `map` in TypeScript: the source stands first, in brackets. -/
theorem readFrom_map_write (other : l ≠ .python) {depth : Nat} {body source : Expression}
    (readBody : ∀ t, Spelling.Ends t → readFrom l fuel (body.write l ++ t) = some (body, t))
    (readSource : ∀ t, Spelling.Ends t → readFrom l fuel (source.write l ++ t) = some (source, t)) :
    readFrom l (fuel + 2) (write l (.each depth body source) ++ rest) =
      some (.each depth body source, rest) := by
  have text : write l (.each depth body source) ++ rest =
      '(' :: (source.write l ++ (" || []).map((jv" ++ (Text.ofNat depth ++ (": any) => " ++
        (body.write l ++ ([')'] ++ rest)))))) := by
    simp [write, other]
  have outer := readSource (" || []).map((jv" ++ (Text.ofNat depth ++ (": any) => " ++
    (body.write l ++ ([')'] ++ rest))))) (Spelling.ends_cons (by decide))
  have stops : Spelling.Stops (": any) => " ++ (body.write l ++ ([')'] ++ rest))) :=
    Spelling.stops_cons (by decide)
  have index := readIndex?_ofNat depth stops
  have inner := readBody ([')'] ++ rest) (Spelling.ends_cons (by decide))
  rw [text, readFrom, Node.skipSpace_cons_of_not_isSpace (by decide)]
  simp only [if_neg other, readMap, outer, Text.afterPrefix?_append, Option.bind_eq_bind,
    Option.bind_some, index, inner, Option.pure_def]

mutual

/-- The text of an expression is read as that expression. Two steps for each character are fuel
enough: what encloses others takes two at most, one of them for its first character. -/
theorem readFrom_write : ∀ (e : Expression) (fuel : Nat) (rest : Text), e.Proper →
    2 * (e.write l).length ≤ fuel → Spelling.Ends rest →
      readFrom l fuel (e.write l ++ rest) = some (e, rest)
  | e, 0, _, proper, enough, _ => by
    obtain ⟨c, t, written, -⟩ := write_eq_cons (l := l) proper
    rw [written, List.length_cons] at enough
    omega
  | .null, fuel + 1, rest, _, _, _ => by cases l <;> rfl
  | .bool b, fuel + 1, rest, _, _, _ => by cases l <;> cases b <;> rfl
  | .number n, fuel + 1, rest, proper, _, ends => readFrom_number_write proper fuel ends
  | .string s, fuel + 1, rest, _, _, _ => by
    rw [write, Node.quote_append, readFrom, Node.skipSpace_cons_of_not_isSpace (by decide)]
    simp only [readString?_quote, Option.map_some]
  | .array [], fuel + 1, rest, _, _, _ => rfl
  | .array (first :: items), fuel + 1, rest, proper, enough, _ => by
    have size : (write l (.array (first :: items))).length =
        (first.write l).length + (writeFurther l items).length + 2 := by
      simp [write]; omega
    rw [Proper, AllProper] at proper
    have readFirst := readFrom_write first fuel (writeFurther l items ++ ']' :: rest) proper.1
      (by omega) (ends_writeFurther items rest)
    have readRest := readFurther_write items fuel rest proper.2 (by omega)
    exact readFrom_array_write proper.1 readFirst readRest
  | .object [], fuel + 1, rest, _, _, _ => rfl
  | .object ((name, e) :: members), 1, rest, _, enough, _ => by
    simp only [write, List.length_cons] at enough
    omega
  | .object ((name, e) :: members), fuel + 2, rest, proper, enough, _ => by
    have size : (write l (.object ((name, e) :: members))).length =
        (Node.quote name).length + (e.write l).length +
          (writeFurtherMembers l members).length + 4 := by
      simp [write]; omega
    rw [Proper, MembersProper] at proper
    have readValue := readFrom_write e fuel (writeFurtherMembers l members ++ '}' :: rest) proper.1
      (by omega) (ends_writeFurtherMembers members rest)
    have readRest := readFurtherMembers_write members (fuel + 1) rest proper.2 (by omega)
    exact readFrom_object_write (readMember_write readValue) readRest
  | .input index, fuel + 1, rest, _, _, _ => readFrom_input_write index fuel
  | .bound depth, fuel + 1, rest, _, _, ends => readFrom_bound_write depth fuel ends.stops
  | .parsed kind e, fuel + 1, rest, proper, enough, _ => by
    have size : (write l (.parsed kind e)).length =
        (kind.parserName l).length + (e.write l).length + 2 := by
      simp [write]; omega
    rw [Proper] at proper
    have read := readFrom_write e fuel (')' :: rest) proper (by omega)
      (Spelling.ends_cons (by decide))
    exact readFrom_parsed_write read
  | .each depth body source, 1, rest, _, enough, _ => by
    have positive : 1 ≤ (write l (.each depth body source)).length := by
      cases l <;> simp [write]
    omega
  | .each depth body source, fuel + 2, rest, proper, enough, _ => by
    have size : (body.write l).length + (source.write l).length + 2 ≤
        (write l (.each depth body source)).length := by
      cases l <;> simp [write] <;> omega
    rw [Proper] at proper
    have readSource (t : Text) (ends : Spelling.Ends t) :=
      readFrom_write source fuel t proper.2 (by omega) ends
    by_cases python : l = .python
    · have readBody (t : Text) (ends : Spelling.Ends t) :=
        readFrom_write body (fuel + 1) t proper.1 (by omega) ends
      subst python
      exact readFrom_loop_write proper.1 readBody readSource
    · have readBody (t : Text) (ends : Spelling.Ends t) :=
        readFrom_write body fuel t proper.1 (by omega) ends
      exact readFrom_map_write python readBody readSource

theorem readFurther_write : ∀ (items : List Expression) (fuel : Nat) (rest : Text),
    AllProper items → 2 * (writeFurther l items).length + 1 ≤ fuel →
      readFurther l fuel (writeFurther l items ++ ']' :: rest) = some (items, rest)
  | _, 0, _, _, enough => by omega
  | [], fuel + 1, rest, _, _ => rfl
  | e :: items, fuel + 1, rest, proper, enough => by
    have size : (writeFurther l (e :: items)).length =
        (e.write l).length + (writeFurther l items).length + 2 := by
      simp [writeFurther]
    have text : writeFurther l (e :: items) ++ ']' :: rest =
        ',' :: ' ' :: (e.write l ++ (writeFurther l items ++ ']' :: rest)) := by
      simp [writeFurther]
    rw [AllProper] at proper
    have readItem := readFrom_write e fuel (writeFurther l items ++ ']' :: rest) proper.1
      (by omega) (ends_writeFurther items rest)
    have readRest := readFurther_write items fuel rest proper.2 (by omega)
    rw [text, readFurther, Node.skipSpace_cons_of_not_isSpace (by decide)]
    simp only [readFrom_space, readItem, readRest, Option.bind_eq_bind, Option.bind_some,
      Option.pure_def]

theorem readFurtherMembers_write : ∀ (members : List (Text × Expression)) (fuel : Nat)
    (rest : Text), MembersProper members → 2 * (writeFurtherMembers l members).length + 1 ≤ fuel →
      readFurtherMembers l fuel (writeFurtherMembers l members ++ '}' :: rest) =
        some (members, rest)
  | _, 0, _, _, enough => by omega
  | [], fuel + 1, rest, _, _ => rfl
  | _ :: _, 1, _, _, enough => by
    simp only [writeFurtherMembers, List.length_append] at enough
    simp at enough
  | (name, e) :: members, fuel + 2, rest, proper, enough => by
    have size : (writeFurtherMembers l ((name, e) :: members)).length =
        (Node.quote name).length + (e.write l).length +
          (writeFurtherMembers l members).length + 4 := by
      simp [writeFurtherMembers]; omega
    have text : writeFurtherMembers l ((name, e) :: members) ++ '}' :: rest =
        ',' :: ' ' :: (Node.quote name ++ (": " ++ (e.write l ++
          (writeFurtherMembers l members ++ '}' :: rest)))) := by
      simp [writeFurtherMembers]
    rw [MembersProper] at proper
    have readValue := readFrom_write e fuel (writeFurtherMembers l members ++ '}' :: rest) proper.1
      (by omega) (ends_writeFurtherMembers members rest)
    have readRest := readFurtherMembers_write members (fuel + 1) rest proper.2 (by omega)
    rw [text, readFurtherMembers, Node.skipSpace_cons_of_not_isSpace (by decide)]
    simp only [readMember_space, readMember_write readValue, readRest, Option.bind_eq_bind,
      Option.bind_some, Option.pure_def]

end

/-- An expression is what its text says. -/
theorem read?_write {e : Expression} (proper : e.Proper) : read? l (e.write l) = some e := by
  have read := readFrom_write (l := l) e (2 * (e.write l).length + 2) [] proper (by omega)
    Spelling.ends_nil
  rw [List.append_nil] at read
  rw [read?, read]

end ReadBack

end Expression

end HarnessSynthesis
