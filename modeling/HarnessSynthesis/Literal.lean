/-
# Literals

A JSON value as an expression of the target language. TypeScript and Python take any value as it
is, with a call of a parser around each structure. Java and C++ need the declared type: it decides
between arrays and containers, fixes the dimensions of an empty array, and picks the form of every
scalar. A value that does not suit its type still gives an expression that compiles.
-/

import HarnessSynthesis.NativeType
import HarnessSynthesis.Number.Numeral

namespace HarnessSynthesis

open Json

namespace Literal

/-! ## Strings and characters -/

/-- The digits of a number in octal. -/
def octal (n : Nat) : Text :=
  if n < 8 then [Char.ofNat (48 + n)] else octal (n / 8) ++ [Char.ofNat (48 + n % 8)]

/-- Control characters, which literals never hold as they are. -/
def isControl (c : Char) : Bool :=
  c.toNat < 0x20 || c.toNat == 0x7f

/-- A character inside a string literal of Java or C++. Control characters are written in three
octal digits, and in C++ question marks are escaped so that two of them begin no trigraph. -/
def escapeNative (l : Language) (c : Char) : Text :=
  if c = '"' then ['\\', '"']
  else if c = '\\' then ['\\', '\\']
  else if c = '\n' then ['\\', 'n']
  else if c = '\r' then ['\\', 'r']
  else if c = '\t' then ['\\', 't']
  else if c = '?' ∧ l = .cpp then ['\\', '?']
  else if isControl c then
    let digits := octal c.toNat
    '\\' :: List.replicate (3 - digits.length) '0' ++ digits
  else [c]

/-- A string literal. -/
def string (l : Language) (s : Text) : Text :=
  if l.isCFamily then '"' :: s.flatMap (escapeNative l) ++ ['"'] else Node.quote s

/-- A character literal of Java or C++. A number stands for its code point, and what stands for no
character is the null character. -/
def char (v : Value) : Text :=
  let c := match v with
    | .string s => s.headD '\x00'
    | .number n => match n.toUInt64? with
      | some code => Char.ofNat (code % Nat.pow 2 32)
      | none => '\x00'
    | _ => '\x00'
  if c = '\'' then "'\\''"
  else if c = '\\' then "'\\\\'"
  else if c = '\n' then "'\\n'"
  else if c = '\t' then "'\\t'"
  else if c = '\r' then "'\\r'"
  else if isControl c then ['\'', '\\'] ++ octal c.toNat ++ ['\'']
  else ['\'', c, '\'']

/-! ## Numbers -/

/-- The signed word that an integer literal denotes. -/
def integerValue : Value → Int
  | .number n => match n.toInt64? with
    | some i => i
    | none => n.toBinary64.toInt64
  | .bool b => if b then 1 else 0
  | .string s => (Numeral.int64? s.trim).getD 0
  | _ => 0

/-- An integer literal with its suffix. The least word has no positive counterpart to negate. -/
def integer (suffix : Text) (v : Value) : Text :=
  let n := integerValue v
  if n = Word.leastSigned 64 then
    ['('] ++ Text.ofInt (n + 1) ++ suffix ++ " - 1" ++ suffix ++ [')']
  else Text.ofInt n ++ suffix

/-- A floating-point literal with its suffix. What is no finite number is zero. -/
def double (suffix : Text) (v : Value) : Text :=
  let f := match v with
    | .number n => n.toBinary64
    | .string s => (Numeral.binary64? s.trim).getD (Binary64.zero false)
    | _ => Binary64.zero false
  let text := if f.isFinite then Layout.literal.write f else "0.0"
  let marked := text.any fun c => c == '.' || c == 'e' || c == 'E'
  text ++ (if marked then [] else ".0") ++ suffix

/-- A truth value as it is written in all languages but Python. -/
def boolean (b : Bool) : Text :=
  if b then "true" else "false"

/-! ## Plain data -/

mutual

/-- A value as an expression of TypeScript or Python. -/
def data (l : Language) : Value → Text
  | .null => if l = .python then "None" else "null"
  | .bool b =>
    if l = .python then (if b then "True" else "False") else boolean b
  | .number n => n.write
  | .string s => Node.quote s
  | .array items => ['['] ++ Text.join ", " (dataItems l items) ++ [']']
  | .object members => ['{'] ++ Text.join ", " (dataMembers l members) ++ ['}']
  termination_by structural v => v

def dataItems (l : Language) : List Value → List Text
  | [] => []
  | item :: rest => data l item :: dataItems l rest
  termination_by structural items => items

def dataMembers (l : Language) : List (Text × Value) → List Text
  | [] => []
  | (name, v) :: rest => (Node.quote name ++ ": " ++ data l v) :: dataMembers l rest
  termination_by structural members => members

end

/-- A value of a schema type as an expression of TypeScript or Python: structures are parsed from
plain data, also inside arrays. -/
def dynamic (l : Language) : SchemaType → Value → Text
  | .composite kind, v => kind.parserName l ++ ['('] ++ data l v ++ [')']
  | .array element, .array items =>
    if (element.composite?).isSome then
      ['['] ++ Text.join ", " (items.map (dynamic l element)) ++ [']']
    else data l (.array items)
  | _, v => data l v

/-! ## Typed data -/

/-- A call that parses a value's JSON text when the program runs. -/
def parsed (l : Language) (v : Value) : Text :=
  "harnessParseJson(" ++ string l v.write ++ [')']

/-- What stands for null in a type that is no structure. -/
def nativeNull (l : Language) (t : NativeType) : Text :=
  if l = .cpp then
    match t with
    | .other text =>
      if Text.endsWith ['*'] text then "nullptr" else t.render l false ++ "()"
    | t => t.render l false ++ "()"
  else "null"

/-- The class that is constructed for a container type. -/
def constructedClass (container : Text) : Text :=
  if container ∈ (["List", "ArrayList", "Collection", "Iterable"] : List Text) then "ArrayList"
  else if container = "Deque" then "ArrayDeque"
  else container

/-- A value of a declared type as an expression of Java or C++. -/
def native (l : Language) : NativeType → Value → Text
  | .composite kind, v => kind.parserName l ++ ['('] ++ parsed l v ++ [')']
  | t, .null => nativeNull l t
  | .int, v => integer [] v
  | .long, v => integer (if l = .cpp then "LL" else "L") v
  | .short, v => (if l = .java then ("(short) " : Text) else []) ++ integer [] v
  | .byte, v => (if l = .java then ("(byte) " : Text) else []) ++ integer [] v
  | .double, v => double [] v
  | .float, v => double ['f'] v
  | .bool, v => match v with
    | .bool b => boolean b
    | .number n => boolean !n.toBinary64.isZero
    | _ => "false"
  | .char, v => char v
  | .str, v => match v with
    | .string s => string l s
    | v => string l v.write
  | .array element, v =>
    let items := (v.items?.getD []).map (native l element)
    let body := ['{'] ++ Text.join ", " items ++ ['}']
    if l = .cpp then body
    else
      let (base, dimensions) := (NativeType.array element).arrayBase
      "new " ++ base.render l false ++ Text.repeated dimensions "[]" ++ body
  | .list container element, v =>
    let items := (v.items?.getD []).map (native l element)
    if l = .cpp then ['{'] ++ Text.join ", " items ++ ['}']
    else
      let boxed := element.render l true
      let head := "new " ++ constructedClass container ++ ['<'] ++ boxed ++ ">("
      if items.isEmpty then head ++ [')']
      else head ++ "Arrays.<" ++ boxed ++ ">asList(" ++ Text.join ", " items ++ "))"
  | .other text, v =>
    if l = .cpp then
      if text = "JsonValue" then parsed l v
      else "JsonConvert<" ++ text ++ ">::from(" ++ parsed l v ++ [')']
    else if text = "Object" then parsed l v
    else ['('] ++ text ++ ") (Object) " ++ parsed l v

/-- A value as an expression. A declared type counts in Java and C++ only, where one is derived
when the user declared none. -/
def write (l : Language) (t : SchemaType) (declared : Option Text) (v : Value) : Text :=
  if l.isCFamily then
    native l (match declared with
      | some d => NativeType.parse l d
      | none => NativeType.derive l t (some v)) v
  else dynamic l t v

end Literal

end HarnessSynthesis
