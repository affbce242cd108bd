/-
# Candidates of TypeScript and Python

In these languages a declaration opens with a keyword or stands as a method at the start of a line,
and its types follow the names. TypeScript needs four scanners: functions, function values bound to
a name, arrow functions of one bare parameter, and methods. Python needs one.
-/

import HarnessSynthesis.Entry.Candidate

namespace HarnessSynthesis

open Source

/-! ## TypeScript -/

namespace TypescriptSource

def isNameStart (c : Char) : Bool :=
  Text.isNameStart c || c == '$'

def isNamePart (c : Char) : Bool :=
  Text.isWordChar c || c == '$'

/-- A name as TypeScript spells it. -/
def scriptName? (t : Text) : Option (Text × Text) :=
  name? isNameStart isNamePart t

/-- The text behind a list of type parameters without brackets inside, if there is one. -/
def skipTypeParameters (t : Text) : Text :=
  match t with
  | '<' :: rest =>
    match rest.dropWhile fun c => c != '>' && c != '(' && c != ')' with
    | '>' :: behind => behind
    | _ => t
  | _ => t

/-- The text behind a parenthesis that follows, type parameters and blanks before it allowed. -/
def openParen? (t : Text) : Option Text :=
  Text.afterPrefix? ['('] (skipTypeParameters t.trimStart).trimStart

/-- The text in front of a name within a hit, the name, and what follows its mark. -/
structure Named where
  lead : Text
  name : Text
  behind : Text

/-- What is read up to a name, from the text at the hit and the text at the name. -/
def leadOf (whole atName : Text) : Text :=
  whole.take (whole.length - atName.length)

/-- The star of a generator with blanks around it, if there is one. -/
def skipStar (t : Text) : Text :=
  (skipChar '*' t.trimStart).trimStart

/-- `function name(`. -/
def function? : Scanner Named := fun previous t => do
  guard (wordMayBegin previous)
  let rest ← Text.afterPrefix? "function" t
  guard (wordMayEnd rest)
  let atName := skipStar rest
  let (name, rest) ← scriptName? atName
  let behind ← openParen? rest
  return (⟨leadOf t atName, name, behind⟩, behind)

/-- The keywords that bind a name. -/
def bindingWords : List Text := ["const", "let", "var"]

/-- A keyword with the name it binds: the text at the name, the name, and the rest. -/
def boundName? (previous : Option Char) (t : Text) : Option (Text × Text × Text) := do
  guard (wordMayBegin previous)
  let (_, rest) ← anyOf? bindingWords t
  let atName ← blanks? rest
  let (name, rest) ← scriptName? atName
  return (atName, name, rest.trimStart)

/-- The text behind a type annotation that runs up to `=`, if there is one. -/
def skipAnnotation? : Text → Option Text
  | ':' :: rest => (run? (fun c => c != '=' && c != ';') rest).map (·.2)
  | t => some t

/-- The text behind `async`, if there is one. -/
def skipAsync (t : Text) : Text :=
  ((Text.afterPrefix? "async" t).map Text.trimStart).getD t

/-- The text behind `function` with a name or without, if there is one. -/
def skipFunctionHead (t : Text) : Text :=
  match Text.afterPrefix? "function" t with
  | some rest =>
    if wordMayEnd rest then Text.trimStart ((skipStar rest).dropWhile isNamePart) else t
  | none => t

/-- `const name = (`, also with an annotation, `async` or `function name` on the way. -/
def binding? : Scanner Named := fun previous t => do
  let (atName, name, rest) ← boundName? previous t
  let rest ← skipAnnotation? rest
  let rest ← Text.afterPrefix? ['='] rest
  let behind ← openParen? (skipFunctionHead (skipAsync rest.trimStart))
  return (⟨leadOf t atName, name, behind⟩, behind)

/-- A bare parameter with its arrow. -/
def arrowParameter? (t : Text) : Option (Text × Text) := do
  let (parameter, rest) ← scriptName? t
  let behind ← Text.afterPrefix? "=>" rest.trimStart
  return (parameter, behind)

/-- `const name = parameter =>`: what is named, and the parameter. A parameter may itself be
called `async`. -/
def singleArrow? : Scanner (Named × Text) := fun previous t => do
  let (atName, name, rest) ← boundName? previous t
  let rest ← Text.afterPrefix? ['='] rest
  let head := rest.trimStart
  let marked := ((Text.afterPrefix? "async" head).bind blanks?).bind arrowParameter?
  let (parameter, behind) ← marked <|> arrowParameter? head
  return ((⟨leadOf t atName, name, behind⟩, parameter), behind)

/-- The words that may stand in front of a method's name. -/
def methodWords : List Text :=
  ["public", "private", "protected", "static", "async", "readonly", "override", "abstract"]

/-- A method's name with its parenthesis. -/
def methodName? (whole t : Text) : Option Named := do
  let atName := skipStar' t
  let (name, rest) ← scriptName? atName
  let behind ← openParen? rest
  return ⟨leadOf whole atName, name, behind⟩
where
  /-- A star directly at the head, and blanks behind it or in its place. -/
  skipStar' (t : Text) : Text := (skipChar '*' t).trimStart

/-- A method behind as many of its words as leave a name; the last of them may be the name. -/
def methodFrom? (whole : Text) : (fuel : Nat) → Text → Option Named
  | 0, t => methodName? whole t
  | fuel + 1, t =>
    match (anyOf? methodWords t).bind fun (_, rest) => blanks? rest with
    | some rest => methodFrom? whole fuel rest <|> methodName? whole t
    | none => methodName? whole t

/-- `name(` at the start of a line, behind the words of a method. -/
def method? : Scanner Named := fun previous t => do
  guard (lineBegins previous)
  let named ← methodFrom? t t.length (t.dropWhile isInlineBlank)
  return (named, named.behind)

/-! ### What follows the parameters -/

/-- The annotation of a return type and what stops it, which is neither a semicolon nor empty. -/
def annotation? : Text → Option (Text × Text)
  | ':' :: rest => run? (fun c => c != '{' && c != ';' && c != '=') rest
  | _ => none

/-- Whether a body or an arrow follows. -/
def bodyOrArrow (t : Text) : Bool :=
  Text.startsWith ['{'] t || Text.startsWith "=>" t

/-- The return type behind a parameter list that leads to a body or an arrow. -/
def returnType? (t : Text) : Option Text := do
  let (type, rest) ← annotation? t.trimStart
  guard (bodyOrArrow rest)
  return type.trim

/-- Whether a function value follows its parameter list. -/
def valueFollows (t : Text) : Bool :=
  bodyOrArrow t.trimStart || (returnType? t).isSome

/-- The return type of a method whose body follows. -/
def methodTail? (t : Text) : Option (Option Text) :=
  match annotation? t.trimStart with
  | some (type, rest) => if Text.startsWith ['{'] rest then some (some type.trim) else none
  | none => if Text.startsWith ['{'] t.trimStart then some none else none

/-! ### Candidates -/

/-- The candidate at a hit behind whose name a parenthesis is open. -/
def declared? (hit : Hit Named) (returnType? : Text → Option (Option Text)) : Option Candidate := do
  let before := hit.before ++ hit.found.lead
  let (arguments, behind) ← closeBracket? '(' ')' 0 hit.found.behind
  let returnType ← returnType? behind
  return Candidate.of before hit.found.name arguments returnType (braceDepth before)

/-- The function declarations of a source. -/
def functions (t : Text) : List Candidate :=
  (occurrences function? t).filterMap fun hit =>
    declared? hit fun behind => some (returnType? behind)

/-- The names bound to function values. -/
def bindings (t : Text) : List Candidate :=
  (occurrences binding? t).filterMap fun hit =>
    declared? hit fun behind => if valueFollows behind then some (returnType? behind) else none

/-- The names bound to arrow functions of one bare parameter. -/
def singleArrows (t : Text) : List Candidate :=
  (occurrences singleArrow? t).map fun hit =>
    let before := hit.before ++ hit.found.1.lead
    Candidate.of before hit.found.1.name hit.found.2 none (braceDepth before)

/-- The methods with a body. -/
def methods (t : Text) : List Candidate :=
  (occurrences method? t).filterMap fun hit => declared? hit methodTail?

/-- The candidates of a stripped source, each scanner's in turn. -/
def candidates (t : Text) : List Candidate :=
  (functions t ++ bindings t ++ singleArrows t ++ methods t).filter fun c =>
    !Candidate.isExcluded c.name

end TypescriptSource

/-! ## Python -/

namespace PythonSource

/-- The text behind `async` and its blanks, if they stand there. -/
def skipAsync (t : Text) : Text :=
  ((Text.afterPrefix? "async" t).bind inlineBlanks?).getD t

/-- `def name(` at the start of a line: the text up to the name, the name, and the text behind the
parenthesis. -/
def definition? : Scanner TypescriptSource.Named := fun previous t => do
  guard (lineBegins previous)
  let rest ← Text.afterPrefix? "def" (skipAsync (t.dropWhile isInlineBlank))
  let atName ← inlineBlanks? rest
  let (name, rest) ← name? Text.isNameStart Text.isWordChar atName
  let behind ← Text.afterPrefix? ['('] rest.trimStart
  return (⟨TypescriptSource.leadOf t atName, name, behind⟩, behind)

/-- The return type between an arrow and the colon, which must not stand next to each other. Of
blanks alone the last one is the type. -/
def returnType? (t : Text) : Option Text := do
  let rest ← Text.afterPrefix? "->" t.trimStart
  let (type, colon) ← run? (· != ':') rest
  guard (colon ≠ [])
  return if type.trim = [] then type.drop (type.length - 1) else type.trim

/-- Names with two low lines at both ends belong to the language. -/
def isSpecial (name : Text) : Bool :=
  Text.startsWith "__" name && Text.endsWith "__" name

/-- The parameters without the receiver of a bound method. -/
def withoutReceiver (pieces : List Text) : List Text :=
  match pieces with
  | [] => []
  | first :: rest =>
    let name := (Parameter.parse .python first).name
    if name = "self" ∨ name = "cls" then rest else pieces

/-- The candidates of a stripped source. Depth is not counted in braces here. -/
def candidates (t : Text) : List Candidate :=
  (occurrences definition? t).filterMap fun hit => do
    guard !(isSpecial hit.found.name)
    let (list, behind) ← closeBracket? '(' ')' 0 hit.found.behind
    let arguments := Text.join ", " (withoutReceiver (splitParameters list))
    return Candidate.of (hit.before ++ hit.found.lead) hit.found.name arguments
      (returnType? behind) 0

end PythonSource

end HarnessSynthesis
