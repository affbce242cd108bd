/-
# Candidates of Java and C++

In the C family a declaration is a name in front of a parenthesis, with a type before it and a body
behind its parameters. `Header` is what stands between the end of the last statement and the name:
annotations, template sections and modifiers, and then the type.
-/

import HarnessSynthesis.Entry.Candidate

namespace HarnessSynthesis.TypedSource

open Source

/-! ## Headers -/

/-- Words in front of a type that are no part of it. -/
def modifierWords : List Text :=
  ["public", "private", "protected", "static", "final", "abstract", "synchronized", "native",
    "strictfp", "default", "inline", "virtual", "constexpr", "explicit", "friend", "extern"]

/-- Words that begin no type. -/
def nonTypeWords : List Text :=
  ["return", "new", "else", "throw", "case", "goto", "sizeof", "delete", "class", "struct",
    "interface", "enum", "record", "typedef", "using", "namespace", "do", "assert", "yield",
    "co_return", "co_yield", "if", "while", "for", "switch"]

/-- What stands in front of a declared name: the text in front of the type, the modifiers and the
type. -/
structure Header where
  before : Text
  modifiers : List Text
  returnType : Text
  deriving Repr

/-- The characters that end a statement or open or close a body. -/
def endsStatement (c : Char) : Bool :=
  c == ';' || c == '{' || c == '}'

/-- The text around the last colon that does not touch another one. -/
def cutLastLabel? (previous : Option Char) : Text → Option (Text × Text)
  | [] => none
  | c :: rest =>
    match cutLastLabel? (some c) rest with
    | some (before, behind) => some (c :: before, behind)
    | none =>
      if c = ':' ∧ previous ≠ some ':' ∧ rest.head? ≠ some ':' then some ([c], rest) else none

/-- A source up to a name, cut where the declaration of the name begins: behind the last statement
and behind a label in it. -/
def cutSegment (before : Text) : Text × Text :=
  let done := before.dropEndWhile fun c => !endsStatement c
  let segment := before.takeEndWhile fun c => !endsStatement c
  match cutLastLabel? none segment with
  | some (label, segment) => (done ++ label, segment)
  | none => (done, segment)

/-- What is found at the head of a header. -/
inductive HeaderItem where
  /-- The type begins here. -/
  | type
  /-- An annotation or a template section that does not end. -/
  | unclosed
  /-- An annotation or a template section, and what follows it. -/
  | aside (rest : Text)
  | modifier (word rest : Text)

/-- The characters of an annotation's name. -/
def isAnnotationChar (c : Char) : Bool :=
  Text.isAsciiLetter c || Text.isAsciiDigit c || c == '_' || c == '.'

/-- The item at the head of a header without blanks before it. -/
def HeaderItem.read (t : Text) : HeaderItem :=
  match t with
  | '@' :: rest =>
    let rest := rest.dropWhile isAnnotationChar
    if Text.startsWith ['('] (Text.trimStart rest) then
      match parenthesized? (Text.trimStart rest) with
      | some (_, behind) => .aside behind
      | none => .unclosed
    else .aside rest
  | _ =>
    match (Text.afterPrefix? "template" t).map Text.trimStart with
    | some ('<' :: rest) =>
      match angled? ('<' :: rest) with
      | some (_, behind) => .aside behind
      | none => .unclosed
    | _ =>
      let word := t.takeWhile Text.isNameChar
      if word ∈ modifierWords then .modifier word (t.dropWhile Text.isNameChar) else .type

/-- The modifiers of a header and the text at its type, unless something in it does not end. Each
item takes at least one character, so the length is fuel enough. -/
def readItems? : (fuel : Nat) → Text → Option (List Text × Text)
  | 0, t => some ([], t)
  | fuel + 1, t =>
    let t := t.dropWhile Text.isAsciiBlank
    match HeaderItem.read t with
    | .type => some ([], t)
    | .unclosed => none
    | .aside rest => readItems? fuel rest
    | .modifier word rest =>
      (readItems? fuel rest).map fun (words, t) => (word :: words, t)

/-- A type without the qualifiers of a name that follows it, as in `int Grid::size(`. -/
def dropQualifiers (type : Text) : Text :=
  match _found : Text.beforeSuffix? "::" type with
  | none => type
  | some rest =>
    dropQualifiers ((Text.trimEndMatches "::" rest).dropEndWhile Text.isNameChar).trimEnd
  termination_by type.length
  decreasing_by
    have := Text.beforeSuffix?_eq_some_iff.1 _found
    subst this
    refine Nat.lt_of_le_of_lt (Text.length_trimEnd_le _) ?_
    refine Nat.lt_of_le_of_lt (Text.length_dropEndWhile_le _ _) ?_
    refine Nat.lt_of_le_of_lt (Text.length_trimEndMatches_le _ _) ?_
    simp

/-- The characters of a type behind its first one. -/
def isTypeChar (c : Char) : Bool :=
  Text.isWordChar c || Text.isBlank c ||
    (c == ':' || c == '<' || c == '>' || c == ',' || c == '*' || c == '&' || c == '[' || c == ']' ||
      c == '.' || c == '?')

/-- The text behind a section of type parameters without a closing bracket inside. -/
def skipTypeSection? : Text → Option Text
  | '<' :: rest =>
    (Text.afterPrefix? ['>'] (rest.dropWhile (· != '>'))).map Text.trimStart
  | t => some t

/-- Whether a text can be a type: a name and then only characters of types. -/
def isTypeText (t : Text) : Bool :=
  match skipTypeSection? t with
  | some (c :: rest) => Text.isNameStart c && rest.all isTypeChar
  | _ => false

/-- Whether a text is taken for the type of a declaration. -/
def isReturnType (t : Text) : Bool :=
  t ≠ [] && !Text.endsWith ['.'] t && t.takeWhile Text.isNameChar ∉ nonTypeWords && isTypeText t

/-- The header in front of a name, given the whole text in front of the name. -/
def header? (before : Text) : Option Header := do
  let (done, segment) := cutSegment before
  let (modifiers, rest) ← readItems? segment.length segment
  let returnType := dropQualifiers rest.trim
  guard (isReturnType returnType)
  return ⟨done ++ segment.take (segment.length - rest.length), modifiers, returnType⟩

/-! ## Bodies -/

/-- Words between the parameters and the body. -/
def tailWords : List Text := ["const", "noexcept", "override", "final"]

/-- Characters of a list of thrown types. -/
def isThrowsChar (c : Char) : Bool :=
  Text.isWordChar c || Text.isBlank c || c == '.' || c == ','

/-- Whether a body follows: a brace, with tail words or a list of thrown types before it. -/
def bodyFollows : (fuel : Nat) → Text → Bool
  | 0, _ => false
  | fuel + 1, t =>
    let t := Text.trimStart t
    if Text.startsWith ['{'] t then true
    else
      match anyOf? tailWords t with
      | some (_, rest) => bodyFollows fuel rest
      | none =>
        match Text.afterPrefix? "throws" t with
        | none => false
        | some rest =>
          let types := rest.takeWhile isThrowsChar
          types.head?.any Text.isBlank && 2 ≤ types.length &&
            Text.startsWith ['{'] (rest.dropWhile isThrowsChar)

/-! ## Access in C++ -/

/-- An access label, which a second colon would turn into something else. -/
def accessLabel? : Scanner Text := fun previous t => do
  guard (wordMayBegin previous)
  let (word, rest) ← anyOf? ["public", "private", "protected"] t
  let rest ← Text.afterPrefix? [':'] (Text.trimStart rest)
  match rest with
  | c :: behind => if c = ':' then none else some (word, behind)
  | [] => none

/-- The keyword of a class or a struct whose body opens before any semicolon. -/
def aggregate? : Scanner Text := fun previous t => do
  guard (wordMayBegin previous)
  let (word, rest) ← anyOf? ["class", "struct"] t
  let (_, rest) ← run? Text.isWordChar (← blanks? rest)
  let behind ← Text.afterPrefix? ['{'] (rest.dropWhile fun c => c != ';' && c != '{')
  return (word, behind)

/-- Whether a C++ declaration is public, by the text in front of its name. The last label counts;
without one, only members of a class are not. -/
def cppIsPublic (before : Text) : Bool :=
  match (occurrences accessLabel? before).getLast? with
  | some hit => hit.found == ("public" : Text)
  | none =>
    if braceDepth before = 0 then true
    else match (occurrences aggregate? before).getLast? with
      | some hit => hit.found == ("struct" : Text)
      | none => true

/-! ## Candidates -/

/-- A name in front of a parenthesis, and the text behind the parenthesis. -/
def callable? : Scanner (Text × Text) := fun previous t => do
  guard (wordMayBegin previous)
  let (name, rest) ← name? Text.isNameStart Text.isWordChar t
  let behind ← Text.afterPrefix? ['('] (Text.trimStart rest)
  return ((name, behind), behind)

/-- The candidate at a hit: its parameters end, a body follows and a header stands before it. -/
def declared? (l : Language) (hit : Hit (Text × Text)) : Option Candidate := do
  let (name, behind) := hit.found
  guard !(Candidate.isExcluded name)
  let (arguments, behind) ← closeBracket? '(' ')' 0 behind
  guard (bodyFollows (behind.length + 1) behind)
  let header ← header? hit.before
  let c := Candidate.of hit.before name arguments (some (cleanType l header.returnType))
    (braceDepth hit.before)
  return { c with
    isPublic := if l = .java then header.modifiers.contains "public" else cppIsPublic hit.before
    typeOffset := header.before.octets
    modifiers := header.modifiers }

/-- The candidates of a stripped source. -/
def candidates (l : Language) (t : Text) : List Candidate :=
  (occurrences callable? t).filterMap (declared? l)

end HarnessSynthesis.TypedSource
