/-
# Types as they are written

Type parameters have bounds, bounds have arguments, and these have arguments again. Here such types
have a syntax, and of what it writes this module says, by induction on the syntax, what scanners
depend on: every bracket is closed, commas stand inside of brackets, and behind a closing angle
bracket no name follows. The last one is why a scanner that goes up to the first closing bracket is
lost behind a nested one.

The syntax allows a little more than a language does, such as arguments behind an array. What holds
of all that it writes holds of what a language allows.
-/

import Mathlib.Data.Bool.AllAny
import HarnessSynthesis.Proofs.Source.Joining
import HarnessSynthesis.Proofs.Text.Joined
import HarnessSynthesis.Proofs.Text.Search

namespace HarnessSynthesis.Source

open Text (isBlank trimStart)

/-! ## Syntax -/

/-- The printable characters of ASCII that identifiers do not have. -/
def punctuation : Text :=
  "!\"#%&'()*+,-./:;<=>?@[\\]^`\x7b|\x7d~"

/-- The characters of identifiers, and of every script more than these. -/
def IsIdentifierChar (c : Char) : Prop :=
  isBlank c = false ∧ c ∉ punctuation

instance (c : Char) : Decidable (IsIdentifierChar c) :=
  inferInstanceAs (Decidable (_ ∧ _))

structure Identifier where
  text : Text
  nonempty : text ≠ []
  named : ∀ c ∈ text, IsIdentifierChar c

/-- What the parts of a type are. -/
inductive TypeCategory where
  | type
  /-- Between the brackets behind a type. -/
  | arguments
  /-- Behind `extends`. -/
  | bounds
  /-- Between the brackets of a section of type parameters. -/
  | parameters

/-- Types and their parts, with the number of spaces at each place that may have some. -/
inductive TypeSyntax : TypeCategory → Type where
  | name (n : Identifier) : TypeSyntax .type
  | qualified (t : TypeSyntax .type) (n : Identifier) : TypeSyntax .type
  | generic (t : TypeSyntax .type) (spaces : Nat) (arguments : TypeSyntax .arguments) :
      TypeSyntax .type
  | array (t : TypeSyntax .type) (spaces inside : Nat) : TypeSyntax .type
  | argument (before : Nat) (t : TypeSyntax .type) (behind : Nat) : TypeSyntax .arguments
  | wildcard (before behind : Nat) : TypeSyntax .arguments
  | boundedWildcard (before spaces : Nat) (upper : Bool) (spaces' : Nat) (t : TypeSyntax .type)
      (behind : Nat) : TypeSyntax .arguments
  | moreArguments (first rest : TypeSyntax .arguments) : TypeSyntax .arguments
  | bound (t : TypeSyntax .type) : TypeSyntax .bounds
  | moreBounds (first : TypeSyntax .bounds) (spaces spaces' : Nat) (t : TypeSyntax .type) :
      TypeSyntax .bounds
  | parameter (before : Nat) (n : Identifier) (behind : Nat) : TypeSyntax .parameters
  | boundedParameter (before : Nat) (n : Identifier) (spaces spaces' : Nat)
      (bounds : TypeSyntax .bounds) (behind : Nat) : TypeSyntax .parameters
  | moreParameters (first rest : TypeSyntax .parameters) : TypeSyntax .parameters

/-- Some spaces. -/
def gap (n : Nat) : Text :=
  List.replicate n ' '

/-- A text in angle brackets. -/
def angle (t : Text) : Text :=
  '<' :: (t ++ ['>'])

def TypeSyntax.write {k : TypeCategory} : TypeSyntax k → Text
  | .name n => n.text
  | .qualified t n => t.write ++ '.' :: n.text
  | .generic t spaces arguments => t.write ++ (gap spaces ++ angle arguments.write)
  | .array t spaces inside => t.write ++ (gap spaces ++ '[' :: (gap inside ++ [']']))
  | .argument before t behind => gap before ++ (t.write ++ gap behind)
  | .wildcard before behind => gap before ++ '?' :: gap behind
  | .boundedWildcard before spaces upper spaces' t behind =>
    (gap before ++ '?' :: (gap spaces ++ (if upper then "extends" else "super"))) ++
      (' ' :: gap spaces') ++ (t.write ++ gap behind)
  | .moreArguments first rest => first.write ++ ',' :: rest.write
  | .bound t => t.write
  | .moreBounds first spaces spaces' t =>
    first.write ++ (gap spaces ++ '&' :: gap spaces' ++ t.write)
  | .parameter before n behind => gap before ++ (n.text ++ gap behind)
  | .boundedParameter before n spaces spaces' bounds behind =>
    (gap before ++ n.text ++ ' ' :: gap spaces ++ "extends") ++ (' ' :: gap spaces') ++
      (bounds.write ++ gap behind)
  | .moreParameters first rest => first.write ++ ',' :: rest.write

/-! ## What is written -/

/-- The characters of types. -/
def IsTypeSymbol (c : Char) : Prop :=
  IsIdentifierChar c ∨ c ∈ [' ', ',', '<', '>', '[', ']', '?', '&', '.']

/-- The characters of types that neither separate nor enclose. -/
def IsPlainSymbol (c : Char) : Prop :=
  IsIdentifierChar c ∨ c ∈ [' ', '?', '&', '.']

instance (c : Char) : Decidable (IsTypeSymbol c) :=
  inferInstanceAs (Decidable (_ ∨ _))

instance (c : Char) : Decidable (IsPlainSymbol c) :=
  inferInstanceAs (Decidable (_ ∨ _))

theorem IsPlainSymbol.isTypeSymbol {c : Char} (plain : IsPlainSymbol c) : IsTypeSymbol c := by
  refine plain.imp_right fun mem => ?_
  have all : ∀ d ∈ [' ', '?', '&', '.'],
      d ∈ [' ', ',', '<', '>', '[', ']', '?', '&', '.'] :=
    List.all_iff_forall_prop.1 (by decide)
  exact all c mem

theorem symbols_angle {t : Text} (symbols : ∀ c ∈ t, IsTypeSymbol c) :
    ∀ c ∈ angle t, IsTypeSymbol c := by
  rw [angle, List.forall_mem_cons, List.forall_mem_append]
  exact ⟨by decide, symbols, List.all_iff_forall_prop.1 (by decide)⟩

/-- A text that starts, behind blanks, with no name. -/
def Detached (t : Text) : Prop :=
  ∀ c ∈ (trimStart t).head?, c ∈ [',', '<', '>', '[', '&', '.']

theorem detached_nil : Detached [] :=
  nofun

theorem detached_cons {c : Char} (mark : c ∈ [',', '<', '>', '[', '&', '.']) (t : Text) :
    Detached (c :: t) := by
  have visible : ∀ d ∈ [',', '<', '>', '[', '&', '.'], isBlank d = false :=
    List.all_iff_forall_prop.1 (by decide)
  intro d head
  rw [trimStart, List.dropWhile_cons_of_neg (by rw [visible c mark]; exact Bool.false_ne_true),
    List.head?_cons] at head
  exact Option.some.inj head ▸ mark

theorem Detached.append {s t : Text} (front : Detached s) (rest : Detached t) :
    Detached (s ++ t) := by
  intro c head
  rw [trimStart, List.dropWhile_append] at head
  split at head
  · exact rest c head
  · rename_i visible
    obtain ⟨d, more, whole⟩ := List.exists_cons_of_ne_nil (mt List.isEmpty_iff.2 visible)
    refine front c ?_
    rw [trimStart, whole]
    rwa [whole] at head

theorem blank_gap (n : Nat) : Text.Blank (gap n) := by
  intro c mem
  rw [List.eq_of_mem_replicate mem]
  decide

theorem detached_gap_append (n : Nat) {t : Text} (rest : Detached t) : Detached (gap n ++ t) := by
  rw [Detached, Text.trimStart_append_of_blank (blank_gap n)]
  exact rest

/-- A text of types as scanners depend on it. -/
structure Neat (inside : Bool) (t : Text) : Prop where
  symbols : ∀ c ∈ t, IsTypeSymbol c
  enclosed : ∀ previous, Enclosed inside previous t
  /-- An angle bracket that is opened is closed. -/
  closes : ∀ front rest, t = front ++ '<' :: rest → '>' ∈ rest
  /-- No name follows an angle bracket that is closed. -/
  detached : ∀ front rest, t = front ++ '>' :: rest → Detached rest

theorem Enclosed.append {inside : Bool} {previous : Option Char} {s t : Text}
    (front : Enclosed inside previous s) (rest : ∀ previous, Enclosed inside previous t) :
    Enclosed inside previous (s ++ t) := by
  induction front with
  | nil => exact rest _
  | char noQuote opensNone closesNone comma _ ih =>
    exact .char noQuote opensNone closesNone comma (ih rest)
  | quoted quote content _ ih =>
    rw [List.cons_append, List.append_assoc]
    exact .quoted quote content (ih rest)
  | bracketed opens content closes noArrow _ _ ih =>
    rw [List.cons_append, List.append_assoc]
    exact .bracketed opens content closes noArrow (ih rest)

/-- What may stand anywhere may stand in brackets. -/
theorem Enclosed.deeper {inside : Bool} {previous : Option Char} {t : Text}
    (enclosed : Enclosed inside previous t) : Enclosed true previous t := by
  induction enclosed with
  | nil => exact .nil
  | char noQuote opensNone closesNone _ _ ih =>
    exact .char noQuote opensNone closesNone (fun _ => rfl) ih
  | quoted quote content _ ih => exact .quoted quote content ih
  | bracketed opens content closes noArrow _ _ ih =>
    exact .bracketed opens content closes noArrow ih

theorem IsPlainSymbol.opens_none {c : Char} (plain : IsPlainSymbol c) :
    (!opensQuote c && !opensBracket c && !closesBracket c && c != ',') = true := by
  have absent : ∀ d ∈ ['"', '\'', '`', '<', '(', '[', '{', '>', ')', ']', '}', ','],
      c ≠ d := by
    have all : ∀ d ∈ ['"', '\'', '`', '<', '(', '[', '{', '>', ')', ']', '}', ','],
        ¬ IsPlainSymbol d := List.all_iff_forall_prop.1 (by decide)
    rintro d mem rfl
    exact all c mem plain
  simp only [List.forall_mem_cons] at absent
  simp [opensQuote, opensBracket, closesBracket, absent]

namespace Neat

variable {inside : Bool} {s t : Text}

theorem deeper (neat : Neat inside t) : Neat true t :=
  ⟨neat.symbols, fun previous => (neat.enclosed previous).deeper, neat.closes, neat.detached⟩

/-- Without angle brackets only the characters and what else encloses matter. -/
theorem of_enclosed (symbols : ∀ c ∈ t, IsTypeSymbol c)
    (enclosed : ∀ previous, Enclosed inside previous t) (noAngle : '<' ∉ t ∧ '>' ∉ t) :
    Neat inside t := by
  refine ⟨symbols, enclosed, ?_, ?_⟩
  · rintro front rest rfl
    exact absurd (List.mem_append_right front List.mem_cons_self) noAngle.1
  · rintro front rest rfl
    exact absurd (List.mem_append_right front List.mem_cons_self) noAngle.2

theorem plain (plain : ∀ c ∈ t, IsPlainSymbol c) : Neat inside t := by
  have absent (d : Char) (other : ¬ IsPlainSymbol d) : d ∉ t := fun mem => other (plain d mem)
  refine .of_enclosed (fun c mem => (plain c mem).isTypeSymbol) (fun previous => ?_)
    ⟨absent '<' (by decide), absent '>' (by decide)⟩
  rw [← List.append_nil t]
  exact .append_plain (List.all_eq_true.2 fun c mem => (plain c mem).opens_none) .nil

theorem comma : Neat true [','] :=
  .of_enclosed (List.forall_mem_singleton.2 (by decide))
    (fun _ => .char (by decide) (by decide) (fun closes => by cases closes) (fun _ => rfl) .nil)
    (by decide)

theorem append (front : Neat inside s) (rest : Neat inside t)
    (between : '>' ∉ s ∨ Detached t) : Neat inside (s ++ t) := by
  refine ⟨List.forall_mem_append.2 ⟨front.symbols, rest.symbols⟩,
    fun previous => (front.enclosed previous).append rest.enclosed, ?_, ?_⟩
  · intro before behind same
    rcases Text.append_eq_append_cons same with ⟨more, whole, rfl⟩ | ⟨more, -, whole⟩
    · exact List.mem_append_left t (front.closes before more whole)
    · exact rest.closes more behind whole
  · intro before behind same
    rcases Text.append_eq_append_cons same with ⟨more, rfl, rfl⟩ | ⟨more, -, whole⟩
    · refine (front.detached before more rfl).append (between.resolve_left fun absent => absent ?_)
      exact List.mem_append_right before List.mem_cons_self
    · exact rest.detached more behind whole

/-- A closing bracket behind a text of types belongs to no arrow. -/
theorem not_isArrow (neat : Neat inside t) {o : Char} (symbol : IsTypeSymbol o) (c : Char) :
    ¬ IsArrow (o :: t).getLast? c := by
  have symbols : ∀ d ∈ o :: t, IsTypeSymbol d := List.forall_mem_cons.2 ⟨symbol, neat.symbols⟩
  rintro ⟨-, equals | dash⟩
  · exact absurd (symbols '=' (List.mem_of_getLast? equals)) (by decide)
  · exact absurd (symbols '-' (List.mem_of_getLast? dash)) (by decide)

theorem square {t : Text} (plain : ∀ c ∈ t, IsPlainSymbol c) :
    Neat inside ('[' :: (t ++ [']'])) := by
  have neat : Neat true t := .plain plain
  have absent (d : Char) (other : ¬ IsPlainSymbol d) : d ∉ t := fun mem => other (plain d mem)
  refine .of_enclosed ?_ (fun previous => ?_) ?_
  · rw [List.forall_mem_cons, List.forall_mem_append]
    exact ⟨by decide, neat.symbols, List.forall_mem_singleton.2 (by decide)⟩
  · exact .bracketed (by decide) (neat.enclosed _) (by decide) (neat.not_isArrow (by decide) _) .nil
  · have less := absent '<' (by decide)
    have greater := absent '>' (by decide)
    simp [less, greater]

/-- What is closed inside of angle brackets is closed with them. -/
theorem angle (neat : Neat true t) : Neat inside (angle t) := by
  refine ⟨symbols_angle neat.symbols, fun previous => ?_, ?_, ?_⟩
  · exact .bracketed (by decide) (neat.enclosed _) (by decide) (neat.not_isArrow (by decide) _) .nil
  · intro front rest same
    cases front with
    | nil =>
      obtain ⟨-, rfl⟩ := List.cons.inj same
      exact List.mem_append_right t (List.mem_singleton_self '>')
    | cons c front =>
      rcases Text.append_eq_append_cons (List.cons.inj same).2 with ⟨more, -, rfl⟩ | ⟨more, -, last⟩
      · exact List.mem_append_right more (List.mem_singleton_self '>')
      · have found : '<' ∈ ['>'] := last ▸ List.mem_append_right more List.mem_cons_self
        exact absurd found (by decide)
  · intro front rest same
    cases front with
    | nil => cases (List.cons.inj same).1
    | cons c front =>
      rcases Text.append_eq_append_cons (List.cons.inj same).2 with
        ⟨more, whole, rfl⟩ | ⟨more, -, last⟩
      · exact (neat.detached front more whole).append (detached_cons (by decide) [])
      · obtain rfl : rest = [] := by
          have size := congrArg List.length last
          rw [List.length_append, List.length_cons, List.length_cons, List.length_nil] at size
          exact List.eq_nil_of_length_eq_zero (by omega)
        exact detached_nil

end Neat

/-! ## What the syntax writes -/

theorem Identifier.plain (n : Identifier) : ∀ c ∈ n.text, IsPlainSymbol c :=
  fun c mem => Or.inl (n.named c mem)

theorem plain_gap (n : Nat) : ∀ c ∈ gap n, IsPlainSymbol c := by
  intro c mem
  rw [List.eq_of_mem_replicate mem]
  decide

theorem plain_extends : ∀ c ∈ "extends".toList, IsPlainSymbol c :=
  List.all_iff_forall_prop.1 (by decide)

theorem not_mem_of_plain {c : Char} {t : Text} (plain : ∀ d ∈ t, IsPlainSymbol d)
    (other : ¬ IsPlainSymbol c) : c ∉ t :=
  fun mem => other (plain c mem)

/-- Whether a part stands in brackets. -/
def TypeCategory.inside : TypeCategory → Bool
  | .type | .bounds => false
  | .arguments | .parameters => true

/-- A part between plain text and spaces. -/
theorem Neat.between {inside : Bool} {lead t : Text} (plain : ∀ c ∈ lead, IsPlainSymbol c)
    (neat : Neat inside t) (behind : Nat) : Neat inside (lead ++ (t ++ gap behind)) := by
  have spaces : Detached (gap behind) := by
    rw [← List.append_nil (gap behind)]
    exact detached_gap_append behind detached_nil
  exact .append (.plain plain) (neat.append (.plain (plain_gap behind)) (Or.inr spaces))
    (Or.inl (not_mem_of_plain plain (by decide)))

/-- By induction on the syntax: brackets close around what is neat, and what follows a part starts
with no name. -/
theorem TypeSyntax.neat {k : TypeCategory} (s : TypeSyntax k) : Neat k.inside s.write := by
  induction s with
  | name n => exact .plain n.plain
  | qualified t n ih =>
    refine ih.append (.plain ?_) (Or.inr (detached_cons (by decide) _))
    exact List.forall_mem_cons.2 ⟨by decide, n.plain⟩
  | generic t spaces arguments ih ih' =>
    refine ih.append (.append (.plain (plain_gap spaces)) (.angle ih') ?_) (Or.inr ?_)
    · exact Or.inl (not_mem_of_plain (plain_gap spaces) (by decide))
    · exact detached_gap_append spaces (detached_cons (by decide) _)
  | array t spaces inside ih =>
    refine ih.append (.append (.plain (plain_gap spaces)) (.square (plain_gap inside)) ?_)
      (Or.inr ?_)
    · exact Or.inl (not_mem_of_plain (plain_gap spaces) (by decide))
    · exact detached_gap_append spaces (detached_cons (by decide) _)
  | argument before t behind ih => exact .between (plain_gap before) ih.deeper behind
  | wildcard before behind =>
    refine .plain (List.forall_mem_append.2 ⟨plain_gap before, List.forall_mem_cons.2 ⟨?_, ?_⟩⟩)
    · decide
    · exact plain_gap behind
  | boundedWildcard before spaces upper spaces' t behind ih =>
    have word : ∀ c ∈ (if upper then "extends" else "super").toList, IsPlainSymbol c := by
      cases upper with
      | true => exact plain_extends
      | false => exact List.all_iff_forall_prop.1 (by decide)
    refine .between ?_ ih.deeper behind
    rw [List.forall_mem_append, List.forall_mem_append, List.forall_mem_cons,
      List.forall_mem_append, List.forall_mem_cons]
    exact ⟨⟨plain_gap before, by decide, plain_gap spaces, word⟩, by decide, plain_gap spaces'⟩
  | moreArguments first rest ih ih' =>
    exact ih.append (.append .comma ih' (Or.inl (by decide)))
      (Or.inr (detached_cons (by decide) _))
  | bound t ih => exact ih
  | moreBounds first spaces spaces' t ih ih' =>
    have lead : ∀ c ∈ gap spaces ++ '&' :: gap spaces', IsPlainSymbol c :=
      List.forall_mem_append.2 ⟨plain_gap spaces,
        List.forall_mem_cons.2 ⟨by decide, plain_gap spaces'⟩⟩
    refine ih.append (.append (.plain lead) ih' ?_) (Or.inr ?_)
    · exact Or.inl (not_mem_of_plain lead (by decide))
    · rw [List.append_assoc]
      exact detached_gap_append spaces (detached_cons (by decide) _)
  | parameter before n behind => exact .between (plain_gap before) (.plain n.plain) behind
  | boundedParameter before n spaces spaces' bounds behind ih =>
    refine .between ?_ ih.deeper behind
    simp only [List.forall_mem_append, List.forall_mem_cons]
    exact ⟨⟨⟨⟨plain_gap before, n.plain⟩, by decide, plain_gap spaces⟩, plain_extends⟩, by decide,
      plain_gap spaces'⟩
  | moreParameters first rest ih ih' =>
    exact ih.append (.append .comma ih' (Or.inl (by decide)))
      (Or.inr (detached_cons (by decide) _))

/-! ## Ends of a type -/

theorem Identifier.exists_head (n : Identifier) :
    ∃ c rest, n.text = c :: rest ∧ IsIdentifierChar c := by
  obtain ⟨c, rest, whole⟩ := List.exists_cons_of_ne_nil n.nonempty
  exact ⟨c, rest, whole, n.named c (whole ▸ List.mem_cons_self)⟩

theorem Identifier.exists_last (n : Identifier) :
    ∃ front c, n.text = front ++ [c] ∧ IsIdentifierChar c := by
  obtain ⟨front, c, whole⟩ := (List.eq_nil_or_concat n.text).resolve_left n.nonempty
  rw [List.concat_eq_append] at whole
  refine ⟨front, c, whole, n.named c ?_⟩
  rw [whole]
  exact List.mem_append_right front (List.mem_singleton_self c)

/-- A text that ends with a name ends with a character of it. -/
theorem Identifier.named_of_mem_getLast? (n : Identifier) (front : Text) :
    ∀ c ∈ (front ++ n.text).getLast?, IsIdentifierChar c := by
  obtain ⟨more, last, whole, named⟩ := n.exists_last
  intro c mem
  rw [whole, ← List.append_assoc, List.getLast?_concat] at mem
  exact Option.some.inj mem ▸ named

/-- A type starts with a name. -/
theorem TypeSyntax.exists_head :
    (t : TypeSyntax .type) → ∃ c rest, t.write = c :: rest ∧ IsIdentifierChar c
  | .name n => n.exists_head
  | .qualified t _ | .generic t _ _ | .array t _ _ => by
    obtain ⟨c, rest, whole, named⟩ := t.exists_head
    exact ⟨c, rest ++ _, by rw [write, whole, List.cons_append], named⟩

/-- A type ends with a name or a bracket. -/
theorem TypeSyntax.exists_last :
    (t : TypeSyntax .type) →
      ∃ front c, t.write = front ++ [c] ∧ (IsIdentifierChar c ∨ c ∈ ['>', ']'])
  | .name n => by
    obtain ⟨front, c, whole, named⟩ := n.exists_last
    exact ⟨front, c, whole, Or.inl named⟩
  | .qualified t n => by
    obtain ⟨front, c, whole, named⟩ := n.exists_last
    exact ⟨t.write ++ '.' :: front, c, by rw [write, whole, List.append_assoc, List.cons_append],
      Or.inl named⟩
  | .generic t spaces arguments => by
    refine ⟨t.write ++ (gap spaces ++ '<' :: arguments.write), '>', ?_, Or.inr (by decide)⟩
    rw [write, angle, List.append_assoc, List.append_assoc, List.cons_append]
  | .array t spaces inside => by
    refine ⟨t.write ++ (gap spaces ++ '[' :: gap inside), ']', ?_, Or.inr (by decide)⟩
    rw [write, List.append_assoc, List.append_assoc, List.cons_append]

/-! ## Parameters -/

/-- A parameter of a function: its name and its type. -/
structure TypedParameter where
  type : TypeSyntax .type
  name : Identifier

/-- Which of the two comes first. -/
inductive ParameterOrder where
  | typeFirst
  | nameFirst

def TypedParameter.write (p : TypedParameter) : ParameterOrder → Text
  | .typeFirst => p.type.write ++ ' ' :: p.name.text
  | .nameFirst => (p.name.text ++ ": ") ++ p.type.write

/-- Parameters with commas between. -/
def writeParameters (order : ParameterOrder) (ps : List TypedParameter) : Text :=
  Text.join ", " (ps.map fun p => p.write order)

/-- The characters of parameters. -/
def IsParameterSymbol (c : Char) : Prop :=
  IsTypeSymbol c ∨ c = ':'

instance (c : Char) : Decidable (IsParameterSymbol c) :=
  inferInstanceAs (Decidable (_ ∨ _))

namespace TypedParameter

variable (p : TypedParameter) (order : ParameterOrder)

theorem symbols : ∀ c ∈ p.write order, IsParameterSymbol c := by
  have name : ∀ c ∈ p.name.text, IsParameterSymbol c :=
    fun c mem => Or.inl (Or.inl (p.name.named c mem))
  have type : ∀ c ∈ p.type.write, IsParameterSymbol c :=
    fun c mem => Or.inl (p.type.neat.symbols c mem)
  cases order with
  | typeFirst =>
    exact List.forall_mem_append.2 ⟨type, List.forall_mem_cons.2 ⟨by decide, name⟩⟩
  | nameFirst =>
    have colon : ∀ c ∈ ": ".toList, IsParameterSymbol c := List.all_iff_forall_prop.1 (by decide)
    exact List.forall_mem_append.2 ⟨List.forall_mem_append.2 ⟨name, colon⟩, type⟩

theorem enclosed : Enclosed false none (p.write order) := by
  have type : ∀ previous, Enclosed false previous p.type.write := p.type.neat.enclosed
  cases order with
  | typeFirst =>
    have name : ∀ c ∈ ' ' :: p.name.text, IsPlainSymbol c :=
      List.forall_mem_cons.2 ⟨by decide, p.name.plain⟩
    exact (type none).append fun previous => (Neat.plain name).enclosed previous
  | nameFirst =>
    refine .append_plain (List.all_eq_true.2 ?_) (type _)
    exact List.forall_mem_append.2 ⟨fun c mem => (p.name.plain c mem).opens_none,
      List.all_iff_forall_prop.1 (by decide)⟩

theorem trim_write : (p.write order).trim = p.write order := by
  obtain ⟨c, rest, typeHead, typeNamed⟩ := p.type.exists_head
  obtain ⟨typeFront, typeEnd, typeLast, typeEnds⟩ := p.type.exists_last
  obtain ⟨d, more, nameHead, nameNamed⟩ := p.name.exists_head
  obtain ⟨nameFront, nameEnd, nameLast, nameEnds⟩ := p.name.exists_last
  have visible : isBlank typeEnd = false := by
    rcases typeEnds with named | bracket
    · exact named.1
    · have all : ∀ e ∈ ['>', ']'], isBlank e = false := List.all_iff_forall_prop.1 (by decide)
      exact all typeEnd bracket
  cases order with
  | typeFirst =>
    have first : p.write .typeFirst = c :: (rest ++ ' ' :: p.name.text) := by
      rw [write, typeHead, List.cons_append]
    have last : p.write .typeFirst = (p.type.write ++ ' ' :: nameFront) ++ [nameEnd] := by
      rw [write, nameLast, List.append_assoc, List.cons_append]
    exact Text.trim_eq_self_of_ends typeNamed.1 nameEnds.1 first last
  | nameFirst =>
    have first : p.write .nameFirst = d :: ((more ++ ": ") ++ p.type.write) := by
      rw [write, nameHead, List.cons_append, List.cons_append]
    have last : p.write .nameFirst = ((p.name.text ++ ": ") ++ typeFront) ++ [typeEnd] := by
      rw [write, typeLast, List.append_assoc, List.append_assoc, List.append_assoc]
    exact Text.trim_eq_self_of_ends nameNamed.1 visible first last

theorem write_ne_nil : p.write order ≠ [] := by
  cases order with
  | typeFirst => exact List.append_ne_nil_of_right_ne_nil _ (List.cons_ne_nil _ _)
  | nameFirst =>
    exact List.append_ne_nil_of_left_ne_nil
      (List.append_ne_nil_of_right_ne_nil _ (by decide)) _

end TypedParameter

/-- The characters of a list of parameters are those of the parameters. -/
theorem symbols_writeParameters (order : ParameterOrder) (ps : List TypedParameter) :
    ∀ c ∈ writeParameters order ps, IsParameterSymbol c := by
  intro c mem
  rcases Text.mem_of_mem_join mem with between | ⟨t, written, inside⟩
  · have all : ∀ d ∈ ", ".toList, IsParameterSymbol d := List.all_iff_forall_prop.1 (by decide)
    exact all c between
  · obtain ⟨p, -, rfl⟩ := List.mem_map.1 written
    exact p.symbols order c inside

theorem splitParameters_writeParameters (order : ParameterOrder) (ps : List TypedParameter) :
    splitParameters (writeParameters order ps) = ps.map fun p => p.write order := by
  refine splitParameters_join ⟨?whole, ?closed⟩ ?trimmed
  case whole =>
    rw [List.forall_mem_map]
    exact fun p _ => (p.enclosed order).whole
  case closed =>
    rw [List.pairwise_map]
    exact List.pairwise_of_forall fun p _ => (p.enclosed order).closed
  case trimmed =>
    rw [List.forall_mem_map]
    exact fun p _ => ⟨p.trim_write order, p.write_ne_nil order⟩

end HarnessSynthesis.Source
