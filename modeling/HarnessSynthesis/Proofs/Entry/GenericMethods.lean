/-
# Methods with type parameters

A section of type parameters in front of a return type is skipped up to its first closing bracket.
Where a bound has arguments of its own this is not the end of the section: what follows is no name,
so the type is not taken for one, and the method is lost. Without such arguments the method is found
with its modifiers and all its parameters, as long as its name and its type keep to the characters
that the scanners know.
-/

import HarnessSynthesis.Proofs.Entry.Choice
import HarnessSynthesis.Proofs.Entry.Headers
import HarnessSynthesis.Proofs.Source.Parentheses
import HarnessSynthesis.Proofs.Source.Places
import HarnessSynthesis.Proofs.Source.TypeSyntax

namespace HarnessSynthesis

open Source
open Text (isBlank isNameStart isWordChar trimStart)

/-! ## Sources without comments -/

/-- The characters of a declaration on one line. -/
def IsDeclarationSymbol (c : Char) : Prop :=
  IsParameterSymbol c ∨ c ∈ ['(', ')', '{', '}']

instance (c : Char) : Decidable (IsDeclarationSymbol c) :=
  inferInstanceAs (Decidable (_ ∨ _))

theorem IsDeclarationSymbol.idle {c : Char} (symbol : IsDeclarationSymbol c) (l : Language) :
    Idle l c := by
  have absent : ∀ d ∈ ['"', '\'', '`', '#', '/', '*', '\\', '\n'], c ≠ d := by
    have all : ∀ d ∈ ['"', '\'', '`', '#', '/', '*', '\\', '\n'],
        ¬ IsDeclarationSymbol d := List.all_iff_forall_prop.1 (by decide)
    rintro d mem rfl
    exact all c mem symbol
  simp only [List.forall_mem_cons] at absent
  constructor
  · simp [isDelimiter, absent]
  · simp [absent]

theorem stripComments_declaration (l : Language) {source : Text}
    (symbols : ∀ c ∈ source, IsDeclarationSymbol c) : stripComments l source = source := by
  by_cases empty : source = []
  · rw [empty]
    rfl
  · have keeps : Region.code.Keeps := trivial
    have belongs : Region.code.Belongs l := trivial
    have whole := stripFrom_idle_append (fun c mem => (symbols c mem).idle l) empty keeps belongs []
    rw [List.append_nil, stripFrom_nil, List.append_nil] at whole
    exact whole

/-! ## What follows a declared name -/

def emptyBody : Text :=
  " \x7b \x7d"

/-- What stands behind the parenthesis of a declaration with an empty body. -/
def declarationTail (order : ParameterOrder) (ps : List TypedParameter) : Text :=
  writeParameters order ps ++ ')' :: emptyBody

theorem symbols_declarationTail (order : ParameterOrder) (ps : List TypedParameter) :
    ∀ c ∈ declarationTail order ps, IsDeclarationSymbol c := by
  refine List.forall_mem_append.2 ⟨fun c mem => ?_, List.all_iff_forall_prop.1 (by decide)⟩
  exact Or.inl (symbols_writeParameters order ps c mem)

theorem not_mem_writeParameters {c : Char} (unknown : ¬ IsParameterSymbol c)
    (order : ParameterOrder) (ps : List TypedParameter) : c ∉ writeParameters order ps :=
  fun mem => unknown (symbols_writeParameters order ps c mem)

/-- No further parenthesis is opened. -/
theorem not_mem_declarationTail (order : ParameterOrder) (ps : List TypedParameter) :
    '(' ∉ declarationTail order ps := by
  rw [declarationTail, List.mem_append, not_or]
  exact ⟨not_mem_writeParameters (by decide) order ps, by decide⟩

theorem closeBracket?_declarationTail (order : ParameterOrder) (ps : List TypedParameter) :
    closeBracket? '(' ')' 0 (declarationTail order ps) =
      some (writeParameters order ps, emptyBody) := by
  refine closeBracket?_eq_some_iff.2 ⟨rfl, matched_of_not_mem ?_ ?_⟩
  · exact not_mem_writeParameters (by decide) order ps
  · exact not_mem_writeParameters (by decide) order ps

namespace TypedSource

/-! ## Types behind a section of type parameters -/

/-- A section of type parameters with a type behind it. -/
def genericType (parameters : TypeSyntax .parameters) (t : TypeSyntax .type) : Text :=
  angle parameters.write ++ ' ' :: t.write

theorem skipTypeSection?_angle (s t : Text) (flat : '>' ∉ s) :
    skipTypeSection? (angle s ++ t) = some (trimStart t) := by
  have passes : ∀ c ∈ s, (c != '>') = true := fun c mem =>
    bne_iff_ne.2 fun same => flat (same ▸ mem)
  rw [angle, List.cons_append, List.append_assoc, List.singleton_append, skipTypeSection?,
    List.dropWhile_append_of_pos passes, List.dropWhile_cons_of_neg (by decide)]
  rfl

/-- Behind the first closing bracket of a nested section no name follows. -/
theorem skipTypeSection?_nested (parameters : TypeSyntax .parameters) (t : Text)
    (nested : '>' ∈ parameters.write) :
    ∃ rest, skipTypeSection? (angle parameters.write ++ t) = some rest ∧
      ∀ c ∈ rest.head?, isNameStart c = false := by
  obtain ⟨front, rest, whole, first⟩ := List.eq_append_cons_of_mem nested
  have passes : ∀ c ∈ front, (c != '>') = true := fun c mem =>
    bne_iff_ne.2 fun same => first (same ▸ mem)
  refine ⟨trimStart (rest ++ '>' :: t), ?_, fun c head => ?_⟩
  · rw [angle, List.cons_append, List.append_assoc, List.singleton_append, whole, List.append_assoc,
      List.cons_append, skipTypeSection?, List.dropWhile_append_of_pos passes,
      List.dropWhile_cons_of_neg (by decide)]
    rfl
  · have marks : ∀ d ∈ [',', '<', '>', '[', '&', '.'], isNameStart d = false :=
      List.all_iff_forall_prop.1 (by decide)
    have behind := parameters.neat.detached front rest whole
    exact marks c (behind.append (detached_cons (by decide) t) c head)

/-- Whether a type is spelled with the characters that scanners know. -/
def IsWordType (t : Text) : Prop :=
  t.head?.any isNameStart = true ∧ ∀ c ∈ t, isTypeChar c = true

theorem isTypeChar_of_isNameStart {c : Char} (starts : isNameStart c = true) :
    isTypeChar c = true := by
  rw [isTypeChar, Text.isWordChar_of_isNameStart starts, Bool.true_or, Bool.true_or]

theorem isWordType_cons {c : Char} {rest : Text} :
    IsWordType (c :: rest) ↔ (isNameStart c && rest.all isTypeChar) = true := by
  rw [IsWordType, List.head?_cons, Option.any_some, Bool.and_eq_true, List.all_eq_true,
    List.forall_mem_cons]
  exact ⟨fun h => ⟨h.1, h.2.2⟩, fun h => ⟨h.1, isTypeChar_of_isNameStart h.1, h.2⟩⟩

theorem endsWith_append_singleton {c d : Char} (other : c ≠ d) (t : Text) :
    Text.endsWith [d] (t ++ [c]) = false := by
  rw [Text.endsWith, Option.isSome_eq_false_iff, Option.isNone_iff_eq_none]
  refine Option.eq_none_iff_forall_ne_some.2 fun rest found => other ?_
  obtain ⟨-, same⟩ := List.append_inj' (Text.beforeSuffix?_eq_some_iff.1 found) rfl
  exact (List.cons.inj same).1

/-- Behind a section of type parameters it is only asked whether the rest can be a type. -/
theorem isReturnType_eq_isTypeText (parameters : TypeSyntax .parameters) (t : TypeSyntax .type) :
    isReturnType (genericType parameters t) = isTypeText (genericType parameters t) := by
  obtain ⟨front, last, foot, ends⟩ := t.exists_last
  have noPeriod : Text.endsWith ['.'] (genericType parameters t) = false := by
    have other : last ≠ '.' := by
      rintro rfl
      exact ends.elim (by decide) (by decide)
    rw [genericType, foot, ← List.cons_append, ← List.append_assoc]
    exact endsWith_append_singleton other _
  have noWord : (genericType parameters t).takeWhile Text.isNameChar = [] :=
    List.takeWhile_cons_of_neg (by decide)
  rw [isReturnType, noPeriod, noWord]
  rfl

/-- Exactly without nested brackets the type behind a section is what is looked at. -/
theorem isReturnType_genericType (parameters : TypeSyntax .parameters) (t : TypeSyntax .type) :
    isReturnType (genericType parameters t) = true ↔
      '>' ∉ parameters.write ∧ IsWordType t.write := by
  rw [isReturnType_eq_isTypeText, isTypeText, genericType]
  by_cases nested : '>' ∈ parameters.write
  · refine iff_of_false ?_ fun h => h.1 nested
    obtain ⟨behind, skipped, noName⟩ := skipTypeSection?_nested parameters (' ' :: t.write) nested
    rw [skipped]
    cases behind with
    | nil => exact Bool.false_ne_true
    | cons d behind =>
      show ¬ (isNameStart d && behind.all isTypeChar) = true
      rw [noName d rfl]
      exact Bool.false_ne_true
  · obtain ⟨c, rest, head, named⟩ := t.exists_head
    rw [and_iff_right nested, skipTypeSection?_angle _ _ nested,
      Text.trimStart_cons_of_isBlank (by decide), head,
      Text.trimStart_cons_of_not_isBlank named.1, isWordType_cons]

/-! ## Headers with a section of type parameters -/

/-- The modifiers in front of a method. -/
def methodModifiers : List Text :=
  ["public", "private", "protected", "static", "final"]

/-- Modifiers, each with a space behind it. -/
def writeModifiers (modifiers : List Text) : Text :=
  modifiers.flatMap (· ++ [' '])

theorem read_modifier {word : Text} (known : word ∈ methodModifiers) (t : Text) :
    HeaderItem.read (word ++ ' ' :: t) = .modifier word (' ' :: t) := by
  simp only [methodModifiers, List.mem_cons, List.not_mem_nil, or_false] at known
  rcases known with rfl | rfl | rfl | rfl | rfl <;> rfl

theorem dropWhile_isAsciiBlank_modifier {word : Text} (known : word ∈ methodModifiers) (t : Text) :
    (word ++ t).dropWhile Text.isAsciiBlank = word ++ t := by
  simp only [methodModifiers, List.mem_cons, List.not_mem_nil, or_false] at known
  rcases known with rfl | rfl | rfl | rfl | rfl <;> rfl

theorem writeModifiers_cons (word : Text) (modifiers : List Text) (t : Text) :
    writeModifiers (word :: modifiers) ++ t = word ++ ' ' :: (writeModifiers modifiers ++ t) := by
  rw [writeModifiers, List.flatMap_cons, List.append_assoc, List.append_assoc]
  rfl

theorem dropWhile_writeModifiers {modifiers : List Text}
    (known : ∀ word ∈ modifiers, word ∈ methodModifiers) (rest : Text) :
    (writeModifiers modifiers ++ '<' :: rest).dropWhile Text.isAsciiBlank =
      writeModifiers modifiers ++ '<' :: rest := by
  cases modifiers with
  | nil => rfl
  | cons word modifiers =>
    rw [writeModifiers_cons]
    exact dropWhile_isAsciiBlank_modifier (known word List.mem_cons_self) _

theorem length_le_length_writeModifiers (modifiers : List Text) :
    modifiers.length ≤ (writeModifiers modifiers).length := by
  induction modifiers with
  | nil => exact Nat.le_refl 0
  | cons word modifiers ih =>
    rw [← List.append_nil (writeModifiers (word :: modifiers)), writeModifiers_cons,
      List.append_nil, List.length_append, List.length_cons, List.length_cons]
    omega

/-- By induction on the modifiers, which are read up to the section. -/
theorem readItems?_writeModifiers {modifiers : List Text}
    (known : ∀ word ∈ modifiers, word ∈ methodModifiers) {fuel : Nat}
    (enough : modifiers.length < fuel) {t rest : Text}
    (start : t.dropWhile Text.isAsciiBlank = writeModifiers modifiers ++ '<' :: rest) :
    readItems? fuel t = some (modifiers, '<' :: rest) := by
  induction modifiers generalizing fuel t with
  | nil =>
    obtain ⟨fuel, rfl⟩ := Nat.exists_eq_succ_of_ne_zero (Nat.ne_of_gt enough)
    rw [readItems?, start]
    rfl
  | cons word modifiers ih =>
    obtain ⟨fuel, rfl⟩ := Nat.exists_eq_succ_of_ne_zero (Nat.ne_of_gt (Nat.zero_lt_of_lt enough))
    rw [List.forall_mem_cons] at known
    have next : (' ' :: (writeModifiers modifiers ++ '<' :: rest)).dropWhile Text.isAsciiBlank =
        writeModifiers modifiers ++ '<' :: rest := by
      rw [List.dropWhile_cons_of_pos (by decide), dropWhile_writeModifiers known.2]
    rw [readItems?, start, writeModifiers_cons, read_modifier known.1]
    dsimp only
    rw [ih known.2 (Nat.lt_of_succ_lt_succ enough) next]
    rfl

theorem cutLastLabel?_eq_none {previous : Option Char} {t : Text} (noColon : ':' ∉ t) :
    cutLastLabel? previous t = none := by
  induction t generalizing previous with
  | nil => rfl
  | cons c t ih =>
    rw [List.mem_cons, not_or] at noColon
    rw [cutLastLabel?, ih noColon.2]
    exact if_neg fun h => noColon.1 h.1.symm

theorem cutSegment_eq_self {t : Text} (noEnd : ∀ c ∈ t, endsStatement c = false)
    (noColon : ':' ∉ t) : cutSegment t = ([], t) := by
  have all : ∀ c ∈ t.reverse, (!endsStatement c) = true := fun c mem => by
    rw [noEnd c (List.mem_reverse.1 mem)]
    rfl
  have done : t.dropEndWhile (fun c => !endsStatement c) = [] := by
    rw [Text.dropEndWhile, List.dropWhile_eq_nil_iff.2 all, List.reverse_nil]
  have segment : t.takeEndWhile (fun c => !endsStatement c) = t := by
    rw [Text.takeEndWhile, List.takeWhile_eq_self_iff.2 all, List.reverse_reverse]
  rw [cutSegment, done, segment, cutLastLabel?_eq_none noColon]

theorem dropQualifiers_eq_self {t : Text} (noColon : ':' ∉ t) : dropQualifiers t = t := by
  rw [dropQualifiers]
  split
  · rfl
  · rename_i rest found
    refine absurd ?_ noColon
    rw [Text.beforeSuffix?_eq_some_iff.1 found]
    exact List.mem_append_right rest List.mem_cons_self

/-- What stands in front of the name of a method. -/
def genericHead (modifiers : List Text) (parameters : TypeSyntax .parameters)
    (t : TypeSyntax .type) : Text :=
  writeModifiers modifiers ++ (genericType parameters t ++ [' '])

theorem symbols_genericHead {modifiers : List Text}
    (known : ∀ word ∈ modifiers, word ∈ methodModifiers) (parameters : TypeSyntax .parameters)
    (t : TypeSyntax .type) : ∀ c ∈ genericHead modifiers parameters t, IsTypeSymbol c := by
  have words : ∀ word ∈ methodModifiers, ∀ c ∈ word ++ [' '], IsTypeSymbol c := by
    intro word mem
    simp only [methodModifiers, List.mem_cons, List.not_mem_nil, or_false] at mem
    rcases mem with rfl | rfl | rfl | rfl | rfl <;> exact List.all_iff_forall_prop.1 (by decide)
  have space : ∀ c ∈ [' '], IsTypeSymbol c := List.forall_mem_singleton.2 (by decide)
  refine List.forall_mem_append.2 ⟨fun c mem => ?_, List.forall_mem_append.2 ⟨?_, space⟩⟩
  · obtain ⟨word, used, inside⟩ := List.mem_flatMap.1 mem
    exact words word (known word used) c inside
  · refine List.forall_mem_append.2 ⟨symbols_angle parameters.neat.symbols, ?_⟩
    exact List.forall_mem_cons.2 ⟨by decide, t.neat.symbols⟩

theorem trim_genericType (parameters : TypeSyntax .parameters) (t : TypeSyntax .type) :
    (genericType parameters t ++ [' ']).trim = genericType parameters t := by
  obtain ⟨front, last, foot, ends⟩ := t.exists_last
  have visible : isBlank last = false := by
    have all : ∀ d ∈ ['>', ']'], isBlank d = false := List.all_iff_forall_prop.1 (by decide)
    exact ends.elim (fun named => named.1) (all last)
  rw [Text.trim_append_of_blank_right Text.blank_space]
  have whole : genericType parameters t = angle parameters.write ++ ' ' :: front ++ [last] := by
    rw [genericType, foot, List.append_assoc, List.cons_append]
  exact Text.trim_eq_self_of_ends (c := '<') (by decide) visible rfl whole

/-- The header of a method: it is read to its type, which has to be one. -/
theorem header?_genericHead {modifiers : List Text}
    (known : ∀ word ∈ modifiers, word ∈ methodModifiers) (parameters : TypeSyntax .parameters)
    (t : TypeSyntax .type) (header : Header) :
    header? (genericHead modifiers parameters t) = some header ↔
      header = ⟨writeModifiers modifiers, modifiers, genericType parameters t⟩ ∧
        isReturnType (genericType parameters t) = true := by
  have symbols := symbols_genericHead known parameters t
  have absent (d : Char) (other : ¬ IsTypeSymbol d) : d ∉ genericHead modifiers parameters t :=
    fun mem => other (symbols d mem)
  have segment : cutSegment (genericHead modifiers parameters t) =
      ([], genericHead modifiers parameters t) := by
    refine cutSegment_eq_self (fun c mem => ?_) (absent ':' (by decide))
    have other (d : Char) (unknown : ¬ IsTypeSymbol d) : c ≠ d := fun same =>
      unknown (same ▸ symbols c mem)
    simp [endsStatement, other ';' (by decide), other '{' (by decide), other '}' (by decide)]
  have read : readItems? (genericHead modifiers parameters t).length
      (genericHead modifiers parameters t) =
        some (modifiers, genericType parameters t ++ [' ']) := by
    refine readItems?_writeModifiers known ?_ (dropWhile_writeModifiers known _)
    have size := length_le_length_writeModifiers modifiers
    rw [genericHead, List.length_append, List.length_append, List.length_singleton]
    omega
  have front : (genericHead modifiers parameters t).take
      ((genericHead modifiers parameters t).length - (genericType parameters t ++ [' ']).length) =
        writeModifiers modifiers := by
    rw [genericHead, List.length_append, Nat.add_sub_cancel, List.take_left]
  have type : dropQualifiers (genericType parameters t ++ [' ']).trim =
      genericType parameters t := by
    rw [trim_genericType]
    refine dropQualifiers_eq_self fun mem => absent ':' (by decide) ?_
    exact List.mem_append_right _ (List.mem_append_left _ mem)
  rw [header?_eq_some_iff, segment]
  obtain ⟨before, words, returnType⟩ := header
  simp only [Header.mk.injEq]
  constructor
  · rintro ⟨rest, items, rfl, isType, rfl⟩
    obtain ⟨rfl, rfl⟩ := Prod.mk.inj (Option.some.inj (read.symm.trans items))
    rw [type] at isType
    exact ⟨⟨front, rfl, type⟩, isType⟩
  · rintro ⟨⟨rfl, rfl, rfl⟩, isType⟩
    exact ⟨_, read, type.symm, isType, front.symm⟩

/-! ## Methods -/

/-- A method with a section of type parameters and an empty body. -/
def genericMethod (modifiers : List Text) (parameters : TypeSyntax .parameters)
    (t : TypeSyntax .type) (name : Identifier) (ps : List TypedParameter) : Text :=
  genericHead modifiers parameters t ++ (name.text ++ '(' :: declarationTail .typeFirst ps)

/-- What is found of such a method. -/
def genericCandidate (modifiers : List Text) (parameters : TypeSyntax .parameters)
    (t : TypeSyntax .type) (name : Identifier) (ps : List TypedParameter) : Candidate :=
  { Candidate.of (genericHead modifiers parameters t) name.text (writeParameters .typeFirst ps)
      (some (cleanType .java (genericType parameters t)))
      (braceDepth (genericHead modifiers parameters t)) with
    isPublic := modifiers.contains "public"
    typeOffset := (writeModifiers modifiers).octets
    modifiers := modifiers }

section Method

variable {modifiers : List Text} {parameters : TypeSyntax .parameters} {t : TypeSyntax .type}
  {name : Identifier} {ps : List TypedParameter}

/-- The method is a candidate at its name when what stands in front can be its header. -/
theorem declared?_genericMethod (known : ∀ word ∈ modifiers, word ∈ methodModifiers)
    (ordinary : Candidate.isExcluded name.text = false)
    (isType : isReturnType (genericType parameters t) = true) :
    declared? .java ⟨genericHead modifiers parameters t, name.text, declarationTail .typeFirst ps⟩ =
      some (genericCandidate modifiers parameters t name ps) := by
  have header := (header?_genericHead known parameters t _).2 ⟨rfl, isType⟩
  have closed := closeBracket?_declarationTail .typeFirst ps
  have body : bodyFollows (emptyBody.length + 1) emptyBody = true := rfl
  simp only [declared?, ordinary, closed, header, body, Bool.not_false, Option.bind_eq_bind,
    Option.bind_some, guard_true]
  rfl

theorem stripComments_genericMethod (known : ∀ word ∈ modifiers, word ∈ methodModifiers) :
    stripComments .java (genericMethod modifiers parameters t name ps) =
      genericMethod modifiers parameters t name ps := by
  refine stripComments_declaration .java (List.forall_mem_append.2 ⟨fun c mem => ?_, ?_⟩)
  · exact Or.inl (Or.inl (symbols_genericHead known parameters t c mem))
  · refine List.forall_mem_append.2 ⟨fun c mem => Or.inl (Or.inl (Or.inl (name.named c mem))), ?_⟩
    exact List.forall_mem_cons.2 ⟨by decide, symbols_declarationTail .typeFirst ps⟩

theorem not_mem_genericHead_append (known : ∀ word ∈ modifiers, word ∈ methodModifiers) :
    '(' ∉ genericHead modifiers parameters t ++ name.text := by
  rw [List.mem_append, not_or]
  refine ⟨fun mem => ?_, fun mem => ?_⟩
  · exact absurd (symbols_genericHead known parameters t _ mem) (by decide)
  · exact absurd (name.named _ mem) (by decide)

end Method

/-! ## Names in front of the only parenthesis -/

/-- Without blanks in front of the parenthesis all that is read is the name. -/
theorem eq_of_callable? {previous : Option Char} {taken rest : Text} {found : Text × Text}
    (read : callable? previous (taken ++ '(' :: rest) = some (found, rest))
    (visible : ∀ d ∈ taken.getLast?, isBlank d = false) :
    found = (taken, rest) ∧ IsName isNameStart isWordChar taken := by
  obtain ⟨name, inside⟩ := found
  obtain ⟨rfl, ⟨gap, blank, whole⟩, word⟩ := exists_of_callable? read
  rw [← List.append_assoc] at whole
  obtain rfl : taken = name ++ gap := List.append_cancel_right whole
  obtain rfl : gap = [] := blank.eq_nil_of_getLast? visible
  rw [List.append_nil]
  exact ⟨rfl, word⟩

theorem callable?_eq_some {previous : Option Char} (begins : wordMayBegin previous = true)
    {name : Text} (word : IsName isNameStart isWordChar name) (rest : Text) :
    callable? previous (name ++ '(' :: rest) = some ((name, rest), rest) := by
  have named := word.name?_append_cons (c := '(') (by decide) rest
  simp only [callable?, begins, named, guard_true, Option.bind_eq_bind, Option.bind_some]
  rfl

section Method

variable {modifiers : List Text} {parameters : TypeSyntax .parameters} {t : TypeSyntax .type}
  {name : Identifier} {ps : List TypedParameter}

theorem getLast?_genericHead (modifiers : List Text) (parameters : TypeSyntax .parameters)
    (t : TypeSyntax .type) : (genericHead modifiers parameters t).getLast? = some ' ' := by
  rw [genericHead, ← List.append_assoc, List.getLast?_concat]

/-- A word name is read where it stands and nowhere before. -/
theorem occurrences_genericMethod (known : ∀ word ∈ modifiers, word ∈ methodModifiers)
    (word : IsName isNameStart isWordChar name.text) :
    occurrences callable? (genericMethod modifiers parameters t name ps) =
      [⟨genericHead modifiers parameters t, name.text, declarationTail .typeFirst ps⟩] := by
  have noFront : '(' ∉ genericHead modifiers parameters t ++ name.text :=
    not_mem_genericHead_append known
  have noTail := not_mem_declarationTail .typeFirst ps
  have last := getLast?_genericHead modifiers parameters t
  refine readsTo_callable?.occurrences_eq noTail (fun u v place more => ?_) ?_
  · refine Option.eq_none_iff_forall_ne_some.2 fun ⟨found, behind⟩ read => ?_
    obtain ⟨taken, whole⟩ := readsTo_callable? read
    rw [← List.append_assoc] at whole read
    have front : '(' ∉ v ++ name.text := fun mem => noFront <| by
      rw [place, List.append_assoc]
      exact List.mem_append_right u mem
    obtain ⟨rfl, rfl⟩ := append_cons_inj_of_not_mem front noTail whole
    obtain ⟨-, word⟩ := eq_of_callable? read fun d last =>
      (name.named_of_mem_getLast? v d last).1
    have others := isWordChar_of_isName word
    -- a hit in front of the name would go over the space there
    rw [place, List.getLast?_append_of_ne_nil u more] at last
    exact absurd (others ' ' (List.mem_append_left _ (List.mem_of_getLast? last))) (by decide)
  · refine callable?_eq_some ?_ word (declarationTail .typeFirst ps)
    rw [last]
    rfl

theorem findCandidates_genericMethod (known : ∀ word ∈ modifiers, word ∈ methodModifiers)
    (ordinary : Candidate.isExcluded name.text = false)
    (isType : isReturnType (genericType parameters t) = true)
    (word : IsName isNameStart isWordChar name.text) :
    findCandidates .java (genericMethod modifiers parameters t name ps) =
      [genericCandidate modifiers parameters t name ps] := by
  have found : candidates .java (genericMethod modifiers parameters t name ps) =
      [genericCandidate modifiers parameters t name ps] := by
    rw [candidates, occurrences_genericMethod known word, List.filterMap_cons,
      declared?_genericMethod known ordinary isType]
    rfl
  rw [findCandidates, stripComments_genericMethod known]
  simp only [found]
  exact Candidate.arrange_singleton rfl

/-- Whatever candidate has the name of the method stands in its place, so the name and the type are
known to the scanners. -/
theorem known_of_mem_findCandidates (known : ∀ word ∈ modifiers, word ∈ methodModifiers)
    {c : Candidate}
    (mem : c ∈ findCandidates .java (genericMethod modifiers parameters t name ps))
    (same : c.name = name.text) :
    isReturnType (genericType parameters t) = true ∧ IsName isNameStart isWordChar name.text := by
  have noFront : '(' ∉ genericHead modifiers parameters t ++ name.text :=
    not_mem_genericHead_append known
  have noTail := not_mem_declarationTail .typeFirst ps
  rw [findCandidates, stripComments_genericMethod known] at mem
  obtain ⟨d, found, arranged⟩ := Candidate.exists_of_mem_arrange mem
  obtain ⟨hit, occurs, declared⟩ := List.mem_filterMap.1 found
  obtain ⟨-, -, header, -, -, -, read, named, -⟩ := exists_of_declared? declared
  rw [genericMethod, ← List.append_assoc] at occurs
  obtain ⟨taken, place, hits⟩ := readsTo_callable?.exists_of_mem noFront noTail occurs
  have visible : ∀ d ∈ taken.getLast?, isBlank d = false := by
    intro d last
    refine (name.named_of_mem_getLast? (genericHead modifiers parameters t) d ?_).1
    rw [place, List.getLast?_append, Option.mem_def.1 last]
    rfl
  obtain ⟨whole, word⟩ := eq_of_callable? hits visible
  obtain rfl : taken = name.text := by
    rw [← same, arranged, named, whole]
  rw [← List.append_cancel_right place] at read
  exact ⟨((header?_genericHead known parameters t header).1 read).2, word⟩

theorem findCandidates_genericMethod_iff (known : ∀ word ∈ modifiers, word ∈ methodModifiers)
    (ordinary : Candidate.isExcluded name.text = false) :
    (∃ c, findCandidates .java (genericMethod modifiers parameters t name ps) = [c] ∧
        c.name = name.text ∧ c.modifiers = modifiers ∧ c.argumentCount = ps.length) ↔
      '>' ∉ parameters.write ∧ IsWordType t.write ∧ IsName isNameStart isWordChar name.text := by
  constructor
  · rintro ⟨c, found, same, -, -⟩
    obtain ⟨isType, word⟩ := known_of_mem_findCandidates known
      (found ▸ List.mem_singleton_self c) same
    obtain ⟨flat, type⟩ := (isReturnType_genericType parameters t).1 isType
    exact ⟨flat, type, word⟩
  · rintro ⟨flat, type, word⟩
    have isType := (isReturnType_genericType parameters t).2 ⟨flat, type⟩
    refine ⟨_, findCandidates_genericMethod known ordinary isType word, rfl, rfl, ?_⟩
    show (splitParameters (writeParameters .typeFirst ps)).length = ps.length
    rw [splitParameters_writeParameters, List.length_map]

end Method

end TypedSource

end HarnessSynthesis
