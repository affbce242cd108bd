/-
# Annotated parameters

A parameter with a type is written as its name, a colon and the type, and a default may follow. It
is taken apart by two searches over the same text. The first colon ends the name, which has none.
The default starts at an equals sign outside of brackets, but this search counts brackets by itself:
unlike the splitter it knows of no quotes, and of no arrow but `=>`. So the type comes back exactly
when none of its equals signs is taken for the start of a default and, where a default follows, its
brackets are all counted as closed. As long as quotes hold nothing that counts, the search and the
splitter agree, and then every type comes back whose equals signs are enclosed or of arrows.
-/

import Mathlib.Data.Bool.AllAny
import HarnessSynthesis.Proofs.Source.Joining
import HarnessSynthesis.Proofs.Text.Search
import HarnessSynthesis.Proofs.Text.Words

namespace HarnessSynthesis.Source

open Text (Blank isBlank)

/-! ## Characters at their places -/

/-- Whether something holds of every character of a text, given what stands in front of it and
behind it. -/
def Everywhere (p : Text → Char → Text → Prop) (t : Text) : Prop :=
  ∀ front c rest, t = front ++ c :: rest → p front c rest

section Everywhere

variable {p : Text → Char → Text → Prop} {c : Char} {s t : Text}

theorem everywhere_nil : Everywhere p [] :=
  fun front _ _ whole => absurd whole.symm (by simp)

theorem everywhere_cons :
    Everywhere p (c :: t) ↔ p [] c t ∧ Everywhere (fun front => p (c :: front)) t := by
  refine ⟨fun all => ⟨all [] c t rfl, fun front d rest whole => all (c :: front) d rest ?_⟩, ?_⟩
  · rw [whole, List.cons_append]
  · rintro ⟨first, others⟩ front d rest whole
    cases front with
    | nil =>
      obtain ⟨rfl, rfl⟩ := List.cons.inj whole
      exact first
    | cons e front =>
      obtain ⟨rfl, rfl⟩ := List.cons.inj whole
      exact others front d rest rfl

theorem Everywhere.left (all : Everywhere p (s ++ t)) :
    Everywhere (fun front c rest => p front c (rest ++ t)) s := by
  rintro front c rest rfl
  exact all front c (rest ++ t) (by rw [List.append_assoc, List.cons_append])

/-- What is decided of one character at its place is decided of all. -/
def decideEverywhere : (p : Text → Char → Text → Prop) → (t : Text) →
    [∀ front c rest, Decidable (p front c rest)] → Decidable (Everywhere p t)
  | _, [], _ => isTrue everywhere_nil
  | p, c :: t, _ =>
    have := decideEverywhere (fun front => p (c :: front)) t
    decidable_of_iff _ everywhere_cons.symm

instance [∀ front c rest, Decidable (p front c rest)] : Decidable (Everywhere p t) :=
  decideEverywhere p t

end Everywhere

/-! ## The search for a default -/

/-- Where the search for a default stands: how many brackets it counts as open, and the character
just passed. -/
structure Counting where
  depth : Nat
  previous : Option Char
  deriving DecidableEq, Repr

namespace Counting

/-- The search in front of a parameter. -/
def start : Counting := ⟨0, none⟩

/-- Where the search stands behind one more character. -/
def next (s : Counting) (c : Char) : Counting where
  depth :=
    if opensBracket c then s.depth + 1
    else if c = '>' ∧ s.previous = some '=' then s.depth
    else if closesBracket c then s.depth - 1
    else s.depth
  previous := some c

/-- Where the search stands behind a text. -/
def after (s : Counting) (t : Text) : Counting :=
  t.foldl next s

@[simp] theorem after_nil (s : Counting) : s.after [] = s := rfl

@[simp] theorem after_cons (s : Counting) (c : Char) (t : Text) :
    s.after (c :: t) = (s.next c).after t := rfl

/-- Whether a character starts a default where it stands. -/
def StartsDefault (s : Counting) (c : Char) (rest : Text) : Prop :=
  c = '=' ∧ s.depth = 0 ∧ rest.head? ≠ some '>' ∧ rest.head? ≠ some '='

instance (s : Counting) (c : Char) (rest : Text) : Decidable (s.StartsDefault c rest) :=
  inferInstanceAs (Decidable (_ ∧ _))

/-- Whether a text is passed without the start of a default, when another one follows it. -/
def Passes (s : Counting) (t behind : Text) : Prop :=
  Everywhere (fun front c rest => ¬ (s.after front).StartsDefault c (rest ++ behind)) t

instance (s : Counting) (t behind : Text) : Decidable (s.Passes t behind) :=
  inferInstanceAs (Decidable (Everywhere _ t))

variable {s : Counting} {c : Char} {t behind : Text}

theorem passes_cons : s.Passes (c :: t) behind ↔
    ¬ s.StartsDefault c (t ++ behind) ∧ (s.next c).Passes t behind :=
  everywhere_cons

/-- Everything in front of the default is kept, and nothing else. -/
theorem withoutDefault_cons (s : Counting) (c : Char) (rest : Text) :
    withoutDefault s.depth s.previous (c :: rest) =
      if s.StartsDefault c rest then []
      else c :: withoutDefault (s.next c).depth (s.next c).previous rest := by
  by_cases equals : c = '='
  · subst equals
    simp [withoutDefault, StartsDefault, next, opensBracket, closesBracket]
  · simp only [withoutDefault, StartsDefault, next, equals, false_and, if_false]
    repeat' split
    all_goals rfl

theorem withoutDefault_append (passes : s.Passes t behind) :
    withoutDefault s.depth s.previous (t ++ behind) =
      t ++ withoutDefault (s.after t).depth (s.after t).previous behind := by
  induction t generalizing s with
  | nil => rfl
  | cons c t ih =>
    obtain ⟨noStart, passes⟩ := passes_cons.1 passes
    rw [List.cons_append, withoutDefault_cons, if_neg noStart, ih passes, after_cons,
      List.cons_append]

/-- When the default starts within a text, not all of the text is kept. -/
theorem length_withoutDefault_lt (cut : ¬ s.Passes t behind) :
    (withoutDefault s.depth s.previous (t ++ behind)).length < t.length := by
  induction t generalizing s with
  | nil => exact absurd everywhere_nil cut
  | cons c t ih =>
    rw [List.cons_append, withoutDefault_cons]
    split
    · exact Nat.succ_pos _
    · rename_i noStart
      have later : ¬ (s.next c).Passes t behind := fun passes =>
        cut (passes_cons.2 ⟨noStart, passes⟩)
      exact Nat.succ_lt_succ (ih later)

/-- A blank behind a text makes no difference to it. -/
theorem passes_cons_blank_iff : s.Passes t (' ' :: behind) ↔ s.Passes t [] := by
  have same (c : Char) (rest : Text) (s : Counting) :
      s.StartsDefault c (rest ++ ' ' :: behind) ↔ s.StartsDefault c (rest ++ []) := by
    cases rest with
    | nil => simp [StartsDefault]
    | cons d rest => simp [StartsDefault]
  simp only [Passes, same]

/-- Of the character in front only an equals sign makes a difference. -/
theorem depth_after_eq (fresh : s.depth = 0 ∧ s.previous ≠ some '=') (t : Text) :
    (s.after t).depth = (start.after t).depth := by
  cases t with
  | nil => exact fresh.1
  | cons c t =>
    have same : s.next c = start.next c := by
      simp [next, start, fresh.1, fresh.2]
    rw [after_cons, after_cons, same]

theorem passes_iff (fresh : s.depth = 0 ∧ s.previous ≠ some '=') :
    s.Passes t behind ↔ start.Passes t behind := by
  simp only [Passes, StartsDefault, depth_after_eq fresh]

end Counting

/-! ## Names and types -/

/-- A name without anything that the reading of a parameter looks for. Identifiers are names of this
kind. -/
structure PlainName (n : Text) : Prop where
  nonempty : n ≠ []
  plain : ∀ c ∈ n, isBlank c = false ∧ opensBracket c = false ∧ closesBracket c = false ∧
    c ∉ [':', '=', '.', '*', '?']

namespace PlainName

variable {n : Text}

theorem trim_eq (name : PlainName n) : n.trim = n :=
  Text.trim_eq_self fun c mem => (name.plain c mem).1

theorem not_mem (name : PlainName n) {c : Char} (special : c ∈ [':', '=', '.', '*', '?']) :
    c ∉ n :=
  fun mem => (name.plain c mem).2.2.2 special

/-- No mark is taken from the front of a name. -/
theorem trimStartMatches_eq (name : PlainName n) {c : Char} {mark : Text}
    (special : c ∈ [':', '=', '.', '*', '?']) : Text.trimStartMatches (c :: mark) n = n := by
  have absent : Text.afterPrefix? (c :: mark) n = none := by
    refine Text.afterPrefix?_eq_none fun start => name.not_mem special ?_
    exact start.subset List.mem_cons_self
  rw [Text.trimStartMatches, if_neg (List.cons_ne_nil c mark)]
  split
  · rename_i found
    rw [absent] at found
    cases found
  · rfl

theorem trimEndMatches_eq (name : PlainName n) {c : Char} {mark : Text}
    (special : c ∈ [':', '=', '.', '*', '?']) : Text.trimEndMatches (c :: mark) n = n := by
  refine Text.trimEndMatches_of_none (Option.eq_none_iff_forall_ne_some.2 fun rest found => ?_)
  rw [Text.beforeSuffix?_eq_some_iff] at found
  refine name.not_mem special ?_
  rw [found]
  exact List.mem_append_right rest List.mem_cons_self

/-- A name is one word. -/
theorem words_eq (name : PlainName n) : n.words = [n] := by
  have pieces {t : Text} (visible : ∀ c ∈ t, isBlank c = false) :
      Text.splitWhere isBlank t = [t] := by
    induction t with
    | nil => rfl
    | cons c t ih =>
      obtain ⟨first, others⟩ := List.forall_mem_cons.1 visible
      rw [Text.splitWhere, if_neg (by simp [first]), ih others]
  rw [Text.words, pieces fun c mem => (name.plain c mem).1]
  simpa using name.nonempty

/-- The colon behind a name is found. -/
theorem cutAtColon?_eq (name : PlainName n) (rest : Text) :
    cutAtColon? 0 (n ++ ':' :: rest) = some (n, rest) := by
  have cut {t : Text} (plain : ∀ c ∈ t, opensBracket c = false ∧ closesBracket c = false ∧
      c ≠ ':') : cutAtColon? 0 (t ++ ':' :: rest) = some (t, rest) := by
    induction t with
    | nil => rfl
    | cons c t ih =>
      obtain ⟨⟨opensNone, closesNone, noColon⟩, others⟩ := List.forall_mem_cons.1 plain
      simp [cutAtColon?, opensNone, closesNone, noColon, ih others]
  refine cut fun c mem => ?_
  obtain ⟨-, opensNone, closesNone, other⟩ := name.plain c mem
  exact ⟨opensNone, closesNone, fun colon => other (colon ▸ List.mem_cons_self)⟩

/-- The search for a default goes over a name as if it were not there. -/
theorem passes (name : PlainName n) (behind : Text) : Counting.start.Passes n behind :=
  fun _ c _ whole starts =>
    name.not_mem (c := '=') (by decide)
      (starts.1 ▸ whole ▸ List.mem_append_right _ List.mem_cons_self)

theorem depth_after (name : PlainName n) : (Counting.start.after n).depth = 0 := by
  have still {s : Counting} {t : Text}
      (plain : ∀ c ∈ t, opensBracket c = false ∧ closesBracket c = false) :
      (s.after t).depth = s.depth := by
    induction t generalizing s with
    | nil => rfl
    | cons c t ih =>
      obtain ⟨⟨opensNone, closesNone⟩, others⟩ := List.forall_mem_cons.1 plain
      rw [Counting.after_cons, ih others]
      simp [Counting.next, opensNone, closesNone]
  exact still fun c mem => ⟨(name.plain c mem).2.1, (name.plain c mem).2.2.1⟩

end PlainName

/-! ## Taking a parameter apart -/

/-- Blanks are trimmed behind a visible character as if nothing stood in front of them. -/
theorem trimEnd_append_cons {c : Char} (visible : isBlank c = false) (p t : Text) :
    (p ++ c :: t).trimEnd = p ++ c :: t.trimEnd := by
  have kept : (c :: p.reverse).dropWhile isBlank = c :: p.reverse :=
    List.dropWhile_cons_of_neg (by simp [visible])
  have whole : (p ++ c :: t).reverse.dropWhile isBlank =
      t.reverse.dropWhile isBlank ++ c :: p.reverse := by
    rw [List.reverse_append, List.reverse_cons, List.append_assoc, List.singleton_append,
      List.dropWhile_append]
    split
    · rename_i onlyBlanks
      rw [kept, List.isEmpty_iff.1 onlyBlanks, List.nil_append]
    · rfl
  rw [Text.trimEnd, Text.trimEnd, Text.dropEndWhile, Text.dropEndWhile, whole, List.reverse_append,
    List.reverse_cons, List.reverse_reverse, List.append_assoc, List.singleton_append]

namespace PlainName

variable {n : Text}

/-- The default is looked for in the type alone. -/
theorem withoutDefault_eq (name : PlainName n) (t : Text) :
    withoutDefault 0 none (n ++ ':' :: ' ' :: t) =
      n ++ ':' :: ' ' :: withoutDefault 0 (some ' ') t := by
  have front := Counting.withoutDefault_append (name.passes (':' :: ' ' :: t))
  rw [name.depth_after] at front
  exact front

theorem trim_annotated (name : PlainName n) (t : Text) :
    (n ++ ':' :: t).trim = n ++ ':' :: t.trimEnd := by
  obtain ⟨c, n', rfl⟩ := List.exists_cons_of_ne_nil name.nonempty
  have visible := (name.plain c List.mem_cons_self).1
  rw [Text.trim, List.cons_append, Text.trimStart, List.dropWhile_cons_of_neg (by simp [visible])]
  exact trimEnd_append_cons (by decide) (c :: n') t

/-- Of a parameter in a script the name comes back, and of the type what the search for a default
leaves of it. -/
theorem parse_eq (name : PlainName n) {l : Language} (script : l.isCFamily = false) (t : Text) :
    Parameter.parse l (n ++ ':' :: ' ' :: t) =
      ⟨n, if (withoutDefault 0 (some ' ') t).trim = [] then none
        else some (withoutDefault 0 (some ' ') t).trim⟩ := by
  have type : (Text.trimEnd (' ' :: withoutDefault 0 (some ' ') t)).trim =
      (withoutDefault 0 (some ' ') t).trim := by
    rw [Text.trim_trimEnd]
    exact Text.trim_append_of_blank_left Text.blank_space _
  have unmarked : Text.trimStartMatches "*" (Text.trimStartMatches "..." n.trim) = n := by
    rw [name.trim_eq]
    exact (congrArg _ (name.trimStartMatches_eq (c := '.') (by decide))).trans
      (name.trimStartMatches_eq (by decide))
  have unasked : Text.trimEndMatches "?" n = n := name.trimEndMatches_eq (by decide)
  rw [Parameter.parse, name.withoutDefault_eq, name.trim_annotated, script]
  simp only [Bool.false_eq_true, if_false, name.cutAtColon?_eq, unmarked, unasked, name.words_eq,
    type, List.getLast?_singleton, Option.getD_some]

end PlainName

/-! ## Types that come back -/

/-- Whether no equals sign of a type is taken for the start of a default: each is counted as inside
of brackets, or is the first of an arrow or of two. -/
def Uncut (t : Text) : Prop :=
  Counting.start.Passes t []

instance (t : Text) : Decidable (Uncut t) :=
  inferInstanceAs (Decidable (Counting.Passes _ _ _))

/-- Whether the brackets of a type are counted as closed at its end. -/
def Balances (t : Text) : Prop :=
  (Counting.start.after t).depth = 0

instance (t : Text) : Decidable (Balances t) :=
  inferInstanceAs (Decidable (_ = _))

theorem fresh_space : (⟨0, some ' '⟩ : Counting).depth = 0 ∧
    (⟨0, some ' '⟩ : Counting).previous ≠ some '=' := by decide

section Comes

variable {l : Language} {n t : Text}

/-- What is left of a type is the type. -/
theorem PlainName.parse_eq_iff (name : PlainName n) (script : l.isCFamily = false)
    (nonempty : t ≠ []) (x : Text) :
    Parameter.parse l (n ++ ':' :: ' ' :: x) = ⟨n, some t⟩ ↔
      (withoutDefault 0 (some ' ') x).trim = t := by
  rw [name.parse_eq script, Parameter.mk.injEq, and_iff_right rfl]
  constructor
  · intro same
    exact Option.some.inj (Option.ite_none_left_eq_some.1 same).2
  · rintro rfl
    rw [if_neg nonempty]

/-- What is cut short does not come back. -/
theorem passes_of_trim_eq {behind : Text}
    (same : (withoutDefault 0 (some ' ') (t ++ behind)).trim = t) :
    (⟨0, some ' '⟩ : Counting).Passes t behind := by
  by_contra cut
  have shorter := Counting.length_withoutDefault_lt cut
  have short := Text.length_trim_le (withoutDefault 0 (some ' ') (t ++ behind))
  rw [same] at short
  exact absurd (Nat.lt_of_le_of_lt short shorter) (Nat.lt_irrefl _)

theorem trim_withoutDefault_iff (trimmed : t.trim = t) :
    (withoutDefault 0 (some ' ') t).trim = t ↔ Uncut t := by
  rw [Uncut, ← Counting.passes_iff fresh_space]
  constructor
  · intro same
    rw [← List.append_nil t] at same
    exact passes_of_trim_eq (by simpa using same)
  · intro passes
    have kept := Counting.withoutDefault_append passes
    rw [List.append_nil] at kept
    change withoutDefault 0 (some ' ') t = t ++ [] at kept
    rw [kept, List.append_nil, trimmed]

/-- In front of a default the brackets of the type have to be counted as closed as well. -/
theorem trim_withoutDefault_default_iff (trimmed : t.trim = t) (nonempty : t ≠ []) (d : Text) :
    (withoutDefault 0 (some ' ') (t ++ ' ' :: '=' :: ' ' :: d)).trim = t ↔
      Uncut t ∧ Balances t := by
  have passes_iff : (⟨0, some ' '⟩ : Counting).Passes t (' ' :: '=' :: ' ' :: d) ↔ Uncut t :=
    Counting.passes_cons_blank_iff.trans (Counting.passes_iff fresh_space)
  have depth := Counting.depth_after_eq fresh_space t
  constructor
  · intro same
    have passes := passes_of_trim_eq same
    have kept := Counting.withoutDefault_append passes
    refine ⟨passes_iff.1 passes, ?_⟩
    by_contra unbalanced
    rw [Balances, ← depth] at unbalanced
    have overlooked : ∃ z, withoutDefault ((⟨0, some ' '⟩ : Counting).after t).depth
        ((⟨0, some ' '⟩ : Counting).after t).previous (' ' :: '=' :: ' ' :: d) =
          ' ' :: '=' :: z := by
      simp [withoutDefault, opensBracket, closesBracket, unbalanced]
    obtain ⟨z, overlooked⟩ := overlooked
    obtain ⟨c, t', rfl⟩ := List.exists_cons_of_ne_nil nonempty
    have visible := Text.isBlank_head_of_trim_eq_self trimmed
    change withoutDefault 0 (some ' ') _ = _ at kept
    rw [overlooked] at kept
    rw [kept, Text.trim, List.cons_append, Text.trimStart,
      List.dropWhile_cons_of_neg (by simp [visible]), ← List.cons_append,
      ← List.singleton_append (x := ' '), ← List.append_assoc,
      trimEnd_append_cons (by decide)] at same
    have longer := congrArg List.length same
    simp only [List.length_append, List.length_cons, List.length_nil] at longer
    omega
  · rintro ⟨uncut, balances⟩
    have kept := Counting.withoutDefault_append (passes_iff.2 uncut)
    rw [Balances, ← depth] at balances
    rw [balances] at kept
    change withoutDefault 0 (some ' ') _ = t ++ [' '] at kept
    rw [kept, Text.trim_append_of_blank_right Text.blank_space, trimmed]

end Comes

/-! ## Types that the search reads like the splitter -/

namespace SplitState

/-- Whether a character counts for the search for a default as it does for the splitter: it is not
quoted, or nothing that counts, and it does not end an arrow `->` within brackets. -/
def Agrees (s : SplitState) (c : Char) : Prop :=
  (s.quoting ≠ .outside → opensBracket c = false ∧ closesBracket c = false ∧ c ≠ '=') ∧
    (c = '>' → s.previous = some '-' → s.depth = 0)

instance (s : SplitState) (c : Char) : Decidable (s.Agrees c) :=
  inferInstanceAs (Decidable (_ ∧ _))

instance (s : SplitState) : Decidable s.Closed :=
  inferInstanceAs (Decidable (_ ∧ _))

/-- What the search for a default knows of where a splitter stands. -/
def counting (s : SplitState) : Counting :=
  ⟨s.depth, s.previous⟩

/-- Within quotes nothing opens or closes a bracket. -/
theorem depth_next_of_quoted {s : SplitState} (quoted : s.quoting ≠ .outside) (c : Char) :
    (s.next c).depth = s.depth := by
  obtain ⟨depth, quoting, previous⟩ := s
  cases quoting with
  | outside => exact absurd rfl quoted
  | inside q =>
    simp only [next]
    repeat' split
    all_goals rfl
  | escaped q => rfl

/-- Outside of quotes both count alike, up to arrows that only the splitter knows. -/
theorem depth_next_of_unquoted {depth : Nat} {previous : Option Char} {c : Char}
    (arrow : c = '>' → previous = some '-' → depth = 0) :
    ((⟨depth, previous⟩ : Counting).next c).depth =
      ((⟨depth, .outside, previous⟩ : SplitState).next c).depth := by
  by_cases opens : opensBracket c = true
  · rw [next_opensBracket opens]
    simp [Counting.next, opens]
  by_cases quote : opensQuote c = true
  · have closesNone : closesBracket c = false := by
      refine Bool.eq_false_iff.2 fun closes => ?_
      rw [opensQuote_of_bracket (Or.inr closes)] at quote
      cases quote
    rw [next_opensQuote quote]
    simp [Counting.next, opens, closesNone]
  by_cases isArrow : IsArrow previous c
  · rw [next_plain (by simpa using quote) (by simpa using opens) fun _ => isArrow]
    obtain ⟨rfl, equals | dash⟩ := isArrow
    · simp [Counting.next, opens, equals]
    · simp [Counting.next, opens, arrow rfl dash]
  by_cases closes : closesBracket c = true
  · have noArrow : ¬ (c = '>' ∧ previous = some '=') := fun h => isArrow ⟨h.1, Or.inl h.2⟩
    rw [next_closesBracket closes isArrow]
    simp [Counting.next, opens, closes, noArrow]
  · rw [next_plain (by simpa using quote) (by simpa using opens) fun h => absurd h closes]
    simp [Counting.next, opens, closes]

theorem Agrees.counting_next {s : SplitState} {c : Char} (agrees : s.Agrees c) :
    s.counting.next c = (s.next c).counting := by
  have depth : (s.counting.next c).depth = (s.next c).depth := by
    by_cases quoted : s.quoting ≠ .outside
    · obtain ⟨opensNone, closesNone, -⟩ := agrees.1 quoted
      rw [depth_next_of_quoted quoted]
      simp [Counting.next, counting, opensNone, closesNone]
    · obtain ⟨depth, quoting, previous⟩ := s
      obtain rfl : quoting = .outside := Decidable.not_not.1 quoted
      exact depth_next_of_unquoted agrees.2
  have known : (s.next c).counting = ⟨(s.next c).depth, (s.next c).previous⟩ := rfl
  rw [known, previous_next, ← depth]
  rfl

theorem counting_after {s : SplitState} {t : Text}
    (agrees : Everywhere (fun front c _ => (s.after front).Agrees c) t) :
    s.counting.after t = (s.after t).counting := by
  induction t generalizing s with
  | nil => rfl
  | cons c t ih =>
    obtain ⟨first, others⟩ := everywhere_cons.1 agrees
    rw [after_nil] at first
    rw [Counting.after_cons, first.counting_next, ih others, after_cons]

end SplitState

/-- A type as it may be annotated: it is trimmed and not empty, its quotes and brackets are closed,
and an equals sign outside of them begins an arrow. -/
structure TypeText (t : Text) : Prop where
  nonempty : t ≠ []
  trimmed : t.trim = t
  closed : (SplitState.start.after t).Closed
  equals : Everywhere (fun front c rest => c = '=' → (SplitState.start.after front).Closed →
    rest.head? = some '>') t

/-- Whether quotes in a type hold neither brackets nor equals signs, and no arrow `->` is within
brackets. -/
def PlainQuotes (t : Text) : Prop :=
  Everywhere (fun front c _ => (SplitState.start.after front).Agrees c) t

instance (t : Text) : Decidable (PlainQuotes t) :=
  inferInstanceAs (Decidable (Everywhere _ _))

theorem TypeText.uncut {t : Text} (type : TypeText t) (plain : PlainQuotes t) : Uncut t := by
  rintro front c rest whole ⟨equals, outermost, noArrow, -⟩
  have agrees : Everywhere (fun front c _ => (SplitState.start.after front).Agrees c) front := by
    rw [whole] at plain
    exact Everywhere.left plain
  have same := SplitState.counting_after agrees
  have unquoted : (SplitState.start.after front).quoting = .outside := by
    by_contra quoted
    exact ((plain front c rest whole).1 quoted).2.2 equals
  have outside : (SplitState.start.after front).Closed :=
    ⟨(congrArg Counting.depth same).symm.trans outermost, unquoted⟩
  rw [List.append_nil] at noArrow
  exact noArrow (type.equals front c rest whole equals outside)

theorem TypeText.balances {t : Text} (type : TypeText t) (plain : PlainQuotes t) : Balances t :=
  (congrArg Counting.depth (SplitState.counting_after plain)).trans type.closed.1

/-- The name of an annotated parameter of a script comes back with its type exactly when no equals
sign of the type is taken for the start of a default and, where a default follows, the brackets of
the type are counted as closed. That is so of every type in which quotes hold nothing that the count
regards. -/
theorem parse_annotated {l : Language} (script : l.isCFamily = false) {n t : Text}
    (name : PlainName n) (nonempty : t ≠ []) (trimmed : t.trim = t) (d : Text) :
    (Parameter.parse l (n ++ ": " ++ t) = ⟨n, some t⟩ ↔ Uncut t) ∧
    (Parameter.parse l (n ++ ": " ++ t ++ " = " ++ d) = ⟨n, some t⟩ ↔ Uncut t ∧ Balances t) ∧
    (TypeText t → PlainQuotes t →
      Parameter.parse l (n ++ ": " ++ t) = ⟨n, some t⟩ ∧
      Parameter.parse l (n ++ ": " ++ t ++ " = " ++ d) = ⟨n, some t⟩) := by
  have alone : Parameter.parse l (n ++ ": " ++ t) = ⟨n, some t⟩ ↔ Uncut t := by
    have written : n ++ ": ".toList ++ t = n ++ ':' :: ' ' :: t := by simp
    rw [written, name.parse_eq_iff script nonempty, trim_withoutDefault_iff trimmed]
  have default : Parameter.parse l (n ++ ": " ++ t ++ " = " ++ d) = ⟨n, some t⟩ ↔
      Uncut t ∧ Balances t := by
    have written : n ++ ": ".toList ++ t ++ " = ".toList ++ d =
        n ++ ':' :: ' ' :: (t ++ ' ' :: '=' :: ' ' :: d) := by simp
    rw [written, name.parse_eq_iff script nonempty,
      trim_withoutDefault_default_iff trimmed nonempty]
  refine ⟨alone, default, fun type plain => ?_⟩
  have uncut := type.uncut plain
  exact ⟨alone.2 uncut, default.2 ⟨uncut, type.balances plain⟩⟩

/-- A function type with a quoted part comes back, with and without a default that has an equals
sign of its own. -/
theorem parse_annotated_callback :
    Parameter.parse .typescript "cb: (a: Map<string, \"x\">) => void" =
        ⟨"cb", some "(a: Map<string, \"x\">) => void"⟩ ∧
      Parameter.parse .typescript "cb: (a: Map<string, \"x\">) => void = f(\"=\")" =
        ⟨"cb", some "(a: Map<string, \"x\">) => void"⟩ := by
  have name : PlainName "cb" := ⟨by decide, List.all_iff_forall_prop.1 (by decide)⟩
  have type : TypeText "(a: Map<string, \"x\">) => void" :=
    ⟨by decide, by decide, by decide, by decide⟩
  exact (parse_annotated (l := .typescript) rfl name type.nonempty type.trimmed "f(\"=\")").2.2 type
    (by decide)

/-- An equals sign within quotes cuts a type short, and a bracket within quotes keeps a default. -/
theorem parse_of_quoted_counting :
    (TypeText "\"a=b\"" ∧ Enclosed false none "\"a=b\"" ∧
      Parameter.parse .typescript "mode: \"a=b\"" = ⟨"mode", some "\"a"⟩) ∧
    TypeText "\"<\"" ∧ Enclosed false none "\"<\"" ∧
      Parameter.parse .typescript "mode: \"<\" = x" = ⟨"mode", some "\"<\" = x"⟩ := by
  refine ⟨⟨⟨by decide, by decide, by decide, by decide⟩, ?_, by decide +kernel⟩,
    ⟨by decide, by decide, by decide, by decide⟩, ?_, by decide +kernel⟩
  · exact .quoted (q := '"') (s := "a=b") (by decide)
      (.char (by decide) (by decide) (.char (by decide) (by decide)
        (.char (by decide) (by decide) .nil))) .nil
  · exact .quoted (q := '"') (s := "<") (by decide) (.char (by decide) (by decide) .nil) .nil

end HarnessSynthesis.Source
