/-
# Words struck out of a text

The word `public` is struck out of a text with the blanks behind it. Here such a text is kept whole,
each character with whether it is struck out, so that what is left can be read beside what was
there. A word is struck out only where it stands by itself and a blank follows, and so nothing that
is left is read otherwise than before: words do not grow together, blanks lead wherever they led,
and `public` is a modifier itself. A type is public in front of a character that is left exactly
when it was public there before.
-/

import HarnessSynthesis.Proofs.Entry.Marks
import HarnessSynthesis.Proofs.Harness.PublicTypes

namespace HarnessSynthesis.Harness.JavaSource

open Source
open Text (isBlank isWordChar)

/-! ## Texts with characters struck out -/

/-- The characters of a text, each with whether it is struck out. -/
abbrev Struck := List (Bool × Char)

namespace Struck

/-- The text with all its characters. -/
def whole (m : Struck) : Text :=
  m.map Prod.snd

/-- The text without what is struck out. -/
def kept (m : Struck) : Text :=
  (m.filter fun x => !x.1).map Prod.snd

/-- A text of which nothing is struck out. -/
def plain (t : Text) : Struck :=
  t.map (false, ·)

/-- A text that is struck out. -/
def struck (t : Text) : Struck :=
  t.map (true, ·)

variable {m n : Struck} {c : Char} {t : Text}

@[simp] theorem whole_nil : whole [] = [] := rfl

@[simp] theorem kept_nil : kept [] = [] := rfl

@[simp] theorem whole_cons (k : Bool) : whole ((k, c) :: m) = c :: whole m := rfl

@[simp] theorem kept_cons_false : kept ((false, c) :: m) = c :: kept m := rfl

@[simp] theorem kept_cons_true : kept ((true, c) :: m) = kept m := rfl

@[simp] theorem whole_append : whole (m ++ n) = whole m ++ whole n :=
  List.map_append

@[simp] theorem kept_append : kept (m ++ n) = kept m ++ kept n := by
  rw [kept, List.filter_append, List.map_append, kept, kept]

@[simp] theorem whole_plain : whole (plain t) = t := by
  rw [whole, plain, List.map_map]
  exact List.map_id t

@[simp] theorem whole_struck : whole (struck t) = t := by
  rw [whole, struck, List.map_map]
  exact List.map_id t

@[simp] theorem kept_plain : kept (plain t) = t := by
  induction t with
  | nil => rfl
  | cons c t ih => exact congrArg (c :: ·) ih

@[simp] theorem kept_struck : kept (struck t) = [] := by
  induction t with
  | nil => rfl
  | cons c t ih => exact ih

/-- A place of the whole text. -/
theorem exists_of_whole_eq {front rest : Text} (split : whole m = front ++ c :: rest) :
    ∃ m₁ k m₂, m = m₁ ++ (k, c) :: m₂ ∧ whole m₁ = front ∧ whole m₂ = rest := by
  obtain ⟨m₁, more, rfl, left, right⟩ := List.map_eq_append_iff.1 split
  obtain ⟨⟨k, d⟩, m₂, rfl, rfl, behind⟩ := List.map_eq_cons_iff.1 right
  exact ⟨m₁, k, m₂, rfl, left, behind⟩

/-- A place of what is left. -/
theorem exists_of_kept_eq {front rest : Text} (split : kept m = front ++ c :: rest) :
    ∃ m₁ m₂, m = m₁ ++ (false, c) :: m₂ ∧ kept m₁ = front ∧ kept m₂ = rest := by
  induction m generalizing front with
  | nil => exact absurd split.symm (by simp)
  | cons x m ih =>
    obtain ⟨k, d⟩ := x
    cases k with
    | true =>
      obtain ⟨m₁, m₂, rfl, left, right⟩ := ih split
      exact ⟨(true, d) :: m₁, m₂, rfl, left, right⟩
    | false =>
      rw [kept_cons_false] at split
      cases front with
      | nil =>
        obtain ⟨rfl, right⟩ := List.cons.inj split
        exact ⟨[], m, rfl, rfl, right⟩
      | cons e front =>
        obtain ⟨rfl, later⟩ := List.cons.inj split
        obtain ⟨m₁, m₂, rfl, left, right⟩ := ih later
        exact ⟨(false, d) :: m₁, m₂, rfl, by rw [kept_cons_false, left], right⟩

/-- A place of a text that is kept or struck out as a whole. -/
theorem of_map_eq {k k' : Bool} {m₁ m₂ : Struck} (split : t.map (k, ·) = m₁ ++ (k', c) :: m₂) :
    k' = k ∧ t = whole m₁ ++ c :: whole m₂ := by
  have mem : (k', c) ∈ t.map (k, ·) := split ▸ List.mem_append_right m₁ List.mem_cons_self
  obtain ⟨_, -, same⟩ := List.mem_map.1 mem
  have text := congrArg whole split
  rw [whole_append, whole_cons, whole, List.map_map] at text
  exact ⟨(congrArg Prod.fst same).symm, (List.map_id t).symm.trans text⟩

/-- A character that is left does not stand within struck ones. -/
theorem exists_of_struck_append {word : Text} {m₁ m₂ : Struck}
    (split : struck word ++ m = m₁ ++ (false, c) :: m₂) :
    ∃ m₁', m₁ = struck word ++ m₁' ∧ m = m₁' ++ (false, c) :: m₂ := by
  induction word generalizing m₁ with
  | nil => exact ⟨m₁, rfl, split⟩
  | cons d word ih =>
    cases m₁ with
    | nil => exact absurd (List.cons.inj split).1 (by simp)
    | cons x m₁ =>
      obtain ⟨rfl, later⟩ := List.cons.inj split
      obtain ⟨m₁', rfl, right⟩ := ih later
      exact ⟨m₁', rfl, right⟩

end Struck

open Struck

/-! ## Where a word may be struck out -/

/-- Whether what follows a character does not belong to it: the character is of no word and escapes
nothing. -/
structure Loose (previous : Option Char) : Prop where
  begins : wordMayBegin previous = true
  noEscape : previous ≠ some '\\'

/-- A text of which nothing is struck out but `public` in front of blanks, and blanks, each time
behind a loose character that is left. The two characters are those in front of the whole text and
of what is left. -/
inductive Demoted : (before left : Option Char) → Struck → Prop
  | nil {before left : Option Char} : Demoted before left []
  | keep {before left : Option Char} {c : Char} {m : Struck}
      (rest : Demoted (some c) (some c) m) : Demoted before left ((false, c) :: m)
  | blank {before left : Option Char} {c : Char} {m : Struck} (loose : Loose left)
      (blank : isInlineBlank c = true) (rest : Demoted (some c) left m) :
      Demoted before left ((true, c) :: m)
  | word {before left : Option Char} {m : Struck} (loose : Loose left)
      (apart : StartsBlank (whole m)) (rest : Demoted (some 'c') left m) :
      Demoted before left (struck "public" ++ m)

theorem isBlank_of_isInlineBlank {c : Char} (blank : isInlineBlank c = true) :
    isBlank c = true := by
  rw [isInlineBlank, Bool.or_eq_true, beq_iff_eq, beq_iff_eq] at blank
  rcases blank with rfl | rfl <;> decide

namespace Demoted

variable {before left : Option Char} {m m₁ m₂ : Struck} {c : Char}

theorem plain_append {t : Text} (rest : Demoted (t.getLast?.or before) (t.getLast?.or left) m) :
    Demoted before left (plain t ++ m) := by
  induction t generalizing before left with
  | nil => exact rest
  | cons c t ih =>
    refine .keep (ih ?_)
    rw [List.getLast?_cons] at rest
    cases last : t.getLast? <;> simpa [last] using rest

theorem struck_append {gap : Text} (loose : Loose left)
    (blank : ∀ c ∈ gap, isInlineBlank c = true) (rest : Demoted (gap.getLast?.or before) left m) :
    Demoted before left (struck gap ++ m) := by
  induction gap generalizing before with
  | nil => exact rest
  | cons c gap ih =>
    obtain ⟨first, others⟩ := List.forall_mem_cons.1 blank
    refine .blank loose first (ih others ?_)
    rw [List.getLast?_cons] at rest
    cases last : gap.getLast? <;> simpa [last] using rest

/-! ## Words that are left -/

theorem not_loose_of_isWordChar (wordChar : isWordChar c = true) : ¬ Loose (some c) := by
  intro loose
  have begins := loose.begins
  simp [wordMayBegin, wordChar] at begins

/-- Behind a character of a word that is left the word goes on, and what ends it is left as well. -/
theorem exists_of_wordChar (demoted : Demoted (some c) (some c) m)
    (wordChar : isWordChar c = true) :
    ∃ word n, m = plain word ++ n ∧ (∀ d ∈ word, isWordChar d = true) ∧
      wordMayEnd (whole n) = true ∧ (whole n).head? = (kept n).head? ∧
      ∃ before left, Demoted before left n := by
  induction m generalizing c with
  | nil => exact ⟨[], [], rfl, nofun, rfl, rfl, _, _, demoted⟩
  | cons x m ih =>
    generalize same : x :: m = m' at demoted
    cases demoted with
    | nil => cases same
    | @keep _ _ d m' rest =>
      obtain ⟨rfl, rfl⟩ := List.cons.inj same
      by_cases goesOn : isWordChar d = true
      · obtain ⟨word, n, rfl, all, ends, head, demoted⟩ := ih rest goesOn
        exact ⟨d :: word, n, rfl, List.forall_mem_cons.2 ⟨goesOn, all⟩, ends, head, demoted⟩
      · refine ⟨[], (false, d) :: m, rfl, nofun, ?_, rfl, none, none, .keep rest⟩
        simpa [wordMayEnd] using goesOn
    | blank loose => exact absurd loose (not_loose_of_isWordChar wordChar)
    | word loose => exact absurd loose (not_loose_of_isWordChar wordChar)

/-- A word that is left stands between characters that are left. -/
theorem exists_word (demoted : Demoted before left ((false, c) :: m))
    (wordChar : isWordChar c = true) :
    ∃ word n, (false, c) :: m = plain word ++ n ∧ IsWord word ∧ wordMayEnd (whole n) = true ∧
      (whole n).head? = (kept n).head? ∧ n.length ≤ m.length ∧
      ∃ before left, Demoted before left n := by
  cases demoted with
  | keep rest =>
    obtain ⟨word, n, rfl, all, ends, head, demoted⟩ := exists_of_wordChar rest wordChar
    refine ⟨c :: word, n, rfl, ⟨List.cons_ne_nil c word, List.forall_mem_cons.2 ⟨wordChar, all⟩⟩,
      ends, head, ?_, demoted⟩
    rw [List.length_append]
    exact Nat.le_add_left _ _

theorem startsBlank_congr {s t : Text} (same : s.head? = t.head?) :
    StartsBlank s ↔ StartsBlank t := by
  rw [StartsBlank, StartsBlank, same]

theorem wordMayEnd_congr {s t : Text} (same : s.head? = t.head?) : wordMayEnd s = wordMayEnd t := by
  rw [wordMayEnd, wordMayEnd, same]

/-- A word in front of more is `public` in front of a type, or none is. -/
theorem exists_public_iff {modifiers : List Text} {word t : Text} (isWord : IsWord word)
    (ends : wordMayEnd t = true) :
    (∃ behind, word ++ t = "public" ++ behind ∧ StartsBlank behind ∧ LeadsToType modifiers behind) ↔
      word = "public" ∧ StartsBlank t ∧ LeadsToType modifiers t := by
  constructor
  · rintro ⟨behind, whole, starts, leads⟩
    have isWord' : IsWord "public" := by decide
    obtain ⟨rfl, rfl⟩ := word_append_inj isWord.plain isWord'.plain ends starts.ends whole
    exact ⟨rfl, starts, leads⟩
  · rintro ⟨rfl, starts, leads⟩
    exact ⟨t, rfl, starts, leads⟩

section Leads

variable {modifiers : List Text} (words : ∀ w ∈ modifiers, IsWord w)
  (isPublic : "public".toList ∈ modifiers)

include words isPublic

/-- What is left leads to a type when the whole text does. By induction on the length of the text,
a blank or a word at a time. -/
theorem leadsToType_iff (demoted : Demoted before left m) :
    LeadsToType modifiers (whole m) ↔ LeadsToType modifiers (kept m) := by
  induction size : m.length using Nat.strong_induction_on generalizing before left m with
  | _ n ih =>
    cases demoted with
    | nil => rfl
    | @keep _ _ c m rest =>
      have shorter : m.length < n := by rw [← size]; exact Nat.lt_succ_self _
      by_cases blank : isBlank c = true
      · rw [whole_cons, kept_cons_false, leadsToType_blank_iff words blank,
          leadsToType_blank_iff words blank]
        exact ih m.length shorter rest rfl
      by_cases wordChar : isWordChar c = true
      · have goesOn : Demoted none none ((false, c) :: m) := .keep rest
        obtain ⟨word, n, split, isWord, ends, head, fewer, _, _, demoted⟩ :=
          goesOn.exists_word wordChar
        have later := ih n.length (Nat.lt_of_le_of_lt fewer shorter) demoted rfl
        rw [split, whole_append, kept_append, whole_plain, kept_plain,
          leadsToType_word_iff words isWord ends,
          leadsToType_word_iff words isWord (wordMayEnd_congr head ▸ ends), later,
          startsBlank_congr head]
      · have nothing (t : Text) : ¬ LeadsToType modifiers (c :: t) := fun leads => by
          rcases leads.cases_cons words with ⟨found, -⟩ | ⟨-, found⟩
          · exact blank found
          · exact wordChar found
        exact iff_of_false (nothing _) (nothing _)
    | @blank _ _ c m loose blank rest =>
      have shorter : m.length < n := by rw [← size]; exact Nat.lt_succ_self _
      rw [whole_cons, kept_cons_true, leadsToType_blank_iff words (isBlank_of_isInlineBlank blank)]
      exact ih m.length shorter rest rfl
    | @word _ _ m loose apart rest =>
      have shorter : m.length < n := by
        rw [← size, List.length_append]
        exact Nat.lt_add_of_pos_left (by decide)
      have noKeyword : "public".toList ∉ typeWords := by decide
      rw [whole_append, kept_append, whole_struck, kept_struck, List.nil_append,
        leadsToType_word_iff words (by decide) apart.ends, or_iff_right noKeyword,
        and_iff_right isPublic, and_iff_right apart]
      exact ih m.length shorter rest rfl

/-- A type is public in front of what is left when it is public in front of the whole text. -/
theorem exists_leads_iff (demoted : Demoted before left ((false, c) :: m)) :
    (∃ behind, c :: whole m = "public" ++ behind ∧ StartsBlank behind ∧
        LeadsToType modifiers behind) ↔
      ∃ behind, c :: kept m = "public" ++ behind ∧ StartsBlank behind ∧
        LeadsToType modifiers behind := by
  by_cases wordChar : isWordChar c = true
  · obtain ⟨word, n, split, isWord, ends, head, -, _, _, rest⟩ := exists_word demoted wordChar
    have inWhole := congrArg whole split
    have inKept := congrArg kept split
    rw [whole_cons, whole_append, whole_plain] at inWhole
    rw [kept_cons_false, kept_append, kept_plain] at inKept
    rw [inWhole, inKept, exists_public_iff isWord ends,
      exists_public_iff isWord (wordMayEnd_congr head ▸ ends),
      leadsToType_iff words isPublic rest, startsBlank_congr head]
  · have other : c ≠ 'p' := by
      rintro rfl
      exact wordChar (by decide)
    constructor
    · rintro ⟨behind, split, -⟩
      exact absurd (List.cons.inj split).1 other
    · rintro ⟨behind, split, -⟩
      exact absurd (List.cons.inj split).1 other

end Leads

/-! ## Places -/

/-- Whether a word begins in the whole text and in what is left alike, unless a blank follows. -/
def Alike (before left : Option Char) (t : Text) : Prop :=
  wordMayBegin before = wordMayBegin left ∨ StartsBlank t

theorem wordMayBegin_of_isInlineBlank (blank : isInlineBlank c = true) :
    wordMayBegin (some c) = true := by
  simp [wordMayBegin, Text.isWordChar_of_isBlank (isBlank_of_isInlineBlank blank)]

theorem getLast?_cons_or (t : Text) (before : Option Char) :
    t.getLast?.or (some c) = (c :: t).getLast?.or before := by
  rw [List.getLast?_cons]
  cases t.getLast? <;> rfl

/-- In front of a character that is left a text is struck out as it may be. -/
theorem exists_of_append (demoted : Demoted before left (m₁ ++ (false, c) :: m₂))
    (alike : Alike before left (whole (m₁ ++ (false, c) :: m₂))) :
    Demoted ((whole m₁).getLast?.or before) ((kept m₁).getLast?.or left) ((false, c) :: m₂) ∧
      Alike ((whole m₁).getLast?.or before) ((kept m₁).getLast?.or left) (c :: whole m₂) := by
  generalize split : m₁ ++ (false, c) :: m₂ = m at demoted alike
  induction demoted generalizing m₁ with
  | nil => exact absurd split (by simp)
  | @keep before left d m rest ih =>
    cases m₁ with
    | nil =>
      obtain ⟨same, rfl⟩ := List.cons.inj split
      obtain rfl : c = d := congrArg Prod.snd same
      exact ⟨.keep rest, alike⟩
    | cons x m₁ =>
      obtain ⟨rfl, behind⟩ := List.cons.inj split
      have later := ih behind (Or.inl rfl)
      rwa [getLast?_cons_or _ before, getLast?_cons_or _ left] at later
  | @blank before left d m loose blank rest ih =>
    cases m₁ with
    | nil => exact absurd (List.cons.inj split).1 (by simp)
    | cons x m₁ =>
      obtain ⟨rfl, behind⟩ := List.cons.inj split
      have begins := (wordMayBegin_of_isInlineBlank blank).trans loose.begins.symm
      have later := ih behind (Or.inl begins)
      rwa [getLast?_cons_or _ before] at later
  | @word before left m loose apart rest ih =>
    obtain ⟨m₁, rfl, behind⟩ := exists_of_struck_append split.symm
    have later := ih behind.symm (Or.inr apart)
    rw [whole_append, kept_append, whole_struck, kept_struck, List.nil_append]
    have last : ("public".toList ++ whole m₁).getLast?.or before =
        (whole m₁).getLast?.or (some 'c') := by
      rw [List.getLast?_append]
      cases (whole m₁).getLast? <;> rfl
    rw [last]
    exact later

/-! ## Depth -/

open TypedSource (Marked)
open TypedSource.Marked (Braceless Quotes braceDepthFrom_braceless_append resumed)

/-- What a character does to the depth of braces and to the quotes that are open. -/
theorem exists_braceDepthFrom_cons (depth : Nat) {quoting : Quoting} (quotes : Quotes quoting)
    (d : Char) :
    ∃ depth' quoting',
      (∀ t, braceDepthFrom depth quoting (d :: t) = braceDepthFrom depth' quoting' t) ∧
      Quotes quoting' ∧ ∀ q, quoting' = .escaped q → d = '\\' := by
  have inside (q p : Char) (same : Quoting.inside q = .escaped p) : d = '\\' := by cases same
  have outside (p : Char) (same : Quoting.outside = .escaped p) : d = '\\' := by cases same
  cases quoting with
  | escaped q => exact ⟨depth, .inside q, fun t => rfl, quotes, inside q⟩
  | inside q =>
    by_cases escapes : d = '\\'
    · exact ⟨depth, .escaped q, fun t => by rw [braceDepthFrom, if_pos escapes], quotes,
        fun _ _ => escapes⟩
    by_cases ends : d = q ∨ d = '\n'
    · exact ⟨depth, .outside, fun t => by rw [braceDepthFrom, if_neg escapes, if_pos ends], trivial,
        outside⟩
    · exact ⟨depth, .inside q, fun t => by rw [braceDepthFrom, if_neg escapes, if_neg ends], quotes,
        inside q⟩
  | outside =>
    by_cases opens : d = '"' ∨ d = '\''
    · exact ⟨depth, .inside d, fun t => by rw [braceDepthFrom, if_pos opens], opens, inside d⟩
    refine ⟨if d = '{' then depth + 1 else if d = '}' then depth - 1 else depth, .outside,
      fun t => ?_, trivial, outside⟩
    rw [braceDepthFrom, if_neg opens]
    repeat' split
    all_goals rfl

/-- Where nothing is escaped, struck words and blanks open and close nothing. -/
theorem braceDepthFrom_struck (loose : Loose left) {quoting : Quoting} (quotes : Quotes quoting)
    (unescaped : ∀ q, quoting = .escaped q → left = some '\\') {w : Text} (nonempty : w ≠ [])
    (idle : ∀ d ∈ w, Braceless d) (depth : Nat) (t : Text) :
    braceDepthFrom depth quoting (w ++ t) = braceDepthFrom depth quoting t := by
  have same : resumed quoting = quoting := by
    cases quoting with
    | escaped q => exact absurd (unescaped q rfl) loose.noEscape
    | _ => rfl
  rw [braceDepthFrom_braceless_append idle quotes nonempty, same]

/-- As many braces are open in front of a character in what is left as in the whole text. -/
theorem braceDepthFrom_whole (demoted : Demoted before left (m₁ ++ (false, c) :: m₂)) (depth : Nat)
    {quoting : Quoting} (quotes : Quotes quoting)
    (unescaped : ∀ q, quoting = .escaped q → left = some '\\') :
    braceDepthFrom depth quoting (whole m₁) = braceDepthFrom depth quoting (kept m₁) := by
  generalize split : m₁ ++ (false, c) :: m₂ = m at demoted
  induction demoted generalizing m₁ depth quoting with
  | nil => exact absurd split (by simp)
  | @keep before left d m rest ih =>
    cases m₁ with
    | nil => rfl
    | cons x m₁ =>
      obtain ⟨rfl, behind⟩ := List.cons.inj split
      obtain ⟨depth', quoting', step, quotes', escapes⟩ := exists_braceDepthFrom_cons depth quotes d
      rw [whole_cons, kept_cons_false, step, step]
      exact ih depth' quotes' (fun q escaped => congrArg some (escapes q escaped)) behind
  | @blank before left d m loose blank rest ih =>
    cases m₁ with
    | nil => exact absurd (List.cons.inj split).1 (by simp)
    | cons x m₁ =>
      obtain ⟨rfl, behind⟩ := List.cons.inj split
      have idle : ∀ e ∈ [d], Braceless e := by
        rw [List.forall_mem_singleton]
        rw [isInlineBlank, Bool.or_eq_true, beq_iff_eq, beq_iff_eq] at blank
        rcases blank with rfl | rfl <;> decide
      rw [whole_cons, kept_cons_true, ← List.singleton_append,
        braceDepthFrom_struck loose quotes unescaped (List.cons_ne_nil d []) idle]
      exact ih depth quotes unescaped behind
  | @word before left m loose apart rest ih =>
    obtain ⟨m₁, rfl, behind⟩ := exists_of_struck_append split.symm
    have idle : ∀ e ∈ "public".toList, Braceless e := List.all_iff_forall_prop.1 (by decide)
    rw [whole_append, kept_append, whole_struck, kept_struck, List.nil_append,
      braceDepthFrom_struck loose quotes unescaped (by decide) idle]
    exact ih depth quotes unescaped behind.symm

/-- A type is public and outermost behind a part of what is left exactly when it is so behind that
part of the whole text. -/
theorem outermostPublic_iff {modifiers : List Text} (words : ∀ w ∈ modifiers, IsWord w)
    (isPublic : "public".toList ∈ modifiers)
    (demoted : Demoted none none (m₁ ++ (false, c) :: m₂)) :
    OutermostPublic modifiers (whole (m₁ ++ (false, c) :: m₂)) (whole m₁) (c :: whole m₂) ↔
      OutermostPublic modifiers (kept (m₁ ++ (false, c) :: m₂)) (kept m₁) (c :: kept m₂) := by
  have depth : braceDepth (whole m₁) = braceDepth (kept m₁) :=
    demoted.braceDepthFrom_whole 0 trivial nofun
  obtain ⟨rest, alike⟩ := demoted.exists_of_append (Or.inl rfl)
  rw [Option.or_none, Option.or_none] at rest alike
  have leads := rest.exists_leads_iff words isPublic
  have begins (type : ∃ behind, c :: whole m₂ = "public" ++ behind ∧ StartsBlank behind ∧
      LeadsToType modifiers behind) :
      wordMayBegin (whole m₁).getLast? = wordMayBegin (kept m₁).getLast? := by
    refine alike.resolve_right ?_
    rintro ⟨d, head, blank⟩
    obtain ⟨behind, split, -⟩ := type
    rw [split] at head
    obtain rfl : 'p' = d := Option.some.inj head
    exact absurd blank (by decide)
  constructor
  · rintro ⟨-, outermost, mayBegin, type⟩
    refine ⟨by rw [kept_append, kept_cons_false], depth ▸ outermost, ?_, leads.1 type⟩
    rwa [← begins type]
  · rintro ⟨-, outermost, mayBegin, type⟩
    refine ⟨by rw [whole_append, whole_cons], depth.trans outermost, ?_, leads.2 type⟩
    rwa [begins (leads.2 type)]

end Demoted

end HarnessSynthesis.Harness.JavaSource
