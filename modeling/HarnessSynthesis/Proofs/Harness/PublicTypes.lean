/-
# Public types

A type is public when `public` stands in front of it with nothing but modifiers between. Which words
may stand there is left open here: the search for public types has a list of its own, and the
headers of methods are read with a longer one. What leads to a type is read word by word, and a word
ends where its characters do, so the search finds all places of this kind. It does not skip any
either, because nothing that a hit takes has the first letter of `public` in it once more.
-/

import Mathlib.Data.Option.Basic
import HarnessSynthesis.Harness.JavaSource
import HarnessSynthesis.Proofs.Entry.LackingStatic
import HarnessSynthesis.Proofs.Source.TypeHead
import HarnessSynthesis.Proofs.Text.Words

namespace HarnessSynthesis

/-! ## Scanners that start at a mark -/

namespace Source

variable {α : Type} {scan : Scanner α} {mark : Char}

/-- Whether all that a scanner takes starts with a mark and has it nowhere else. -/
def Scanner.StartsAt (mark : Char) (scan : Scanner α) : Prop :=
  ∀ {previous : Option Char} {t behind : Text} {found : α},
    scan previous t = some (found, behind) → ∃ taken, t = mark :: (taken ++ behind) ∧ mark ∉ taken

theorem Scanner.StartsAt.takes (starts : scan.StartsAt mark) : scan.Takes := by
  intro previous t behind found h
  obtain ⟨taken, rfl, -⟩ := starts h
  exact (List.suffix_append taken behind).trans (List.suffix_cons mark _)

/-- A hit takes no other place at which the scanner reads something, so none of them is passed over.
By induction on the text in front of the place. -/
theorem Scanner.StartsAt.exists_mem_occurrencesFrom (starts : scan.StartsAt mark)
    {passed front rest : Text} (read : (scan (front.reverse ++ passed).head? rest).isSome = true) :
    ∃ hit ∈ occurrencesFrom scan passed (front ++ rest), hit.before = passed.reverse ++ front := by
  obtain ⟨⟨found, behind⟩, found?⟩ := Option.isSome_iff_exists.1 read
  clear read
  obtain ⟨taken, rfl, -⟩ := starts found?
  induction size : front.length using Nat.strong_induction_on generalizing passed front with
  | _ n ih =>
    cases front with
    | nil =>
      rw [List.reverse_nil, List.nil_append] at found?
      rw [List.nil_append, ← List.cons_append,
        occurrencesFrom_append_of_some (List.cons_ne_nil mark taken) found?]
      exact ⟨_, List.mem_cons_self, (List.append_nil _).symm⟩
    | cons c front =>
      rw [List.reverse_cons, List.append_assoc, List.singleton_append] at found?
      cases first : scan passed.head? (c :: (front ++ mark :: (taken ++ behind))) with
      | none =>
        obtain ⟨hit, mem, before⟩ := ih front.length (by rw [← size]; exact Nat.lt_succ_self _)
          found? rfl
        rw [List.cons_append, occurrencesFrom_cons_of_none first]
        refine ⟨hit, mem, ?_⟩
        rw [before, List.reverse_cons, List.append_assoc, List.singleton_append]
      | some hit =>
        obtain ⟨found', behind'⟩ := hit
        obtain ⟨taken', whole, absent⟩ := starts first
        obtain ⟨rfl, whole⟩ := List.cons.inj whole
        obtain ⟨more, rfl, rfl⟩ := (Text.append_eq_append_cons whole.symm).resolve_left <| by
          rintro ⟨more, rfl, -⟩
          exact absent (List.mem_append_right front List.mem_cons_self)
        have split : c :: (taken' ++ more ++ c :: (taken ++ behind)) =
            (c :: taken') ++ (more ++ c :: (taken ++ behind)) := by
          rw [List.append_assoc, List.cons_append]
        rw [split] at first
        have shorter : more.length < n := by
          rw [← size, List.length_cons, List.length_append]
          omega
        have shown : ((more.reverse ++ ((c :: taken').reverse ++ passed)).head?) =
            ((taken' ++ more).reverse ++ c :: passed).head? := by
          simp
        rw [← shown] at found?
        obtain ⟨hit, mem, before⟩ := ih more.length shorter found? rfl
        rw [List.cons_append, split,
          occurrencesFrom_append_of_some (List.cons_ne_nil c taken') first]
        refine ⟨hit, List.mem_cons_of_mem _ mem, ?_⟩
        rw [before]
        simp

/-- The hits are the places at which the scanner reads something. -/
theorem Scanner.StartsAt.exists_mem_occurrences_iff (starts : scan.StartsAt mark)
    {t front rest : Text} (whole : t = front ++ rest) :
    (∃ hit ∈ occurrences scan t, hit.before = front) ↔
      (scan front.getLast? rest).isSome = true := by
  subst whole
  constructor
  · rintro ⟨hit, mem, rfl⟩
    obtain ⟨rest', behind, same, read⟩ := exists_of_mem_occurrences starts.takes mem
    obtain rfl := List.append_cancel_left same
    rw [read]
    rfl
  · intro read
    rw [← List.head?_reverse, ← List.append_nil front.reverse] at read
    exact starts.exists_mem_occurrencesFrom read

end Source

namespace Harness.JavaSource

open Source
open Text (Blank isBlank isWordChar)

/-! ## Words in front of a type -/

/-- The keywords of types. -/
def typeWords : List Text := ["class", "interface", "enum", "record"]

/-- Whether a text starts with a blank. -/
def StartsBlank (t : Text) : Prop :=
  ∃ c ∈ t.head?, isBlank c = true

/-- Whether a text starts with the keyword of a type behind blanks and modifiers, each with a blank
behind it. -/
inductive LeadsToType (modifiers : List Text) : Text → Prop
  | blank {c : Char} {t : Text} (blank : isBlank c = true) (rest : LeadsToType modifiers t) :
      LeadsToType modifiers (c :: t)
  | keyword {word behind : Text} (known : word ∈ typeWords)
      (ends : wordMayEnd behind = true) : LeadsToType modifiers (word ++ behind)
  | modifier {word t : Text} (known : word ∈ modifiers) (apart : StartsBlank t)
      (rest : LeadsToType modifiers t) : LeadsToType modifiers (word ++ t)

/-- A public type outside of all braces, behind the first part of a text. -/
structure OutermostPublic (modifiers : List Text) (t front rest : Text) : Prop where
  whole : t = front ++ rest
  outermost : braceDepth front = 0
  begins : wordMayBegin front.getLast? = true
  leads : ∃ behind, rest = "public" ++ behind ∧ StartsBlank behind ∧ LeadsToType modifiers behind

theorem OutermostPublic.exists_cons {modifiers : List Text} {t front rest : Text}
    (type : OutermostPublic modifiers t front rest) : ∃ behind, rest = 'p' :: behind :=
  type.leads.elim fun behind found => ⟨"ublic" ++ behind, found.1⟩

/-! ## Reading word by word -/

/-- Whether a text is a word. -/
structure IsWord (word : Text) : Prop where
  nonempty : word ≠ []
  plain : ∀ c ∈ word, isWordChar c = true

instance (word : Text) : Decidable (IsWord word) :=
  have := List.decidableBAll (fun c => isWordChar c = true) word
  decidable_of_iff (word ≠ [] ∧ ∀ c ∈ word, isWordChar c = true)
    ⟨fun ⟨nonempty, plain⟩ => ⟨nonempty, plain⟩, fun ⟨nonempty, plain⟩ => ⟨nonempty, plain⟩⟩

theorem wordMayEnd_iff {t : Text} : wordMayEnd t = true ↔ ∀ c ∈ t.head?, isWordChar c = false := by
  cases t with
  | nil => simp [wordMayEnd]
  | cons c t => simp [wordMayEnd]

theorem StartsBlank.ends {t : Text} (apart : StartsBlank t) : wordMayEnd t = true := by
  obtain ⟨c, found, blank⟩ := apart
  rw [wordMayEnd_iff]
  intro d head
  obtain rfl : c = d := Option.mem_unique found head
  exact Text.isWordChar_of_isBlank blank

/-- A word ends where its characters do. -/
theorem word_append_inj {word word' t t' : Text} (plain : ∀ c ∈ word, isWordChar c = true)
    (plain' : ∀ c ∈ word', isWordChar c = true) (ends : wordMayEnd t = true)
    (ends' : wordMayEnd t' = true) (same : word ++ t = word' ++ t') : word = word' ∧ t = t' := by
  have run := Text.takeWhile_dropWhile_append plain (wordMayEnd_iff.1 ends)
  have run' := Text.takeWhile_dropWhile_append plain' (wordMayEnd_iff.1 ends')
  exact ⟨run.1.symm.trans ((congrArg _ same).trans run'.1),
    run.2.symm.trans ((congrArg _ same).trans run'.2)⟩

section Leads

variable {modifiers : List Text} {t : Text}

theorem isWord_of_mem_typeWords {word : Text} (known : word ∈ typeWords) : IsWord word := by
  have all : ∀ w ∈ typeWords, IsWord w := by decide
  exact all word known

/-- A word starts with no blank. -/
theorem IsWord.append_ne_cons {word : Text} (isWord : IsWord word) {c : Char}
    (other : isWordChar c = false) (s : Text) : word ++ s ≠ c :: t := by
  obtain ⟨d, word, rfl⟩ := List.exists_cons_of_ne_nil isWord.nonempty
  intro same
  have first := isWord.plain d List.mem_cons_self
  rw [(List.cons.inj same).1, other] at first
  cases first

/-- What leads to a type starts with a blank or with a word. -/
theorem LeadsToType.cases_cons (words : ∀ w ∈ modifiers, IsWord w) {c : Char}
    (leads : LeadsToType modifiers (c :: t)) :
    isBlank c = true ∧ LeadsToType modifiers t ∨ isBlank c = false ∧ isWordChar c = true := by
  have visible {word s : Text} (isWord : IsWord word) (same : word ++ s = c :: t) :
      isBlank c = false ∧ isWordChar c = true := by
    have first : isWordChar c = true := by
      by_contra other
      exact isWord.append_ne_cons (Bool.eq_false_iff.2 other) s same
    refine ⟨Bool.eq_false_iff.2 fun blank => ?_, first⟩
    rw [Text.isWordChar_of_isBlank blank] at first
    cases first
  generalize whole : c :: t = s at leads
  cases leads with
  | blank blank rest =>
    obtain ⟨rfl, rfl⟩ := List.cons.inj whole
    exact Or.inl ⟨blank, rest⟩
  | keyword known _ => exact Or.inr (visible (isWord_of_mem_typeWords known) whole.symm)
  | modifier known _ _ => exact Or.inr (visible (words _ known) whole.symm)

theorem leadsToType_blank_iff (words : ∀ w ∈ modifiers, IsWord w) {c : Char}
    (blank : isBlank c = true) : LeadsToType modifiers (c :: t) ↔ LeadsToType modifiers t := by
  refine ⟨fun leads => ?_, .blank blank⟩
  rcases leads.cases_cons words with ⟨-, rest⟩ | ⟨visible, -⟩
  · exact rest
  · rw [blank] at visible
    cases visible

theorem leadsToType_append_blank_iff (words : ∀ w ∈ modifiers, IsWord w) {gap : Text}
    (blank : Blank gap) : LeadsToType modifiers (gap ++ t) ↔ LeadsToType modifiers t := by
  induction gap with
  | nil => rfl
  | cons c gap ih =>
    obtain ⟨first, others⟩ := Text.blank_cons.1 blank
    rw [List.cons_append, leadsToType_blank_iff words first, ih others]

/-- A word that leads to a type is its keyword, or a modifier in front of more that does. -/
theorem leadsToType_word_iff (words : ∀ w ∈ modifiers, IsWord w) {word : Text}
    (isWord : IsWord word) (ends : wordMayEnd t = true) :
    LeadsToType modifiers (word ++ t) ↔
      word ∈ typeWords ∨ word ∈ modifiers ∧ StartsBlank t ∧ LeadsToType modifiers t := by
  constructor
  · intro leads
    generalize whole : word ++ t = s at leads
    cases leads with
    | blank blank rest =>
      exact absurd whole (isWord.append_ne_cons (Text.isWordChar_of_isBlank blank) t)
    | keyword known ends' =>
      have plain := (isWord_of_mem_typeWords known).plain
      obtain ⟨rfl, -⟩ := word_append_inj isWord.plain plain ends ends' whole
      exact Or.inl known
    | modifier known apart rest =>
      obtain ⟨rfl, rfl⟩ :=
        word_append_inj isWord.plain (words _ known).plain ends apart.ends whole
      exact Or.inr ⟨known, apart, rest⟩
  · rintro (known | ⟨known, apart, rest⟩)
    · exact .keyword known ends
    · exact .modifier known apart rest

end Leads

/-! ## The search for public types -/

theorem not_mem_of_blank {gap : Text} (blank : Blank gap) : 'p' ∉ gap :=
  fun mem => absurd (blank 'p' mem) (by decide)

theorem words_publicTypeModifiers : ∀ w ∈ publicTypeModifiers, IsWord w := by
  decide

/-- Whether the keyword of a type is read at the head of a text. -/
def ReadsKeyword (t : Text) : Prop :=
  ∃ word behind, anyOf? typeWords t = some (word, behind) ∧ wordMayEnd behind = true

theorem readsKeyword_iff {t : Text} :
    ReadsKeyword t ↔ ∃ word ∈ typeWords, ∃ behind, t = word ++ behind ∧
      wordMayEnd behind = true := by
  have apart : ∀ v ∈ typeWords, ∀ w ∈ typeWords, v <+: w → v = w := by decide
  constructor
  · rintro ⟨word, behind, read, ends⟩
    obtain ⟨known, rfl⟩ := eq_append_of_anyOf? read
    exact ⟨word, known, behind, rfl, ends⟩
  · rintro ⟨word, known, behind, rfl, ends⟩
    exact ⟨word, behind, anyOf?_append apart known behind, ends⟩

theorem not_startsBlank_trimStart (t : Text) : ¬ StartsBlank t.trimStart := by
  rintro ⟨c, found, blank⟩
  have stops := List.head?_dropWhile_not isBlank t
  rw [← Text.trimStart, Option.mem_def.1 found] at stops
  exact Bool.false_ne_true (stops.symm.trans blank)

theorem blanks?_eq_some_iff {t rest : Text} :
    blanks? t = some rest ↔ StartsBlank t ∧ rest = t.trimStart := by
  cases t with
  | nil => exact iff_of_false (fun read => by cases read) fun h => by simp [StartsBlank] at h
  | cons c t =>
    have starts : StartsBlank (c :: t) ↔ isBlank c = true := by simp [StartsBlank]
    rw [blanks?, starts]
    by_cases blank : isBlank c = true
    · rw [if_pos blank, Text.trimStart, Text.trimStart, List.dropWhile_cons_of_pos blank,
        and_iff_right blank, Option.some_inj, eq_comm]
    · rw [if_neg blank]
      exact iff_of_false (fun read => by cases read) fun h => blank h.1

theorem leadsToType_trimStart_iff {modifiers : List Text} (words : ∀ w ∈ modifiers, IsWord w)
    (t : Text) : LeadsToType modifiers t.trimStart ↔ LeadsToType modifiers t := by
  conv_rhs => rw [← Text.takeWhile_append_trimStart t]
  exact (leadsToType_append_blank_iff words (Text.blank_takeWhile t)).symm

/-- Behind the modifiers that are skipped the keyword of a type is read exactly when they lead to a
type. By induction on the fuel, a word at a time. -/
theorem readsKeyword_skipModifiers_iff {fuel : Nat} {t : Text} (enough : t.length ≤ fuel)
    (visible : ¬ StartsBlank t) :
    ReadsKeyword (skipModifiers fuel t) ↔ LeadsToType publicTypeModifiers t := by
  have apart : ∀ v ∈ publicTypeModifiers, ∀ w ∈ publicTypeModifiers, v <+: w → v = w := by decide
  have noKeyword : ∀ w ∈ publicTypeModifiers, w ∉ typeWords := by decide
  have stay {t : Text} (visible : ¬ StartsBlank t) (none : ∀ word ∈ publicTypeModifiers,
      ∀ behind, t = word ++ behind → ¬ StartsBlank behind) :
      ReadsKeyword t ↔ LeadsToType publicTypeModifiers t := by
    rw [readsKeyword_iff]
    constructor
    · rintro ⟨word, known, behind, rfl, ends⟩
      exact .keyword known ends
    · intro leads
      cases leads with
      | @blank c t blank rest => exact absurd ⟨c, rfl, blank⟩ visible
      | @keyword word behind known ends => exact ⟨word, known, behind, rfl, ends⟩
      | @modifier word t known starts rest => exact absurd starts (none word known t rfl)
  induction fuel generalizing t with
  | zero =>
    obtain rfl : t = [] := List.eq_nil_of_length_eq_zero (Nat.le_zero.1 enough)
    refine stay visible fun word known behind whole => ?_
    have isWord := words_publicTypeModifiers word known
    exact absurd (List.append_eq_nil_iff.1 whole.symm).1 isWord.nonempty
  | succ fuel ih =>
    rw [skipModifiers]
    cases read : (anyOf? publicTypeModifiers t).bind fun p => blanks? p.2 with
    | some rest =>
      obtain ⟨⟨word, behind⟩, word?, blanks⟩ := Option.bind_eq_some_iff.1 read
      obtain ⟨known, rfl⟩ := eq_append_of_anyOf? word?
      obtain ⟨starts, rfl⟩ := blanks?_eq_some_iff.1 blanks
      have isWord := words_publicTypeModifiers word known
      have shorter : behind.trimStart.length ≤ fuel := by
        have trimmed := (List.dropWhile_sublist (l := behind) isBlank).length_le
        have positive := List.length_pos_iff.2 isWord.nonempty
        rw [List.length_append] at enough
        rw [Text.trimStart]
        omega
      have word_iff := leadsToType_word_iff words_publicTypeModifiers isWord starts.ends
      rw [or_iff_right (noKeyword word known), and_iff_right known,
        and_iff_right starts] at word_iff
      exact (ih shorter (not_startsBlank_trimStart behind)).trans
        ((leadsToType_trimStart_iff words_publicTypeModifiers behind).trans word_iff.symm)
    | none =>
      simp only
      refine stay visible fun word known behind whole starts => ?_
      rw [whole, anyOf?_append apart known, Option.bind_some,
        blanks?_eq_some_iff.2 ⟨starts, rfl⟩] at read
      cases read

/-- What the search reads, step by step. -/
theorem publicType?_eq_some_iff {previous : Option Char} {t rest : Text} :
    publicType? previous t = some ((), rest) ↔ wordMayBegin previous = true ∧
      ∃ behind, t = "public" ++ behind ∧ StartsBlank behind ∧
        ∃ word, anyOf? typeWords (skipModifiers t.length behind.trimStart) = some (word, rest) ∧
          wordMayEnd rest = true := by
  constructor
  · intro h
    obtain ⟨⟨⟩, begins, h⟩ := Option.bind_eq_some_iff.1 h
    obtain ⟨behind, front, h⟩ := Option.bind_eq_some_iff.1 h
    obtain ⟨trimmed, blanks, h⟩ := Option.bind_eq_some_iff.1 h
    obtain ⟨⟨word, rest'⟩, keyword, h⟩ := Option.bind_eq_some_iff.1 h
    obtain ⟨⟨⟩, ends, h⟩ := Option.bind_eq_some_iff.1 h
    cases h
    obtain ⟨starts, rfl⟩ := blanks?_eq_some_iff.1 blanks
    exact ⟨(Option.guard_eq_some' _).1 begins, behind, Text.afterPrefix?_eq_some_iff.1 front,
      starts, word, keyword, (Option.guard_eq_some' _).1 ends⟩
  · rintro ⟨begins, behind, rfl, starts, word, keyword, ends⟩
    have front : Text.afterPrefix? "public" ("public".toList ++ behind) = some behind :=
      Text.afterPrefix?_append _ behind
    rw [typeWords] at keyword
    rw [publicType?]
    simp only [begins, front, blanks?_eq_some_iff.2 ⟨starts, rfl⟩, keyword, ends, guard_true,
      Option.pure_def, Option.bind_eq_bind, Option.bind_some]

/-- The search reads a public type exactly where one is. -/
theorem isSome_publicType?_iff {previous : Option Char} {t : Text} :
    (publicType? previous t).isSome = true ↔ wordMayBegin previous = true ∧
      ∃ behind, t = "public" ++ behind ∧ StartsBlank behind ∧
        LeadsToType publicTypeModifiers behind := by
  have reads {behind : Text} (whole : t = "public" ++ behind) :
      ReadsKeyword (skipModifiers t.length behind.trimStart) ↔
        LeadsToType publicTypeModifiers behind := by
    have enough : behind.trimStart.length ≤ t.length := by
      rw [whole, List.length_append, Text.trimStart]
      exact Nat.le_trans (List.dropWhile_sublist isBlank).length_le (Nat.le_add_left _ _)
    rw [readsKeyword_skipModifiers_iff enough (not_startsBlank_trimStart behind),
      leadsToType_trimStart_iff words_publicTypeModifiers]
  rw [Option.isSome_iff_exists]
  constructor
  · rintro ⟨⟨⟨⟩, rest⟩, read⟩
    obtain ⟨begins, behind, whole, starts, keyword⟩ := publicType?_eq_some_iff.1 read
    exact ⟨begins, behind, whole, starts, (reads whole).1 (keyword.imp fun word h => ⟨rest, h⟩)⟩
  · rintro ⟨begins, behind, whole, starts, leads⟩
    obtain ⟨word, rest, keyword⟩ := (reads whole).2 leads
    exact ⟨((), rest), publicType?_eq_some_iff.2 ⟨begins, behind, whole, starts, word, keyword⟩⟩

/-! ### Hits that hide nothing -/

theorem exists_of_skipModifiers (fuel : Nat) (t : Text) :
    ∃ skipped, t = skipped ++ skipModifiers fuel t ∧ 'p' ∉ skipped := by
  have other : ∀ w ∈ publicTypeModifiers, 'p' ∉ w := by decide
  induction fuel generalizing t with
  | zero => exact ⟨[], rfl, List.not_mem_nil⟩
  | succ fuel ih =>
    rw [skipModifiers]
    cases read : (anyOf? publicTypeModifiers t).bind fun p => blanks? p.2 with
    | some rest =>
      obtain ⟨⟨word, behind⟩, word?, blanks⟩ := Option.bind_eq_some_iff.1 read
      obtain ⟨known, rfl⟩ := eq_append_of_anyOf? word?
      obtain ⟨-, rfl⟩ := blanks?_eq_some_iff.1 blanks
      obtain ⟨skipped, whole, absent⟩ := ih behind.trimStart
      refine ⟨word ++ (behind.takeWhile isBlank ++ skipped), ?_, ?_⟩
      · simp only [List.append_assoc]
        rw [← whole, Text.takeWhile_append_trimStart]
      · simp only [List.mem_append, not_or]
        exact ⟨other word known, not_mem_of_blank (Text.blank_takeWhile behind), absent⟩
    | none => exact ⟨[], rfl, List.not_mem_nil⟩

theorem startsAt_publicType? : publicType?.StartsAt 'p' := by
  rintro previous t rest ⟨⟩ h
  obtain ⟨-, behind, whole, -, word, keyword, -⟩ := publicType?_eq_some_iff.1 h
  obtain ⟨skipped, trimmed, absent⟩ := exists_of_skipModifiers t.length behind.trimStart
  obtain ⟨known, rest'⟩ := eq_append_of_anyOf? keyword
  have other : ∀ w ∈ typeWords, 'p' ∉ w := by decide
  refine ⟨"ublic" ++ (behind.takeWhile isBlank ++ (skipped ++ word)), ?_, ?_⟩
  · have cut : behind = behind.takeWhile isBlank ++ (skipped ++ (word ++ rest)) := by
      rw [← rest', ← trimmed, Text.takeWhile_append_trimStart]
    conv_lhs => rw [whole, cut]
    simp
  · simp only [List.mem_append, not_or]
    exact ⟨by decide, not_mem_of_blank (Text.blank_takeWhile behind), absent, other word known⟩

/-- The offsets that are found are those of the outermost public types. -/
theorem mem_publicOffsets_iff {t front rest : Text} (whole : t = front ++ rest) :
    Text.octets front ∈ publicOffsets t ↔ OutermostPublic publicTypeModifiers t front rest := by
  have hits := startsAt_publicType?.exists_mem_occurrences_iff whole
  have outermost : OutermostPublic publicTypeModifiers t front rest ↔
      braceDepth front = 0 ∧ (publicType? front.getLast? rest).isSome = true := by
    rw [isSome_publicType?_iff]
    exact ⟨fun ⟨_, depth, begins, leads⟩ => ⟨depth, begins, leads⟩,
      fun ⟨depth, begins, leads⟩ => ⟨whole, depth, begins, leads⟩⟩
  rw [outermost, ← hits, publicOffsets, List.mem_filterMap]
  constructor
  · rintro ⟨hit, mem, place⟩
    obtain ⟨depth, size⟩ := Option.ite_none_right_eq_some.1 place
    obtain ⟨rest', -, whole', -⟩ := exists_of_mem_occurrences startsAt_publicType?.takes mem
    have same := whole'.symm.trans whole
    obtain ⟨rfl, -⟩ := TypedSource.append_inj_of_octets same (Option.some.inj size)
    exact ⟨depth, hit, mem, rfl⟩
  · rintro ⟨depth, hit, mem, rfl⟩
    exact ⟨hit, mem, if_pos depth⟩

end Harness.JavaSource

end HarnessSynthesis
