/-
# What stands in front of a type

In front of its type a declaration has blanks, annotations, template sections and modifiers, in any
order. `Lead` says so with the whole text present, so that neither a modifier nor the name of an
annotation is cut short. Reading the items of a header comes to the same: it passes over a lead and
stops where no item follows.
-/

import HarnessSynthesis.Proofs.Entry.Headers
import HarnessSynthesis.Proofs.Text.Words

namespace HarnessSynthesis.TypedSource

open Source
open scoped Text.OfCharacters
open Text (isBlank isAsciiBlank isNameChar)

/-! ## Brackets in pairs -/

/-- Whether a bracket behind a text closes the one in front of it. -/
def Closed (opening closing : Char) (inside : Text) : Prop :=
  closeBracket? opening closing 0 (inside ++ [closing]) = some (inside, [])

/-- What stands behind the bracket that closes makes no difference. -/
theorem closeBracket?_congr {opening closing : Char} {depth : Nat} {t inside behind : Text}
    (h : closeBracket? opening closing depth t = some (inside, behind)) (behind' : Text) :
    closeBracket? opening closing depth (inside ++ closing :: behind') =
      some (inside, behind') := by
  induction t generalizing depth inside with
  | nil => simp [closeBracket?] at h
  | cons c t ih =>
    have extended {depth' : Nat} (h : Text.extend c
        (closeBracket? opening closing depth' t) = some (inside, behind)) :
        ∃ more, inside = c :: more ∧ closeBracket? opening closing depth'
          (more ++ closing :: behind') = some (more, behind') := by
      obtain ⟨more, rfl, found⟩ := Text.extend_eq_some_iff.1 h
      exact ⟨more, rfl, ih found⟩
    simp only [closeBracket?] at h
    split at h
    · rename_i opens
      obtain ⟨more, rfl, read⟩ := extended h
      simp only [List.cons_append, closeBracket?, if_pos opens, read, Text.extend]
    · rename_i noOpen
      split at h
      · rename_i closes
        cases depth with
        | zero =>
          obtain ⟨rfl, rfl⟩ := Prod.mk.inj (Option.some.inj h)
          simp only [List.nil_append, closeBracket?, if_neg (closes ▸ noOpen), if_true]
        | succ depth =>
          obtain ⟨more, rfl, read⟩ := extended h
          simp only [List.cons_append, closeBracket?, if_neg noOpen, if_pos closes, read,
            Text.extend]
      · rename_i noClose
        obtain ⟨more, rfl, read⟩ := extended h
        simp only [List.cons_append, closeBracket?, if_neg noOpen, if_neg noClose, read,
          Text.extend]

theorem closed_of_closeBracket? {opening closing : Char} {t inside behind : Text}
    (h : closeBracket? opening closing 0 t = some (inside, behind)) :
    Closed opening closing inside :=
  closeBracket?_congr h []

theorem Closed.closeBracket? {opening closing : Char} {inside : Text}
    (closed : Closed opening closing inside) (behind : Text) :
    Source.closeBracket? opening closing 0 (inside ++ closing :: behind) = some (inside, behind) :=
  closeBracket?_congr closed behind

/-! ## Leads -/

/-- Whether a text starts, blanks aside, like the arguments of an annotation. -/
def StartsArguments (t : Text) : Prop :=
  (Text.trimStart t).head? = some '('

theorem startsArguments_iff {t : Text} :
    StartsArguments t ↔ Text.startsWith ['('] (Text.trimStart t) = true := by
  rw [StartsArguments, Text.startsWith_iff]
  cases Text.trimStart t with
  | nil => exact iff_of_false nofun (by simp)
  | cons c u => simp [List.cons_prefix_cons, eq_comm]

/-- Behind a text that is not all blank it makes no difference what follows. -/
theorem startsArguments_append {passed rest rest' : Text} (other : ¬ StartsArguments rest')
    (h : StartsArguments (passed ++ rest')) : StartsArguments (passed ++ rest) := by
  unfold StartsArguments Text.trimStart at *
  rw [List.dropWhile_append] at h ⊢
  split at h
  · exact absurd h other
  · rename_i more
    obtain ⟨c, u, start⟩ := List.exists_cons_of_ne_nil fun empty => more (List.isEmpty_iff.2 empty)
    rw [if_neg more, start]
    rw [start] at h
    exact h

/-- Whether the rest of a text follows blanks, annotations, template sections and modifiers, whose
words are these. -/
inductive Lead (known : List Text) : Text → List Text → Text → Prop
  | done {rest : Text} : Lead known rest [] rest
  | blank {c : Char} {t rest : Text} {words : List Text} :
      isAsciiBlank c = true → Lead known t words rest → Lead known (c :: t) words rest
  | noted {name t rest : Text} {words : List Text} :
      (∀ c ∈ name, isAnnotationChar c = true) → (∀ c ∈ t.head?, isAnnotationChar c = false) →
      ¬ StartsArguments t → Lead known t words rest →
      Lead known ('@' :: (name ++ t)) words rest
  | applied {name gap arguments t rest : Text} {words : List Text} :
      (∀ c ∈ name, isAnnotationChar c = true) → Text.Blank gap → Closed '(' ')' arguments →
      Lead known t words rest →
      Lead known ('@' :: (name ++ (gap ++ '(' :: (arguments ++ ')' :: t)))) words rest
  | template {gap parameters t rest : Text} {words : List Text} :
      Text.Blank gap → Closed '<' '>' parameters → Lead known t words rest →
      Lead known ("template".toList ++ (gap ++ '<' :: (parameters ++ '>' :: t))) words rest
  | modifier {word t rest : Text} {words : List Text} :
      word ∈ known → (∀ c ∈ t.head?, isNameChar c = false) → Lead known t words rest →
      Lead known (word ++ t) (word :: words) rest

namespace Lead

variable {known words words' : List Text} {t rest : Text}

theorem blanks {b : Text} (blank : ∀ c ∈ b, isAsciiBlank c = true)
    (lead : Lead known t words rest) : Lead known (b ++ t) words rest := by
  induction b with
  | nil => exact lead
  | cons c b ih =>
    rw [List.forall_mem_cons] at blank
    exact .blank blank.1 (ih blank.2)

theorem suffix (lead : Lead known t words rest) : rest <:+ t := by
  induction lead with
  | done => exact List.suffix_refl _
  | blank _ _ ih => exact ih.trans (List.suffix_cons _ _)
  | @noted name t _ _ _ _ _ _ ih =>
    exact ih.trans ((List.suffix_append name t).trans (List.suffix_cons _ _))
  | @applied name gap arguments t _ _ _ _ _ _ ih =>
    exact ih.trans ⟨'@' :: (name ++ (gap ++ '(' :: (arguments ++ [')']))), by simp⟩
  | @template gap parameters t _ _ _ _ _ ih =>
    exact ih.trans ⟨"template".toList ++ (gap ++ '<' :: (parameters ++ ['>'])), by simp⟩
  | @modifier word t _ _ _ _ _ ih => exact ih.trans (List.suffix_append word t)

/-- A lead goes on with the lead of what it leaves. -/
theorem trans {rest' : Text} (lead : Lead known t words rest)
    (lead' : Lead known rest words' rest') : Lead known t (words ++ words') rest' := by
  induction lead with
  | done => exact lead'
  | blank space _ ih => exact .blank space (ih lead')
  | noted named stops plain _ ih => exact .noted named stops plain (ih lead')
  | applied named blank closed _ ih => exact .applied named blank closed (ih lead')
  | template blank closed _ ih => exact .template blank closed (ih lead')
  | modifier mem stops _ ih => exact .modifier mem stops (ih lead')

/-- Of what follows a lead only the first character counts, and whether it is an argument of an
annotation. -/
theorem congr {rest' : Text} (lead : Lead known t words rest) (head : rest'.head? = rest.head?)
    (other : ¬ StartsArguments rest') :
    ∃ passed, t = passed ++ rest ∧ Lead known (passed ++ rest') words rest' := by
  have headOf (passed : Text) : (passed ++ rest').head? = (passed ++ rest).head? := by
    rw [List.head?_append, List.head?_append, head]
  induction lead with
  | done => exact ⟨[], rfl, .done⟩
  | blank space _ ih =>
    obtain ⟨passed, rfl, lead⟩ := ih head headOf
    exact ⟨_ :: passed, rfl, .blank space lead⟩
  | @noted name t _ _ named stops plain _ ih =>
    obtain ⟨passed, rfl, lead⟩ := ih head headOf
    refine ⟨'@' :: (name ++ passed), by simp, ?_⟩
    rw [List.cons_append, List.append_assoc]
    exact .noted named (by rwa [headOf])
      (fun opens => plain (startsArguments_append other opens)) lead
  | @applied name gap arguments t _ _ named blank closed _ ih =>
    obtain ⟨passed, rfl, lead⟩ := ih head headOf
    refine ⟨'@' :: (name ++ (gap ++ '(' :: (arguments ++ ')' :: passed))), by simp, ?_⟩
    simpa using Lead.applied named blank closed lead
  | @template gap parameters t _ _ blank closed _ ih =>
    obtain ⟨passed, rfl, lead⟩ := ih head headOf
    refine ⟨"template".toList ++ (gap ++ '<' :: (parameters ++ '>' :: passed)), by simp, ?_⟩
    simpa using Lead.template blank closed lead
  | @modifier word t _ _ mem stops _ ih =>
    obtain ⟨passed, rfl, lead⟩ := ih head headOf
    refine ⟨word ++ passed, by simp, ?_⟩
    rw [List.append_assoc]
    exact .modifier mem (by rwa [headOf]) lead

end Lead

/-! ## Leads are passed over -/

section Pass

variable {words : List Text} {t rest behind word : Text} {fuel fuel' : Nat}

theorem read_noted {name : Text} (named : ∀ c ∈ name, isAnnotationChar c = true)
    (stops : ∀ c ∈ t.head?, isAnnotationChar c = false) (plain : ¬ StartsArguments t) :
    HeaderItem.read ('@' :: (name ++ t)) = .aside t := by
  rw [HeaderItem.read, (Text.takeWhile_dropWhile_append named stops).2,
    if_neg fun opens => plain (startsArguments_iff.2 opens)]

theorem parenthesized?_gap {gap inside : Text} (blank : Text.Blank gap)
    (closed : Closed '(' ')' inside) :
    Text.trimStart (gap ++ '(' :: (inside ++ ')' :: t)) = '(' :: (inside ++ ')' :: t) ∧
      parenthesized? ('(' :: (inside ++ ')' :: t)) = some (inside, t) := by
  rw [Text.trimStart_append_of_blank blank, Text.trimStart_cons_of_not_isBlank (by decide)]
  exact ⟨rfl, closed.closeBracket? t⟩

theorem isAnnotationChar_of_isBlank {c : Char} (blank : isBlank c = true) :
    isAnnotationChar c = false := by
  refine Bool.eq_false_iff.2 fun annotation => ?_
  have noName := Text.isNameChar_of_isBlank blank
  simp only [isAnnotationChar, Bool.or_eq_true, beq_iff_eq] at annotation
  rcases annotation with (ascii | rfl) | rfl
  · rw [Text.isNameChar_of_ascii ascii] at noName
    cases noName
  · cases noName
  · exact absurd blank (by decide)

/-- No name of an annotation goes on with blanks and a parenthesis. -/
theorem not_isAnnotationChar_gap {gap : Text} (blank : Text.Blank gap) :
    ∀ c ∈ (gap ++ '(' :: t).head?, isAnnotationChar c = false := by
  intro c found
  cases gap with
  | nil =>
    cases found
    decide
  | cons d gap =>
    cases found
    exact isAnnotationChar_of_isBlank (blank c List.mem_cons_self)

theorem read_applied {name gap arguments : Text} (named : ∀ c ∈ name, isAnnotationChar c = true)
    (blank : Text.Blank gap) (closed : Closed '(' ')' arguments) :
    HeaderItem.read ('@' :: (name ++ (gap ++ '(' :: (arguments ++ ')' :: t)))) = .aside t := by
  obtain ⟨start, read⟩ := parenthesized?_gap (t := t) blank closed
  rw [HeaderItem.read, (Text.takeWhile_dropWhile_append named (not_isAnnotationChar_gap blank)).2,
    start, read]
  rfl

theorem read_template {gap parameters : Text} (blank : Text.Blank gap)
    (closed : Closed '<' '>' parameters) :
    HeaderItem.read ("template".toList ++ (gap ++ '<' :: (parameters ++ '>' :: t))) = .aside t := by
  unfold HeaderItem.read
  split
  · rename_i whole
    cases whole
  · rw [Text.afterPrefix?_append, Option.map_some, Text.trimStart_append_of_blank blank,
      Text.trimStart_cons_of_not_isBlank (by decide)]
    dsimp only
    simp only [angled?, closed.closeBracket?]

theorem read_of_mem_modifierWords (known : word ∈ modifierWords)
    (stops : ∀ c ∈ t.head?, isNameChar c = false) :
    HeaderItem.read (word ++ t) = .modifier word t := by
  have all : ∀ word ∈ modifierWords, (∀ c ∈ word, isNameChar c = true) ∧
      ¬ "template".toList <+: word ∧ ¬ word <+: "template".toList ∧ word.head? ≠ some '@' := by
    decide +kernel
  obtain ⟨name, noTemplate, noStart, noAt⟩ := all word known
  have apart : Text.afterPrefix? "template" (word ++ t) = none :=
    Text.afterPrefix?_eq_none fun front =>
      (List.prefix_or_prefix_of_prefix front (List.prefix_append word t)).elim noTemplate noStart
  unfold HeaderItem.read
  split
  · rename_i whole
    cases word with
    | nil => exact absurd rfl (ne_nil_of_mem_modifierWords known)
    | cons c word =>
      cases whole
      exact absurd rfl noAt
  · rw [apart]
    dsimp only [Option.map_none]
    obtain ⟨run, behind⟩ := Text.takeWhile_dropWhile_append name stops
    rw [run, behind, if_pos known]

theorem readItems?_congr (enough : t.length ≤ fuel) (enough' : t.length ≤ fuel') :
    readItems? fuel t = readItems? fuel' t := by
  have empty (fuel : Nat) : readItems? fuel [] = some ([], []) := by cases fuel <;> rfl
  induction fuel generalizing t fuel' with
  | zero =>
    rw [List.eq_nil_of_length_eq_zero (Nat.le_zero.1 enough), empty, empty]
  | succ fuel ih =>
    cases fuel' with
    | zero => rw [List.eq_nil_of_length_eq_zero (Nat.le_zero.1 enough'), empty, empty]
    | succ fuel' =>
      have spaced := (List.dropWhile_suffix (l := t) isAsciiBlank).length_le
      have read := HeaderItem.takes_read (t.dropWhile isAsciiBlank)
      rw [readItems?, readItems?]
      dsimp only
      cases item : HeaderItem.read (t.dropWhile isAsciiBlank) with
      | type | unclosed => rfl
      | aside behind =>
        rw [item] at read
        have shorter := read.2
        exact ih (by omega) (by omega)
      | modifier word behind =>
        rw [item] at read
        have shorter := read.2.2.2
        dsimp only
        have rest : readItems? fuel behind = readItems? fuel' behind := ih (by omega) (by omega)
        rw [rest]

theorem visible_cons (c : Char) (t : Text) (visible : isAsciiBlank c = false) :
    ∀ d ∈ (c :: t).head?, isAsciiBlank d = false := by
  rintro d ⟨⟩
  exact visible

theorem visible_template (t : Text) :
    ∀ d ∈ ("template".toList ++ t).head?, isAsciiBlank d = false := by
  have start : "template".toList = 't' :: "emplate".toList := by decide
  rw [start, List.cons_append]
  exact visible_cons 't' _ (by decide)

theorem dropWhile_of_visible (visible : ∀ c ∈ t.head?, isAsciiBlank c = false) :
    t.dropWhile isAsciiBlank = t :=
  Text.dropWhile_eq_self visible

theorem readItems?_blank {c : Char} (space : isAsciiBlank c = true) :
    readItems? (fuel + 1) (c :: t) = readItems? (fuel + 1) t := by
  rw [readItems?, readItems?, List.dropWhile_cons_of_pos space]

theorem readItems?_type (visible : ∀ c ∈ t.head?, isAsciiBlank c = false)
    (item : HeaderItem.read t = .type) : readItems? fuel t = some ([], t) := by
  cases fuel with
  | zero => rfl
  | succ fuel =>
    rw [readItems?]
    dsimp only
    rw [dropWhile_of_visible visible, item]

theorem readItems?_aside (visible : ∀ c ∈ t.head?, isAsciiBlank c = false)
    (item : HeaderItem.read t = .aside behind) (enough : t.length ≤ fuel) :
    readItems? fuel t = readItems? behind.length behind := by
  have read := HeaderItem.takes_read t
  rw [item] at read
  have shorter := read.2
  cases fuel with
  | zero => omega
  | succ fuel =>
    rw [readItems?]
    dsimp only
    rw [dropWhile_of_visible visible, item]
    exact readItems?_congr (by omega) (Nat.le_refl _)

theorem readItems?_modifier (known : word ∈ modifierWords)
    (stops : ∀ c ∈ t.head?, isNameChar c = false) (enough : (word ++ t).length ≤ fuel) :
    readItems? fuel (word ++ t) =
      (readItems? t.length t).map fun p => (word :: p.1, p.2) := by
  have nonempty := List.length_pos_iff.2 (ne_nil_of_mem_modifierWords known)
  have visible : ∀ c ∈ (word ++ t).head?, isAsciiBlank c = false := by
    have all : ∀ word ∈ modifierWords, word.head?.any (fun c => !isAsciiBlank c) = true := by
      decide +kernel
    cases word with
    | nil => exact absurd rfl (ne_nil_of_mem_modifierWords known)
    | cons c word =>
      refine visible_cons c _ ?_
      simpa using all _ known
  rw [List.length_append] at enough
  cases fuel with
  | zero => omega
  | succ fuel =>
    rw [readItems?]
    dsimp only
    rw [dropWhile_of_visible visible, read_of_mem_modifierWords known stops]
    dsimp only
    have same : readItems? fuel t = readItems? t.length t :=
      readItems?_congr (by omega) (Nat.le_refl _)
    rw [same]

theorem readItems?_unclosed (visible : ∀ c ∈ t.head?, isAsciiBlank c = false)
    (item : HeaderItem.read t = .unclosed) (enough : t.length ≤ fuel) :
    readItems? fuel t = none := by
  cases fuel with
  | zero =>
    rw [List.eq_nil_of_length_eq_zero (Nat.le_zero.1 enough)] at item
    cases item
  | succ fuel =>
    rw [readItems?]
    dsimp only
    rw [dropWhile_of_visible visible, item]

/-- The items of a lead are read one after the other. -/
theorem Lead.readItems? (lead : Lead modifierWords t words rest) (enough : t.length ≤ fuel) :
    TypedSource.readItems? fuel t =
      (TypedSource.readItems? rest.length rest).map fun p => (words ++ p.1, p.2) := by
  induction lead generalizing fuel with
  | @done rest =>
    rw [readItems?_congr enough (Nat.le_refl rest.length)]
    exact Option.map_id'.symm
  | @blank c t rest words space _ ih =>
    cases fuel with
    | zero => cases enough
    | succ fuel =>
      rw [readItems?_blank space, ih (by rw [List.length_cons] at enough; omega)]
  | @noted name t rest words named stops plain _ ih =>
    rw [readItems?_aside (visible_cons '@' _ (by decide)) (read_noted named stops plain) enough]
    exact ih (Nat.le_refl _)
  | @applied name gap arguments t rest words named blank closed _ ih =>
    rw [readItems?_aside (visible_cons '@' _ (by decide)) (read_applied named blank closed) enough]
    exact ih (Nat.le_refl _)
  | @template gap parameters t rest words blank closed _ ih =>
    rw [readItems?_aside (visible_template _) (read_template blank closed) enough]
    exact ih (Nat.le_refl _)
  | @modifier word t rest words known stops _ ih =>
    rw [readItems?_modifier known stops enough, ih (Nat.le_refl _), Option.map_map]
    rfl

/-- Leads of one text up to types are the same. -/
theorem Lead.unique {words' : List Text} {rest' : Text} (lead : Lead modifierWords t words rest)
    (lead' : Lead modifierWords t words' rest') (stops : HeaderItem.read rest = .type)
    (stops' : HeaderItem.read rest' = .type) (visible : ∀ c ∈ rest.head?, isAsciiBlank c = false)
    (visible' : ∀ c ∈ rest'.head?, isAsciiBlank c = false) : words = words' ∧ rest = rest' := by
  have read := lead.readItems? (Nat.le_refl _)
  rw [lead'.readItems? (Nat.le_refl _), readItems?_type visible stops,
    readItems?_type visible' stops'] at read
  simp only [Option.map_some, List.append_nil, Option.some_inj, Prod.mk.injEq] at read
  exact ⟨read.1.symm, read.2.symm⟩

end Pass

/-! ## Reading a lead -/

section Read

variable {known words : List Text} {t rest behind word : Text}

theorem head?_dropWhile (p : Char → Bool) (t : Text) :
    ∀ c ∈ (t.dropWhile p).head?, p c = false := by
  intro c found
  have stops := List.head?_dropWhile_not p t
  rw [Option.mem_def.1 found] at stops
  simpa using stops

/-- The text behind a parenthesized section, with what was passed over. -/
theorem exists_of_parenthesized? {inside : Text}
    (h : parenthesized? (Text.trimStart t) = some (inside, behind)) :
    ∃ gap, Text.Blank gap ∧ t = gap ++ '(' :: (inside ++ ')' :: behind) ∧
      Closed '(' ')' inside := by
  have whole := Text.takeWhile_append_trimStart t
  cases start : Text.trimStart t with
  | nil =>
    rw [start] at h
    cases h
  | cons c u =>
    by_cases opens : c = '('
    · subst opens
      rw [start] at h whole
      refine ⟨_, Text.blank_takeWhile t, ?_, closed_of_closeBracket? h⟩
      rw [← eq_append_of_closeBracket? h, whole]
    · rw [start, parenthesized?] at h
      · cases h
      · intro rest same
        exact opens (List.cons.inj same).1

theorem lead_of_read_aside (h : HeaderItem.read t = .aside behind)
    (lead : Lead known behind words rest) : Lead known t words rest := by
  unfold HeaderItem.read at h
  split at h
  · rename_i t
    have name : ∀ c ∈ t.takeWhile isAnnotationChar, isAnnotationChar c = true :=
      fun c mem => List.mem_takeWhile_imp mem
    have whole := List.takeWhile_append_dropWhile (p := isAnnotationChar) (l := t)
    rw [← whole]
    dsimp only at h
    split at h
    · split at h
      · rename_i closed
        cases h
        obtain ⟨gap, blank, split, inside⟩ := exists_of_parenthesized? closed
        rw [split]
        exact .applied name blank inside lead
      · cases h
    · rename_i plain
      cases h
      exact .noted name (head?_dropWhile _ t)
        (fun opens => plain (startsArguments_iff.1 opens)) lead
  · split at h
    · rename_i keyword
      split at h
      · rename_i closed
        cases h
        obtain ⟨u, keyword, angle⟩ := Option.map_eq_some_iff.1 keyword
        have whole := Text.takeWhile_append_trimStart u
        rw [Text.afterPrefix?_eq_some_iff.1 keyword, ← whole, angle,
          eq_append_of_closeBracket? closed]
        exact .template (Text.blank_takeWhile u) (closed_of_closeBracket? closed) lead
      · cases h
    · dsimp only at h
      split at h <;> cases h

theorem lead_of_read_modifier (h : HeaderItem.read t = .modifier word behind)
    (lead : Lead modifierWords behind words rest) :
    Lead modifierWords t (word :: words) rest := by
  have takes := HeaderItem.takes_read t
  rw [h] at takes
  obtain ⟨mem, whole, -⟩ := takes
  have stops : ∀ c ∈ behind.head?, isNameChar c = false := by
    unfold HeaderItem.read at h
    split at h
    · dsimp only at h
      split at h
      · split at h <;> cases h
      · cases h
    · split at h
      · split at h <;> cases h
      · dsimp only at h
        split at h
        · cases h
          exact head?_dropWhile _ t
        · cases h
  rw [whole]
  exact .modifier mem stops lead

/-- A text is a lead up to a type or to an item that does not end. -/
theorem exists_lead (t : Text) : ∃ words rest, Lead modifierWords t words rest ∧
    (∀ c ∈ rest.head?, isAsciiBlank c = false) ∧
      (HeaderItem.read rest = .type ∨ HeaderItem.read rest = .unclosed) := by
  induction length : t.length using Nat.strongRecOn generalizing t with
  | ind n ih =>
    have whole := List.takeWhile_append_dropWhile (p := isAsciiBlank) (l := t)
    have blank : ∀ c ∈ t.takeWhile isAsciiBlank, isAsciiBlank c = true :=
      fun c mem => List.mem_takeWhile_imp mem
    have short := congrArg List.length whole
    rw [List.length_append] at short
    have read := HeaderItem.takes_read (t.dropWhile isAsciiBlank)
    rw [← whole]
    cases item : HeaderItem.read (t.dropWhile isAsciiBlank) with
    | type => exact ⟨[], _, .blanks blank .done, head?_dropWhile _ t, Or.inl item⟩
    | unclosed => exact ⟨[], _, .blanks blank .done, head?_dropWhile _ t, Or.inr item⟩
    | aside behind =>
      rw [item] at read
      have shorter := read.2
      obtain ⟨words, rest, lead, stops⟩ := ih behind.length (by omega) behind rfl
      exact ⟨words, rest, .blanks blank (lead_of_read_aside item lead), stops⟩
    | modifier word behind =>
      rw [item] at read
      have shorter := read.2.2.2
      obtain ⟨words, rest, lead, stops⟩ := ih behind.length (by omega) behind rfl
      exact ⟨word :: words, rest, .blanks blank (lead_of_read_modifier item lead), stops⟩

/-- The items of a header are a lead, behind which a type may begin. -/
theorem lead_of_readItems? {fuel : Nat} (enough : t.length ≤ fuel)
    (h : readItems? fuel t = some (words, rest)) :
    Lead modifierWords t words rest ∧ HeaderItem.read rest = .type := by
  obtain ⟨words', rest', lead, visible, stops⟩ := exists_lead t
  rw [lead.readItems? enough] at h
  rcases stops with type | unclosed
  · rw [readItems?_type visible type, Option.map_some, List.append_nil] at h
    obtain ⟨rfl, rfl⟩ := Prod.mk.inj (Option.some.inj h)
    exact ⟨lead, type⟩
  · rw [readItems?_unclosed visible unclosed (Nat.le_refl _)] at h
    cases h

end Read

/-! ## Where a declaration begins -/

/-- A text as the part up to its last statement and the rest. -/
structure Done (done segment : Text) : Prop where
  last : ∀ c ∈ done.getLast?, endsStatement c = true
  within : ∀ c ∈ segment, endsStatement c = false

theorem exists_done (before : Text) : ∃ done segment, before = done ++ segment ∧
    Done done segment := by
  refine ⟨before.dropEndWhile fun c => !endsStatement c,
    before.takeEndWhile fun c => !endsStatement c,
    (Text.dropEndWhile_append_takeEndWhile _ _).symm, ?_, ?_⟩
  · intro c found
    rw [Text.dropEndWhile, List.getLast?_reverse] at found
    have stops := head?_dropWhile (fun c => !endsStatement c) before.reverse c found
    simpa using stops
  · intro c mem
    rw [Text.takeEndWhile, List.mem_reverse] at mem
    simpa using List.mem_takeWhile_imp mem

theorem Done.cutSegment {done segment : Text} (cut : Done done segment) :
    TypedSource.cutSegment (done ++ segment) =
      match cutLastLabel? none segment with
      | some (label, segment) => (done ++ label, segment)
      | none => (done, segment) := by
  have all : ∀ c ∈ segment.reverse, (!endsStatement c) = true := fun c mem => by
    rw [cut.within c (List.mem_reverse.1 mem)]
    rfl
  have stops : ∀ c ∈ done.reverse.head?, ¬ (!endsStatement c) = true := fun c found => by
    rw [List.head?_reverse] at found
    rw [cut.last c found]
    decide
  have front : done.reverse.dropWhile (fun c => !endsStatement c) = done.reverse ∧
      done.reverse.takeWhile (fun c => !endsStatement c) = [] := by
    cases reversed : done.reverse with
    | nil => exact ⟨rfl, rfl⟩
    | cons c u =>
      rw [reversed] at stops
      exact ⟨List.dropWhile_cons_of_neg (stops c rfl), List.takeWhile_cons_of_neg (stops c rfl)⟩
  have dropped : (done ++ segment).dropEndWhile (fun c => !endsStatement c) = done := by
    rw [Text.dropEndWhile, List.reverse_append, List.dropWhile_append_of_pos all, front.1,
      List.reverse_reverse]
  have taken : (done ++ segment).takeEndWhile (fun c => !endsStatement c) = segment := by
    rw [Text.takeEndWhile, List.reverse_append, List.takeWhile_append_of_pos all, front.2,
      List.append_nil, List.reverse_reverse]
  cases found : cutLastLabel? none segment <;>
    simp only [TypedSource.cutSegment, dropped, taken, found]

/-- The last label of a text that goes on with anything but a colon is its last label, unless the
longer text has a later one. -/
theorem cutLastLabel?_of_append_cons {c : Char} (other : c ≠ ':') (b : Text) :
    ∀ (previous : Option Char) (a : Text),
      (cutLastLabel? previous (a ++ c :: b) = none → cutLastLabel? previous a = none) ∧
      ∀ {before y : Text}, cutLastLabel? previous (a ++ c :: b) = some (before, y ++ c :: b) →
        cutLastLabel? previous a = some (before, y)
  | previous, [] => by
    refine ⟨fun _ => rfl, fun {before y} h => ?_⟩
    have whole := congrArg List.length (eq_append_of_cutLastLabel? h)
    have nonempty : before ≠ [] := by
      rintro rfl
      rw [List.nil_append, cutLastLabel?] at h
      split at h
      · cases h
      · split at h <;> cases h
    have positive := List.length_pos_iff.2 nonempty
    simp only [List.nil_append, List.length_append, List.length_cons] at whole
    omega
  | previous, d :: a => by
    obtain ⟨noLater, later⟩ := cutLastLabel?_of_append_cons other b (some d) a
    have ahead : (a ++ c :: b).head? ≠ some ':' ↔ a.head? ≠ some ':' := by
      cases a with
      | nil => simpa using other
      | cons e a => exact Iff.rfl
    rw [List.cons_append, cutLastLabel?, cutLastLabel?]
    cases found : cutLastLabel? (some d) (a ++ c :: b) with
    | none =>
      rw [noLater found]
      dsimp only
      simp only [ahead]
      refine ⟨fun h => ?_, fun {before y} h => ?_⟩
      · split at h
        · cases h
        · rename_i here
          rw [if_neg here]
      · split at h
        · rename_i here
          rw [if_pos here]
          obtain ⟨rfl, behind⟩ := Prod.mk.inj (Option.some.inj h)
          rw [List.append_cancel_right behind]
        · cases h
    | some p =>
      obtain ⟨before', behind⟩ := p
      refine ⟨fun h => absurd h (Option.some_ne_none _), fun {before y} h => ?_⟩
      obtain ⟨rfl, rfl⟩ := Prod.mk.inj (Option.some.inj h)
      rw [later found]

/-- A declaration begins at the same place for a shorter text that ends in its segment. -/
theorem cutSegment_of_inside {start segment a b before : Text} {c : Char}
    (h : cutSegment before = (start, segment)) (inside : segment = a ++ c :: b) (other : c ≠ ':') :
    cutSegment (start ++ a) = (start, a) := by
  obtain ⟨done, whole, rfl, cut⟩ := exists_done before
  rw [cut.cutSegment] at h
  obtain ⟨noLater, later⟩ := cutLastLabel?_of_append_cons other b none a
  split at h
  · rename_i label behind found
    obtain ⟨rfl, rfl⟩ := Prod.mk.inj h
    have split := eq_append_of_cutLastLabel? found
    subst inside
    have shorter : Done done (label ++ a) :=
      ⟨cut.last, fun d mem => cut.within d (by
        rw [split]
        simp only [List.mem_append] at mem ⊢
        exact mem.imp id Or.inl)⟩
    rw [split, ← List.append_assoc] at found
    have found' := (cutLastLabel?_of_append_cons other b none (label ++ a)).2 found
    rw [List.append_assoc, shorter.cutSegment, found']
  · rename_i noLabel
    obtain ⟨rfl, rfl⟩ := Prod.mk.inj h
    subst inside
    have shorter : Done done a := ⟨cut.last, fun d mem => cut.within d (List.mem_append_left _ mem)⟩
    rw [shorter.cutSegment, noLater noLabel]

/-- The last character of a label is its colon. -/
theorem getLast?_of_cutLastLabel? {previous : Option Char} {t label behind : Text}
    (h : cutLastLabel? previous t = some (label, behind)) : label.getLast? = some ':' := by
  induction t generalizing previous label with
  | nil => cases h
  | cons c t ih =>
    rw [cutLastLabel?] at h
    split at h
    · rename_i found
      obtain ⟨rfl, rfl⟩ := Prod.mk.inj (Option.some.inj h)
      rw [List.getLast?_cons, ih found]
      rfl
    · obtain ⟨⟨rfl, -⟩, same⟩ := Option.ite_none_right_eq_some.1 h
      obtain ⟨rfl, rfl⟩ := Prod.mk.inj (Option.some.inj same)
      rfl

/-- A declaration begins behind the end of a statement or behind a colon. -/
theorem getLast?_cutSegment (before : Text) :
    ∀ c ∈ (cutSegment before).1.getLast?, endsStatement c = true ∨ c = ':' := by
  obtain ⟨done, segment, rfl, cut⟩ := exists_done before
  rw [cut.cutSegment]
  split
  · rename_i found
    intro c last
    rw [List.getLast?_append, getLast?_of_cutLastLabel? found] at last
    exact Or.inr (Option.some.inj last).symm
  · exact fun c last => Or.inl (cut.last c last)

theorem endsStatement_of_mem_segment {before : Text} :
    ∀ c ∈ (cutSegment before).2, endsStatement c = false := by
  obtain ⟨done, segment, rfl, cut⟩ := exists_done before
  rw [cut.cutSegment]
  split
  · rename_i found
    intro c mem
    refine cut.within c ?_
    rw [eq_append_of_cutLastLabel? found]
    exact List.mem_append_right _ mem
  · exact cut.within

/-! ## Headers -/

/-- Text without braces leaves the depth of a place alone. -/
theorem braceDepthFrom_append {b : Text} (braceless : ∀ c ∈ b, c ≠ '{' ∧ c ≠ '}') (a : Text)
    (depth : Nat) (quoting : Quoting) :
    braceDepthFrom depth quoting (a ++ b) = braceDepthFrom depth quoting a := by
  induction a generalizing depth quoting with
  | nil =>
    induction b generalizing quoting with
    | nil => rfl
    | cons c b ih =>
      rw [List.forall_mem_cons] at braceless
      have rest := fun quoting => ih braceless.2 quoting
      simp only [List.nil_append, braceDepthFrom] at rest ⊢
      cases quoting with
      | outside =>
        simp only [braceDepthFrom, if_neg braceless.1.1, if_neg braceless.1.2, rest, ite_self]
      | inside q => simp only [braceDepthFrom, rest, ite_self]
      | escaped q => simp only [braceDepthFrom, rest]
  | cons c a ih =>
    cases quoting with
    | outside | inside q | escaped q => simp only [List.cons_append, braceDepthFrom, ih]

/-- The type of a header follows a lead, at which the declaration begins as it does in front of the
name. -/
theorem exists_lead_of_header? {before : Text} {header : Header}
    (h : header? before = some header) :
    ∃ rest, before = header.before ++ rest ∧
      Lead modifierWords ((cutSegment header.before).2 ++ rest) header.modifiers rest ∧
      HeaderItem.read rest = .type ∧ isReturnType (dropQualifiers rest.trim) = true ∧
      (∀ d ∈ rest, endsStatement d = false) ∧ (cutSegment header.before).1 = (cutSegment before).1 ∧
      braceDepth header.before = braceDepth before := by
  obtain ⟨rest, read, type, isType, place⟩ := header?_eq_some_iff.1 h
  obtain ⟨lead, stops⟩ := lead_of_readItems? (Nat.le_refl _) read
  obtain ⟨c, more, whole, starts⟩ := exists_of_header? h
  obtain ⟨passed, split⟩ := lead.suffix
  have front : header.before = (cutSegment before).1 ++ passed := by
    rw [place, ← split, List.length_append, Nat.add_sub_cancel, List.take_left]
  have whole' : before = header.before ++ rest := by
    rw [front, List.append_assoc, split, cutSegment_append]
  obtain rfl : rest = c :: more := List.append_cancel_left (whole'.symm.trans whole)
  have other : c ≠ ':' := by
    rintro rfl
    exact absurd starts (by decide)
  have cut : cutSegment header.before = ((cutSegment before).1, passed) := by
    rw [front]
    exact cutSegment_of_inside rfl split.symm other
  have inside : ∀ d ∈ c :: more, endsStatement d = false := fun d mem =>
    endsStatement_of_mem_segment d (split ▸ List.mem_append_right passed mem)
  have braceless : ∀ d ∈ c :: more, d ≠ '{' ∧ d ≠ '}' := by
    intro d mem
    constructor <;> rintro rfl <;> exact absurd (inside _ mem) (by decide)
  refine ⟨c :: more, whole', ?_, stops, type ▸ isType, inside, ?_, ?_⟩
  · rw [cut, split]
    exact lead
  · rw [cut]
  · rw [whole', braceDepth, braceDepth, braceDepthFrom_append braceless]

/-- The modifiers of a header are those of the lead, if a type follows it. -/
theorem map_modifiers_header? {before rest : Text} {words : List Text}
    (lead : Lead modifierWords (cutSegment before).2 words rest)
    (visible : ∀ c ∈ rest.head?, isAsciiBlank c = false) (type : HeaderItem.read rest = .type) :
    (header? before).map Header.modifiers =
      if isReturnType (dropQualifiers rest.trim) = true then some words else none := by
  have read :
      readItems? (cutSegment before).2.length (cutSegment before).2 = some (words, rest) := by
    rw [lead.readItems? (Nat.le_refl _), readItems?_type visible type, Option.map_some,
      List.append_nil]
  simp only [header?, Option.bind_eq_bind, read, Option.bind_some, Option.pure_def]
  cases isReturnType (dropQualifiers rest.trim) <;> rfl

theorem header?_eq_none {before rest : Text} {words : List Text}
    (lead : Lead modifierWords (cutSegment before).2 words rest)
    (visible : ∀ c ∈ rest.head?, isAsciiBlank c = false)
    (unclosed : HeaderItem.read rest = .unclosed) : header? before = none := by
  have read : readItems? (cutSegment before).2.length (cutSegment before).2 = none := by
    rw [lead.readItems? (Nat.le_refl _), readItems?_unclosed visible unclosed (Nat.le_refl _)]
    rfl
  simp only [header?, Option.bind_eq_bind, read, Option.bind_none]

end HarnessSynthesis.TypedSource
