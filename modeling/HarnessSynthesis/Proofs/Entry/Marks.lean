/-
# Marked texts

A text is scanned twice: as it is, and with a word written in at some of its places. A marked text
stands for both. What a scan takes off the head of the one, it takes off the head of the other, as
long as the word is a word of its own: the character in front of it goes on with no name, and the
one behind it begins a type. Each part of a scan has its lemma here, which tells from the marked
text what is taken off either text.
-/

import HarnessSynthesis.Proofs.Entry.StaticPlaces

namespace HarnessSynthesis.TypedSource

open Source
open scoped Text.OfCharacters
open Text (isBlank isAsciiBlank isNameChar isNameStart isWordChar)

/-- Two readings that go on from what is related are related. -/
theorem rel_bind {α β γ δ : Type} {R : α → β → Prop} {S : γ → δ → Prop} {o : Option α}
    {o' : Option β} {f : α → Option γ} {g : β → Option δ} (related : Option.Rel R o o')
    (further : ∀ a b, R a b → Option.Rel S (f a) (g b)) : Option.Rel S (o.bind f) (o'.bind g) := by
  cases related with
  | none => exact .none
  | some both => exact further _ _ both

/-- A text of which some places are marked. -/
abbrev Marked := List (Bool × Char)

namespace Marked

/-! ## Both texts -/

/-- The text without the word. -/
def bare (m : Marked) : Text :=
  m.map Prod.snd

/-- What is written in front of a place. -/
def word (marked : Bool) : Text :=
  if marked then "static " else []

/-- The text with the word at each mark. -/
def written (m : Marked) : Text :=
  m.flatMap fun x => word x.1 ++ [x.2]

/-- A text without a mark. -/
def unmarked (t : Text) : Marked :=
  t.map (false, ·)

section Texts

variable {a b m : Marked} {k : Bool} {c : Char} {t u : Text}

@[simp] theorem bare_nil : bare [] = [] := rfl

@[simp] theorem bare_cons : bare ((k, c) :: m) = c :: bare m := rfl

@[simp] theorem bare_append : bare (a ++ b) = bare a ++ bare b := List.map_append

@[simp] theorem written_nil : written [] = [] := rfl

theorem written_cons : written ((k, c) :: m) = word k ++ c :: written m := by
  rw [written, List.flatMap_cons, List.append_assoc]
  rfl

@[simp] theorem written_cons_false : written ((false, c) :: m) = c :: written m := rfl

@[simp] theorem written_append : written (a ++ b) = written a ++ written b := List.flatMap_append

@[simp] theorem bare_unmarked : bare (unmarked t) = t := by
  rw [bare, unmarked, List.map_map]
  exact List.map_id t

@[simp] theorem written_unmarked : written (unmarked t) = t := by
  induction t with
  | nil => rfl
  | cons c t ih => exact congrArg (c :: ·) ih

theorem exists_of_bare_eq_append (h : bare m = t ++ u) :
    ∃ a b, m = a ++ b ∧ bare a = t ∧ bare b = u :=
  List.map_eq_append_iff.1 h

theorem exists_of_bare_eq_cons (h : bare m = c :: t) : ∃ k b, m = (k, c) :: b ∧ bare b = t := by
  obtain ⟨⟨k, d⟩, b, rfl, rfl, rest⟩ := List.map_eq_cons_iff.1 h
  exact ⟨k, b, rfl, rest⟩

@[simp] theorem length_bare : (bare m).length = m.length := List.length_map _

theorem length_le_length_written : m.length ≤ (written m).length := by
  induction m with
  | nil => exact Nat.le_refl _
  | cons x m ih =>
    obtain ⟨k, c⟩ := x
    rw [written_cons, List.length_append, List.length_cons, List.length_cons]
    omega

theorem getLast?_written : (written m).getLast? = (bare m).getLast? := by
  rcases List.eq_nil_or_concat m with rfl | ⟨m, ⟨k, c⟩, rfl⟩
  · rfl
  · rw [List.concat_eq_append, written_append, bare_append, written_cons, written_nil,
      ← List.append_assoc, List.getLast?_concat, bare_cons, bare_nil, List.getLast?_concat]

theorem written_eq_nil_iff : written m = [] ↔ m = [] := by
  cases m with
  | nil => exact iff_of_true rfl rfl
  | cons x m =>
    refine iff_of_false ?_ (List.cons_ne_nil _ _)
    rw [written_cons]
    simp

theorem mem_written {c : Char} (h : c ∈ written m) : c ∈ bare m ∨ c ∈ "static ".toList := by
  obtain ⟨⟨k, d⟩, mem, h⟩ := List.mem_flatMap.1 h
  rcases List.mem_append.1 h with word | here
  · cases k with
    | true => exact Or.inr word
    | false => cases word
  · rw [List.mem_singleton.1 here]
    exact Or.inl (List.mem_map.2 ⟨_, mem, rfl⟩)

theorem mem_written_of_mem_bare {c : Char} (h : c ∈ bare m) : c ∈ written m := by
  obtain ⟨⟨k, d⟩, mem, rfl⟩ := List.mem_map.1 h
  exact List.mem_flatMap.2 ⟨_, mem, List.mem_append_right _ (List.mem_singleton_self _)⟩

end Texts

/-! ## Marks at offsets -/

/-- A text with its places at offsets marked, of which `position` is the one of its first
character. -/
def mark (offsets : List Nat) : (position : Nat) → Text → Marked
  | _, [] => []
  | position, c :: t =>
    (decide (position ∈ offsets), c) :: mark offsets (position + c.utf8Size) t

@[simp] theorem bare_mark (offsets : List Nat) (position : Nat) (t : Text) :
    bare (mark offsets position t) = t := by
  induction t generalizing position with
  | nil => rfl
  | cons c t ih => exact congrArg (c :: ·) (ih _)

/-- The word is written in at offsets by marking them, if none is at the end. -/
theorem written_mark {offsets : List Nat} {position : Nat} {t : Text}
    (noEnd : position + Text.octets t ∉ offsets) :
    written (mark offsets position t) = insertAt "static " offsets position t := by
  induction t generalizing position with
  | nil => exact (if_neg noEnd).symm
  | cons c t ih =>
    rw [Text.octets_cons, ← Nat.add_assoc] at noEnd
    rw [mark, written_cons, ih noEnd, insertAt]
    by_cases mem : position ∈ offsets
    · rw [if_pos mem, word, if_pos (decide_eq_true mem)]
    · rw [if_neg mem, word, if_neg (by simpa using mem)]

theorem mark_eq_append_cons {offsets : List Nat} {position : Nat} {t : Text} {a b : Marked}
    {k : Bool} {c : Char} (h : mark offsets position t = a ++ (k, c) :: b) :
    k = true ↔ position + Text.octets (bare a) ∈ offsets := by
  induction t generalizing position a with
  | nil => simp [mark] at h
  | cons d t ih =>
    cases a with
    | nil =>
      obtain ⟨⟨rfl, -⟩, -⟩ := List.cons.inj h |>.imp_left Prod.mk.inj
      exact decide_eq_true_iff
    | cons x a =>
      obtain ⟨rfl, rest⟩ := List.cons.inj h
      rw [ih rest, bare_cons, Text.octets_cons, Nat.add_assoc]

/-! ## Words of their own -/

/-- Whether a character goes on with no name, so that a word can stand behind it. -/
structure Breaks (c : Char) : Prop where
  noWord : isWordChar c = false
  noName : isNameChar c = false
  noAnnotation : isAnnotationChar c = false
  noAt : c ≠ '@'

instance (c : Char) : Decidable (Breaks c) :=
  decidable_of_iff
    (isWordChar c = false ∧ isNameChar c = false ∧ isAnnotationChar c = false ∧ c ≠ '@')
    ⟨fun h => ⟨h.1, h.2.1, h.2.2.1, h.2.2.2⟩, fun h => ⟨h.1, h.2, h.3, h.4⟩⟩

/-- Whether the word is a word of its own at each mark. -/
structure Spaced (m : Marked) : Prop where
  starts : ∀ a c b, m = a ++ (true, c) :: b →
    StartsType c ∧ ∀ d ∈ (Text.trimStart (c :: bare b)).head?, isNameStart d = true ∨ d = '<'
  apart : ∀ a k d c b, m = a ++ (k, d) :: (true, c) :: b → Breaks d

/-- Whether a marked text does not start with a mark. -/
def Plain (m : Marked) : Prop :=
  ∀ x ∈ m.head?, x.1 = false

theorem plain_cons {k : Bool} {c : Char} {m : Marked} : Plain ((k, c) :: m) ↔ k = false :=
  ⟨fun plain => plain _ rfl, fun first x h => by cases h; exact first⟩

theorem Plain.left {a b : Marked} (plain : Plain (a ++ b)) : Plain a := by
  cases a with
  | nil => exact fun x first => nomatch first
  | cons x a => exact plain

theorem exists_of_not_plain {m : Marked} (marked : ¬ Plain m) : ∃ c b, m = (true, c) :: b := by
  cases m with
  | nil => exact absurd (fun x first => nomatch first) marked
  | cons x m =>
    obtain ⟨k, c⟩ := x
    rw [plain_cons, Bool.not_eq_false] at marked
    exact ⟨c, m, by rw [marked]⟩

namespace Spaced

variable {a b m : Marked}

theorem right (spaced : Spaced (a ++ b)) : Spaced b where
  starts a' c b' h := spaced.starts (a ++ a') c b' (by rw [h, List.append_assoc])
  apart a' k d c b' h := spaced.apart (a ++ a') k d c b' (by rw [h, List.append_assoc])

theorem left (spaced : Spaced (a ++ b)) : Spaced a where
  starts a' c b' h := by
    obtain ⟨starts, ahead⟩ := spaced.starts a' c (b' ++ b) (by
      rw [h, List.append_assoc, List.cons_append])
    refine ⟨starts, fun d found => ahead d ?_⟩
    rw [bare_append, ← List.cons_append, Text.trimStart, List.dropWhile_append]
    split
    · rename_i empty
      rw [Text.trimStart, List.isEmpty_iff.1 empty] at found
      cases found
    · rw [List.head?_append]
      rw [Text.trimStart] at found
      rw [Option.mem_def.1 found]
      rfl
  apart a' k d c b' h := spaced.apart a' k d c (b' ++ b) (by simp [h])

theorem tail {x : Bool × Char} (spaced : Spaced (x :: m)) : Spaced m :=
  right (a := [x]) spaced

/-- Without the mark in front nothing else changes. -/
theorem unmark {k : Bool} {c : Char} (spaced : Spaced ((k, c) :: m)) :
    Spaced ((false, c) :: m) where
  starts a d b h := by
    cases a with
    | nil => cases h
    | cons x a =>
      obtain ⟨-, rfl⟩ := List.cons.inj h
      exact spaced.tail.starts a d b rfl
  apart a k' d e b h := by
    cases a with
    | nil =>
      obtain ⟨first, rfl⟩ := List.cons.inj h
      obtain ⟨-, rfl⟩ := Prod.mk.inj first
      exact spaced.apart [] k c e b rfl
    | cons x a =>
      obtain ⟨-, rfl⟩ := List.cons.inj h
      exact spaced.tail.apart a k' d e b rfl

theorem startsType (spaced : Spaced m) {c : Char} (mem : (true, c) ∈ m) : StartsType c := by
  obtain ⟨a, b, rfl⟩ := List.append_of_mem mem
  exact (spaced.starts a c b rfl).1

theorem eq_false {k : Bool} {c : Char} (spaced : Spaced ((k, c) :: m)) (other : ¬ StartsType c) :
    k = false := by
  cases k with
  | false => rfl
  | true => exact absurd (spaced.startsType List.mem_cons_self) other

/-- Behind a character that does not break there is no mark. -/
theorem plain {k : Bool} {d : Char} (spaced : Spaced ((k, d) :: m)) (goesOn : ¬ Breaks d) :
    Plain m := by
  rintro ⟨k', c⟩ found
  cases m with
  | nil => cases found
  | cons x m =>
    cases found
    cases k' with
    | false => rfl
    | true => exact absurd (spaced.apart [] k d c m rfl) goesOn

end Spaced

/-! ## Runs -/

/-- Names have no break. -/
theorem not_breaks_of_isNameChar {c : Char} (h : isNameChar c = true) : ¬ Breaks c := by
  intro breaks
  rw [breaks.noName] at h
  cases h

theorem not_breaks_of_isWordChar {c : Char} (h : isWordChar c = true) : ¬ Breaks c := by
  intro breaks
  rw [breaks.noWord] at h
  cases h

theorem not_breaks_of_isAnnotationChar {c : Char} (h : isAnnotationChar c = true) :
    ¬ Breaks c := by
  intro breaks
  rw [breaks.noAnnotation] at h
  cases h

section Runs

variable {m : Marked} {p : Char → Bool}

theorem head?_bare (m : Marked) : (bare m).head? = m.head?.map Prod.snd := List.head?_map

theorem head?_written (plain : Plain m) : (written m).head? = m.head?.map Prod.snd := by
  cases m with
  | nil => rfl
  | cons x m =>
    obtain ⟨k, c⟩ := x
    obtain rfl := plain_cons.1 plain
    rfl

/-- A run of characters none of which breaks has no mark, and none behind it. -/
theorem exists_run (goesOn : ∀ c, p c = true → ¬ Breaks c) (spaced : Spaced m) (plain : Plain m) :
    ∃ run b, m = unmarked run ++ b ∧ (∀ c ∈ run, p c = true) ∧ Plain b ∧
      ∀ x ∈ b.head?, p x.2 = false := by
  induction m with
  | nil => exact ⟨[], [], rfl, nofun, plain, nofun⟩
  | cons x m ih =>
    obtain ⟨k, c⟩ := x
    obtain rfl := plain_cons.1 plain
    cases within : p c with
    | false =>
      refine ⟨[], (false, c) :: m, rfl, nofun, plain, ?_⟩
      rintro x ⟨⟩
      exact within
    | true =>
      obtain ⟨run, b, rfl, all, plain', stops⟩ := ih spaced.tail (spaced.plain (goesOn c within))
      exact ⟨c :: run, b, rfl, List.forall_mem_cons.2 ⟨within, all⟩, plain', stops⟩

/-- Both texts start with the same run. -/
theorem takeWhile_written (goesOn : ∀ c, p c = true → ¬ Breaks c) (spaced : Spaced m)
    (plain : Plain m) : (written m).takeWhile p = (bare m).takeWhile p := by
  obtain ⟨run, b, rfl, all, plain', stops⟩ := exists_run goesOn spaced plain
  have stops' (t : Text) (head : t.head? = b.head?.map Prod.snd) : ∀ c ∈ t.head?, p c = false := by
    rw [head]
    intro c found
    obtain ⟨x, first, rfl⟩ := Option.map_eq_some_iff.1 found
    exact stops x first
  rw [written_append, written_unmarked, bare_append, bare_unmarked,
    (Text.takeWhile_dropWhile_append all (stops' _ (head?_written plain'))).1,
    (Text.takeWhile_dropWhile_append all (stops' _ (head?_bare b))).1]

/-- What stops a run is not marked. -/
theorem exists_of_run {run t : Text} (goesOn : ∀ c, p c = true → ¬ Breaks c) (spaced : Spaced m)
    (plain : Plain m) (all : ∀ c ∈ run, p c = true) (stops : ∀ c ∈ t.head?, p c = false)
    (whole : bare m = run ++ t) : ∃ b, m = unmarked run ++ b ∧ Plain b ∧ bare b = t := by
  obtain ⟨run', b, rfl, all', plain', stops'⟩ := exists_run goesOn spaced plain
  have other : ∀ c ∈ (bare b).head?, p c = false := by
    rw [head?_bare]
    intro c found
    obtain ⟨x, head, rfl⟩ := Option.map_eq_some_iff.1 found
    exact stops' x head
  rw [bare_append, bare_unmarked] at whole
  obtain ⟨front, behind⟩ := Text.takeWhile_dropWhile_append all stops
  obtain ⟨front', behind'⟩ := Text.takeWhile_dropWhile_append all' other
  rw [← whole] at front behind
  obtain rfl : run' = run := front'.symm.trans front
  exact ⟨b, rfl, plain', behind'.symm.trans behind⟩

/-- Blanks up to a mark or another character. -/
theorem exists_gap (m : Marked) :
    ∃ gap b, m = unmarked gap ++ b ∧ Text.Blank gap ∧
      ∀ x ∈ b.head?, x.1 = true ∨ isBlank x.2 = false := by
  induction m with
  | nil => exact ⟨[], [], rfl, Text.blank_nil, nofun⟩
  | cons x m ih =>
    obtain ⟨k, c⟩ := x
    by_cases goesOn : k = false ∧ isBlank c = true
    · obtain ⟨rfl, blank⟩ := goesOn
      obtain ⟨gap, b, rfl, blanks, stops⟩ := ih
      exact ⟨c :: gap, b, rfl, Text.blank_cons.2 ⟨blank, blanks⟩, stops⟩
    · refine ⟨[], (k, c) :: m, rfl, Text.blank_nil, ?_⟩
      rintro x ⟨⟩
      cases k with
      | true => exact Or.inl rfl
      | false => exact Or.inr (Bool.eq_false_iff.2 fun blank => goesOn ⟨rfl, blank⟩)

/-- A prefix of characters that do not break is one of both texts or of neither. -/
theorem exists_of_isPrefix {w : Text} (goesOn : ∀ c ∈ w, ¬ Breaks c) (nonempty : w ≠ [])
    (spaced : Spaced m) (plain : Plain m) (front : w <+: bare m ∨ w <+: written m) :
    ∃ b, m = unmarked w ++ b ∧ Plain b := by
  induction w generalizing m with
  | nil => exact absurd rfl nonempty
  | cons d w ih =>
    cases m with
    | nil =>
      rw [bare_nil, written_nil, or_self] at front
      exact absurd (List.prefix_nil.1 front) nonempty
    | cons x m =>
      obtain ⟨k, c⟩ := x
      obtain rfl := plain_cons.1 plain
      rw [bare_cons, written_cons_false, List.cons_prefix_cons, List.cons_prefix_cons,
        ← and_or_left] at front
      obtain ⟨rfl, front⟩ := front
      rw [List.forall_mem_cons] at goesOn
      have plain' := spaced.plain goesOn.1
      by_cases last : w = []
      · exact ⟨m, by rw [last]; rfl, plain'⟩
      · obtain ⟨b, rfl, behind⟩ := ih goesOn.2 last spaced.tail plain' front
        exact ⟨b, rfl, behind⟩

/-- A word is read off both texts or off neither. -/
theorem afterPrefix?_cases {w : Text} (goesOn : ∀ c ∈ w, ¬ Breaks c) (nonempty : w ≠ [])
    (spaced : Spaced m) (plain : Plain m) :
    (∃ b, m = unmarked w ++ b ∧ Plain b ∧ Text.afterPrefix? w (bare m) = some (bare b) ∧
        Text.afterPrefix? w (written m) = some (written b)) ∨
      Text.afterPrefix? w (bare m) = none ∧ Text.afterPrefix? w (written m) = none := by
  by_cases front : w <+: bare m ∨ w <+: written m
  · obtain ⟨b, rfl, behind⟩ := exists_of_isPrefix goesOn nonempty spaced plain front
    refine Or.inl ⟨b, rfl, behind, ?_, ?_⟩
    · rw [bare_append, bare_unmarked, Text.afterPrefix?_append]
    · rw [written_append, written_unmarked, Text.afterPrefix?_append]
  · exact Or.inr ⟨Text.afterPrefix?_eq_none fun h => front (Or.inl h),
      Text.afterPrefix?_eq_none fun h => front (Or.inr h)⟩

end Runs

/-! ## Brackets and braces -/

section Brackets

variable {opening closing : Char} {depth : Nat}

/-- Text without brackets is passed over. -/
theorem closeBracket?_append {w : Text} (neutral : ∀ c ∈ w, c ≠ opening ∧ c ≠ closing) (t : Text) :
    closeBracket? opening closing depth (w ++ t) =
      (closeBracket? opening closing depth t).map fun p => (w ++ p.1, p.2) := by
  induction w with
  | nil => exact Option.map_id'.symm
  | cons c w ih =>
    rw [List.forall_mem_cons] at neutral
    simp only [List.cons_append, closeBracket?, if_neg neutral.1.1, if_neg neutral.1.2,
      ih neutral.2, Text.extend_eq_map, Option.map_map]
    rfl

/-- What a bracket closes in the two texts of a marked one. -/
def ClosedAt (closing : Char) (m : Marked) (p p' : Text × Text) : Prop :=
  ∃ a b, m = a ++ (false, closing) :: b ∧ p = (bare a, bare b) ∧ p' = (written a, written b)

theorem ClosedAt.extend {m : Marked} {x : Bool × Char} {p p' : Text × Text}
    (closed : ClosedAt closing m p p') :
    ClosedAt closing (x :: m) (x.2 :: p.1, p.2) (word x.1 ++ x.2 :: p'.1, p'.2) := by
  obtain ⟨a, b, rfl, rfl, rfl⟩ := closed
  refine ⟨x :: a, b, rfl, rfl, ?_⟩
  obtain ⟨k, c⟩ := x
  rw [written_cons]

/-- A bracket is closed in both texts by the same one. -/
theorem rel_closeBracket? (opening closing : Char) (depth : Nat)
    (neutral : ∀ c ∈ "static ".toList, c ≠ opening ∧ c ≠ closing) {m : Marked}
    (inside : ∀ c, (true, c) ∈ m → c ≠ closing) :
    Option.Rel (ClosedAt closing m) (closeBracket? opening closing depth (bare m))
      (closeBracket? opening closing depth (written m)) := by
  induction m generalizing depth with
  | nil => exact .none
  | cons x m ih =>
    obtain ⟨k, c⟩ := x
    have inside' : ∀ c, (true, c) ∈ m → c ≠ closing := fun c mem =>
      inside c (List.mem_cons_of_mem _ mem)
    have neutral' : ∀ d ∈ word k, d ≠ opening ∧ d ≠ closing := by
      intro d mem
      cases k with
      | true => exact neutral d mem
      | false => cases mem
    have further {depth' : Nat} : Option.Rel (ClosedAt closing ((k, c) :: m))
        (Text.extend c (closeBracket? opening closing depth' (bare m)))
        ((Text.extend c (closeBracket? opening closing depth' (written m))).map
          fun p => (word k ++ p.1, p.2)) := by
      have related := ih depth' inside'
      generalize closeBracket? opening closing depth' (bare m) = o at related ⊢
      generalize closeBracket? opening closing depth' (written m) = o' at related ⊢
      cases related with
      | none => exact .none
      | some closed => exact .some closed.extend
    rw [written_cons, closeBracket?_append neutral', bare_cons]
    simp only [closeBracket?]
    split
    · exact further
    · split
      · rename_i closes
        cases depth with
        | zero =>
          cases k with
          | true => exact absurd closes (inside c List.mem_cons_self)
          | false => exact .some ⟨[], m, by rw [closes]; rfl, rfl, rfl⟩
        | succ depth => exact further
      · exact further

end Brackets

section Braces

/-- Whether what a scan is inside of is quoted as in Java. -/
def Quotes : Quoting → Prop
  | .outside => True
  | .inside q | .escaped q => q = '"' ∨ q = '\''

/-- The state behind a character that opens and closes nothing: an escape is over with it. -/
def resumed : Quoting → Quoting
  | .escaped q => .inside q
  | quoting => quoting

theorem Quotes.resumed {quoting : Quoting} (quotes : Quotes quoting) :
    Quotes (Marked.resumed quoting) := by
  cases quoting <;> exact quotes

theorem resumed_resumed (quoting : Quoting) : resumed (resumed quoting) = resumed quoting := by
  cases quoting <;> rfl

/-- Whether a character opens and closes neither strings nor bodies. -/
def Braceless (c : Char) : Prop :=
  c ∉ ['"', '\'', '\\', '\n', '{', '}']

instance : DecidablePred Braceless :=
  fun _ => inferInstanceAs (Decidable (¬ _))

variable {depth : Nat} {quoting : Quoting}

theorem braceDepthFrom_braceless_cons {c : Char} (quotes : Quotes quoting) (idle : Braceless c)
    (t : Text) :
    braceDepthFrom depth quoting (c :: t) = braceDepthFrom depth (resumed quoting) t := by
  simp only [Braceless, List.mem_cons, List.not_mem_nil, or_false, not_or] at idle
  obtain ⟨noDouble, noSingle, noEscape, noFeed, noOpen, noClose⟩ := idle
  cases quoting with
  | outside => simp [braceDepthFrom, resumed, noDouble, noSingle, noOpen, noClose]
  | inside q =>
    have other : c ≠ q := by
      rintro rfl
      exact quotes.elim noDouble noSingle
    simp [braceDepthFrom, resumed, noEscape, noFeed, other]
  | escaped q => rfl

theorem braceDepthFrom_braceless_append {w : Text} (idle : ∀ c ∈ w, Braceless c)
    (quotes : Quotes quoting) (nonempty : w ≠ []) (t : Text) :
    braceDepthFrom depth quoting (w ++ t) = braceDepthFrom depth (resumed quoting) t := by
  induction w generalizing quoting with
  | nil => exact absurd rfl nonempty
  | cons c w ih =>
    rw [List.forall_mem_cons] at idle
    rw [List.cons_append, braceDepthFrom_braceless_cons quotes idle.1]
    by_cases last : w = []
    · rw [last]
      rfl
    · rw [ih idle.2 quotes.resumed last, resumed_resumed]

/-- As many braces are open behind both texts. -/
theorem braceDepthFrom_written {m : Marked} (quotes : Quotes quoting)
    (idle : ∀ c, (true, c) ∈ m → Braceless c) :
    braceDepthFrom depth quoting (written m) = braceDepthFrom depth quoting (bare m) := by
  induction m generalizing depth quoting with
  | nil => rfl
  | cons x m ih =>
    obtain ⟨k, c⟩ := x
    have rest (depth : Nat) (quoting : Quoting) (quotes : Quotes quoting) :
        braceDepthFrom depth quoting (written m) = braceDepthFrom depth quoting (bare m) :=
      ih quotes fun c mem => idle c (List.mem_cons_of_mem _ mem)
    cases k with
    | true =>
      have static : ∀ c ∈ "static ".toList, Braceless c := by decide
      have here := idle c List.mem_cons_self
      rw [written_cons, word, if_pos rfl, braceDepthFrom_braceless_append static quotes (by decide),
        braceDepthFrom_braceless_cons quotes.resumed here, bare_cons,
        braceDepthFrom_braceless_cons quotes here, resumed_resumed, rest _ _ quotes.resumed]
    | false =>
      rw [written_cons_false, bare_cons]
      cases quoting with
      | outside =>
        simp only [braceDepthFrom, rest _ .outside trivial]
        split
        · rename_i opens
          exact rest _ (.inside c) opens
        · rfl
      | inside q =>
        simp only [braceDepthFrom, rest _ .outside trivial, rest _ (.inside q) quotes,
          rest _ (.escaped q) quotes]
      | escaped q => exact rest _ (.inside q) quotes

end Braces

end Marked

end HarnessSynthesis.TypedSource
