/-
# Text

Everything the library reads and writes is text, kept as a list of characters so that laws about it
are inductions. This module holds the operations every part shares: cutting at a given text,
trimming, splitting into lines and words, replacing, and measuring. Positions are counted in
octets of the UTF-8 encoding, which is the unit in which offsets are reported.
-/

import HarnessSynthesis.Text.Classes

namespace HarnessSynthesis

/-- A text is its list of characters. -/
abbrev Text := List Char

instance : Coe String Text := ⟨String.toList⟩

/-- Whether a text is in a list of texts can be decided. -/
instance decidableMem (t : Text) (ts : List Text) : Decidable (t ∈ ts) := inferInstance

namespace Text

/-! ## Octets -/

/-- Length of the UTF-8 encoding. -/
def octets : Text → Nat
  | [] => 0
  | c :: rest => c.utf8Size + octets rest

@[simp] theorem octets_nil : octets [] = 0 := rfl

@[simp] theorem octets_cons (c : Char) (t : Text) : octets (c :: t) = c.utf8Size + octets t := rfl

@[simp] theorem octets_append (s t : Text) : octets (s ++ t) = octets s + octets t := by
  induction s with
  | nil => simp
  | cons c s ih => simp [ih, Nat.add_assoc]

/-- The text before and after an offset, when the offset lies on a character boundary. -/
def splitAtOctet? (offset : Nat) : Text → Option (Text × Text)
  | [] => if offset = 0 then some ([], []) else none
  | c :: rest =>
    if offset = 0 then some ([], c :: rest)
    else if offset < c.utf8Size then none
    else (splitAtOctet? (offset - c.utf8Size) rest).map fun (before, after) => (c :: before, after)

/-- Splitting at the length of a first part gives the two parts back. -/
theorem splitAtOctet?_append (s t : Text) : splitAtOctet? (octets s) (s ++ t) = some (s, t) := by
  induction s with
  | nil => cases t <;> simp [splitAtOctet?]
  | cons c s ih =>
    have positive : 0 < c.utf8Size := Char.utf8Size_pos c
    simp only [octets_cons, List.cons_append, splitAtOctet?]
    rw [if_neg (by omega), if_neg (by omega), Nat.add_sub_cancel_left, ih]
    rfl

/-! ## Two parts of a text -/

/-- The two parts of a text behind one more character, when there are such parts. -/
def extend (c : Char) : Option (Text × Text) → Option (Text × Text)
  | some (front, rest) => some (c :: front, rest)
  | none => none

theorem extend_eq_map (c : Char) (parts : Option (Text × Text)) :
    extend c parts = parts.map fun p => (c :: p.1, p.2) := by
  cases parts <;> rfl

theorem extend_eq_some_iff {c : Char} {parts : Option (Text × Text)} {front rest : Text} :
    extend c parts = some (front, rest) ↔
      ∃ more, front = c :: more ∧ parts = some (more, rest) := by
  cases parts with
  | none => simp [extend]
  | some p =>
    obtain ⟨more, rest'⟩ := p
    simp only [extend, Option.some.injEq, Prod.mk.injEq]
    constructor
    · rintro ⟨rfl, rfl⟩
      exact ⟨more, rfl, rfl, rfl⟩
    · rintro ⟨_, rfl, rfl, rfl⟩
      exact ⟨rfl, rfl⟩

/-- The offset behind a first part, from one behind a character further on. -/
theorem map_extend (offset : Nat) (c : Char) (parts : Option (Text × Text)) :
    (extend c parts).map (fun p => offset + p.1.octets) =
      parts.map fun p => offset + c.utf8Size + p.1.octets := by
  cases parts with
  | none => rfl
  | some p =>
    show some (offset + (c.utf8Size + p.1.octets)) = some (offset + c.utf8Size + p.1.octets)
    rw [Nat.add_assoc]

/-! ## Starting, ending and containing -/

/-- What follows `start` in a text that begins with it. -/
def afterPrefix? : (start : Text) → Text → Option Text
  | [], t => some t
  | _ :: _, [] => none
  | p :: ps, c :: t => if p = c then afterPrefix? ps t else none

theorem afterPrefix?_eq_some_iff {start t rest : Text} :
    afterPrefix? start t = some rest ↔ t = start ++ rest := by
  induction start generalizing t with
  | nil => simp [afterPrefix?]
  | cons p ps ih =>
    cases t with
    | nil => simp [afterPrefix?]
    | cons c t =>
      by_cases same : p = c
      · subst same; simp [afterPrefix?, ih]
      · simp [afterPrefix?, same, Ne.symm same]

@[simp] theorem afterPrefix?_append (start rest : Text) :
    afterPrefix? start (start ++ rest) = some rest :=
  afterPrefix?_eq_some_iff.2 rfl

/-- Whether a text begins with `start`. -/
def startsWith (start t : Text) : Bool :=
  (afterPrefix? start t).isSome

/-- What precedes `ending` in a text that ends with it. -/
def beforeSuffix? (ending t : Text) : Option Text :=
  (afterPrefix? ending.reverse t.reverse).map List.reverse

theorem beforeSuffix?_eq_some_iff {ending t rest : Text} :
    beforeSuffix? ending t = some rest ↔ t = rest ++ ending := by
  simp only [beforeSuffix?, Option.map_eq_some_iff, afterPrefix?_eq_some_iff]
  constructor
  · rintro ⟨r, h, rfl⟩
    simpa using congrArg List.reverse h
  · rintro rfl
    exact ⟨rest.reverse, by simp, by simp⟩

/-- Whether a text ends with `ending`. -/
def endsWith (ending t : Text) : Bool :=
  (beforeSuffix? ending t).isSome

/-- The text around the first place where `needle` stands. -/
def cut? (needle : Text) : Text → Option (Text × Text)
  | [] => if needle = [] then some ([], []) else none
  | c :: t =>
    match afterPrefix? needle (c :: t) with
    | some after => some ([], after)
    | none => (cut? needle t).map fun (before, after) => (c :: before, after)

/-- A cut takes nothing away but the text it cuts at. -/
theorem eq_append_of_cut? {needle t before after : Text}
    (h : cut? needle t = some (before, after)) : t = before ++ needle ++ after := by
  induction t generalizing before with
  | nil =>
    simp only [cut?] at h
    split at h <;> simp_all
  | cons c t ih =>
    simp only [cut?] at h
    split at h
    · rename_i rest found
      obtain ⟨rfl, rfl⟩ := Prod.mk.inj (Option.some.inj h)
      simpa using afterPrefix?_eq_some_iff.1 found
    · obtain ⟨⟨b, a⟩, inner, same⟩ := Option.map_eq_some_iff.1 h
      obtain ⟨rfl, rfl⟩ := Prod.mk.inj same
      simp [ih inner]

/-- Whether `needle` stands anywhere in a text. -/
def contains (needle t : Text) : Bool :=
  (cut? needle t).isSome

/-! ## Trimming -/

/-- A text without its leading blanks. -/
def trimStart (t : Text) : Text :=
  t.dropWhile isBlank

/-- A text without the characters of a class at its end. -/
def dropEndWhile (p : Char → Bool) (t : Text) : Text :=
  (t.reverse.dropWhile p).reverse

/-- A text without its trailing blanks. -/
def trimEnd (t : Text) : Text :=
  dropEndWhile isBlank t

/-- A text without blanks at either end. -/
def trim (t : Text) : Text :=
  trimEnd (trimStart t)

/-- The longest end of a text within a class. -/
def takeEndWhile (p : Char → Bool) (t : Text) : Text :=
  (t.reverse.takeWhile p).reverse

theorem dropEndWhile_append_takeEndWhile (p : Char → Bool) (t : Text) :
    dropEndWhile p t ++ takeEndWhile p t = t := by
  rw [dropEndWhile, takeEndWhile, ← List.reverse_append, List.takeWhile_append_dropWhile,
    List.reverse_reverse]

theorem length_dropEndWhile_le (p : Char → Bool) (t : Text) :
    (dropEndWhile p t).length ≤ t.length := by
  have whole := congrArg List.length (dropEndWhile_append_takeEndWhile p t)
  rw [List.length_append] at whole
  exact Nat.le.intro whole

theorem length_trimEnd_le (t : Text) : t.trimEnd.length ≤ t.length :=
  length_dropEndWhile_le isBlank t

theorem length_trim_le (t : Text) : t.trim.length ≤ t.length :=
  Nat.le_trans (length_trimEnd_le _) (List.dropWhile_sublist isBlank).length_le

/-- A text without the copies of `ending` that close it. -/
def trimEndMatches (ending : Text) (t : Text) : Text :=
  if ending = [] then t
  else
    match _found : beforeSuffix? ending t with
    | some rest => trimEndMatches ending rest
    | none => t
  termination_by t.length
  decreasing_by
    have := beforeSuffix?_eq_some_iff.1 _found
    subst this
    have : ending.length ≠ 0 := by simpa using ‹¬ending = []›
    simp only [List.length_append]
    omega

theorem length_trimEndMatches_le (ending t : Text) :
    (trimEndMatches ending t).length ≤ t.length := by
  fun_induction trimEndMatches ending t with
  | case1 => exact Nat.le_refl _
  | case2 t _ rest found ih =>
    have := beforeSuffix?_eq_some_iff.1 found
    subst this
    simp only [List.length_append]
    omega
  | case3 => exact Nat.le_refl _

/-- A text without the copies of `start` that open it. -/
def trimStartMatches (start : Text) (t : Text) : Text :=
  if start = [] then t
  else
    match _found : afterPrefix? start t with
    | some rest => trimStartMatches start rest
    | none => t
  termination_by t.length
  decreasing_by
    have := afterPrefix?_eq_some_iff.1 _found
    subst this
    have : start.length ≠ 0 := by simpa using ‹¬start = []›
    simp only [List.length_append]
    omega

/-! ## Splitting and joining -/

/-- The pieces between the characters of a class; there is always one more than separators. -/
def splitWhere (p : Char → Bool) : Text → List Text
  | [] => [[]]
  | c :: t =>
    if p c then [] :: splitWhere p t
    else
      match splitWhere p t with
      | [] => [[c]]
      | piece :: pieces => (c :: piece) :: pieces

/-- The maximal runs of characters outside the blanks. -/
def words (t : Text) : List Text :=
  (splitWhere isBlank t).filter (· ≠ [])

/-- One line without its end: a line feed and at most one carriage return before it. -/
private def dropReturn (t : Text) : Text :=
  (beforeSuffix? ['\r'] t).getD t

/-- The lines of a text. A line feed ends a line, so a final one opens no further line, and only
a carriage return directly before a line feed belongs to the line's end. -/
def lines (t : Text) : List Text :=
  match (splitWhere (· == '\n') t).reverse with
  | [] => []
  | last :: ended =>
    ended.reverse.map dropReturn ++ (if last = [] then [] else [last])

/-- Pieces with a separator between neighbours. -/
def join (separator : Text) : List Text → Text
  | [] => []
  | [piece] => piece
  | piece :: pieces => piece ++ separator ++ join separator pieces

/-- Every copy of `needle`, found from the left without overlap, gives way to `replacement`. -/
def replace (needle replacement : Text) (t : Text) : Text :=
  if _empty : needle = [] then t
  else
    match _found : cut? needle t with
    | none => t
    | some (before, after) => before ++ replacement ++ replace needle replacement after
  termination_by t.length
  decreasing_by
    have := eq_append_of_cut? _found
    subst this
    have : needle.length ≠ 0 := by simpa using _empty
    simp only [List.length_append]
    omega

/-- A text repeated. -/
def repeated (count : Nat) (t : Text) : Text :=
  (List.replicate count t).flatten

/-- ASCII letters in lower case. The names compared without regard to case are ASCII, and no other
character has one of their letters as its lower case. -/
def lower (t : Text) : Text :=
  t.map lowerAscii

/-- The decimal digits of a natural number. -/
def ofNat (n : Nat) : Text :=
  if n < 10 then [Char.ofNat (48 + n)] else ofNat (n / 10) ++ [Char.ofNat (48 + n % 10)]

/-- An integer in decimal, the sign in front. -/
def ofInt : Int → Text
  | .ofNat n => ofNat n
  | .negSucc n => '-' :: ofNat (n + 1)

end Text

end HarnessSynthesis
