/-
# Arrays of numbers with a derived type

An array of numbers without a declared type is written with the type of its first number. When all
numbers of two arrays fit their types, the arrays are written alike only if they are the same, up to
their canonical forms; an array with a number that does not fit is written like another one whose
numbers do.
-/

import Mathlib.Logic.Function.Iterate
import HarnessSynthesis.Proofs.Harness.Calls
import HarnessSynthesis.Proofs.Literal.NumberLiterals
import HarnessSynthesis.Proofs.Text.Joined
import HarnessSynthesis.Proofs.Text.Search

namespace HarnessSynthesis

open Json

/-! ## Arrays of numbers -/

namespace Json

/-- Arrays of numbers, nested to a depth. -/
def NumberArray : (depth : Nat) → Type
  | 0 => HeldNumber
  | depth + 1 => List (NumberArray depth)

namespace NumberArray

/-- The schema type of the arrays of a depth. -/
def schemaType (depth : Nat) : SchemaType :=
  SchemaType.array^[depth] .number

variable {depth : Nat}

def value : {depth : Nat} → NumberArray depth → Value
  | 0, (n : HeldNumber) => .number n.1
  | _ + 1, (items : List (NumberArray _)) => .array (items.map value)

/-- The number that the type of all is taken from: the first one of the first element. -/
def sample? : {depth : Nat} → NumberArray depth → Option HeldNumber
  | 0, (n : HeldNumber) => some n
  | _ + 1, (items : List (NumberArray _)) => items.head?.bind sample?

def map (f : HeldNumber → HeldNumber) : {depth : Nat} → NumberArray depth → NumberArray depth
  | 0, (n : HeldNumber) => f n
  | _ + 1, (items : List (NumberArray _)) => List.map (map f) items

/-- Whether all numbers have a property. -/
def All (p : HeldNumber → Prop) : {depth : Nat} → NumberArray depth → Prop
  | 0, (n : HeldNumber) => p n
  | _ + 1, (items : List (NumberArray _)) => ∀ item ∈ items, All p item

/-- The type that the literals of an array are derived to have. -/
def literalType (u : NumberArray depth) : NativeType :=
  NativeType.ofNumber? (u.sample?.map fun n => .number n.1)

end NumberArray

end Json

namespace Literal

variable {l : Language}

/-! ## Reading arrays -/

/-- Whether a text starts, and not with the end of an array. -/
def Opens (t : Text) : Prop :=
  ∃ c rest, t = c :: rest ∧ c ≠ '}'

theorem opens_native_number {t : NativeType} (derived : IsDerived t) (n : HeldNumber) :
    Opens (native l t (.number n.1)) := by
  have nothing : Closes [] := nofun
  have read := readLiteral?_native (l := l) derived n nothing
  rw [List.append_nil] at read
  cases text : native l t (.number n.1) with
  | nil =>
    rw [text] at read
    cases read
  | cons c rest =>
    refine ⟨c, rest, rfl, ?_⟩
    rintro rfl
    rw [text] at read
    cases read

/-- What stands in front of the elements of an array. -/
def heading (l : Language) (element : NativeType) : Text :=
  if l = .cpp then []
  else
    let (base, dimensions) := (NativeType.array element).arrayBase
    "new " ++ base.render l false ++ Text.repeated dimensions "[]"

theorem native_sequence (element : NativeType) (items : List Value) :
    native l (NativeType.sequence l element) (.array items) =
      heading l element ++
        '{' :: (Text.join ", " (items.map (native l element)) ++ ['}']) := by
  rw [NativeType.sequence, heading]
  by_cases cpp : l = .cpp
  · rw [if_pos cpp, if_pos cpp, native_list rfl]
    simp only [if_pos cpp, Value.items?, Option.getD_some, List.cons_append, List.nil_append]
  · rw [if_neg cpp, if_neg cpp, native_array rfl]
    simp only [if_neg cpp, Value.items?, Option.getD_some, List.cons_append, List.nil_append,
      List.append_assoc]

theorem opens_native_sequence (element : NativeType) (items : List Value) :
    Opens (native l (NativeType.sequence l element) (.array items)) := by
  rw [native_sequence, heading]
  split
  · exact ⟨'{', _, rfl, by decide⟩
  · exact ⟨'n', _, rfl, by decide⟩

theorem arrayBase_sequence (other : l ≠ .cpp) {t : NativeType} (derived : IsDerived t) :
    ∀ depth, ((NativeType.sequence l)^[depth] t).arrayBase = (t, depth)
  | 0 => by rcases derived with rfl | rfl | rfl <;> rfl
  | depth + 1 => by
    rw [Function.iterate_succ_apply', NativeType.sequence, if_neg other, NativeType.arrayBase,
      arrayBase_sequence other derived depth]

/-- No brace stands in front of the elements of an array of numbers. -/
theorem not_mem_heading {t : NativeType} (derived : IsDerived t) (depth : Nat) :
    '{' ∉ heading l ((NativeType.sequence l)^[depth] t) := by
  rw [heading]
  split
  · exact List.not_mem_nil
  · rename_i other
    have brackets : '{' ∉ Text.repeated (depth + 1) "[]" := by
      rw [Text.repeated, List.mem_flatten]
      rintro ⟨piece, mem, inside⟩
      rw [List.eq_of_mem_replicate mem] at inside
      exact absurd inside (by decide)
    have spelled : '{' ∉ t.render l false := by
      rw [NativeType.render, if_neg other]
      rcases derived with rfl | rfl | rfl <;> decide
    simp only [NativeType.arrayBase, arrayBase_sequence other derived, List.mem_append, not_or]
    exact ⟨⟨by decide, spelled⟩, brackets⟩

section Elements

variable {α β γ : Type} {f : α → Text} {g : β → Text} {p : α → γ} {q : β → γ}

theorem closes_further (xs : List α) (rest : Text) :
    Closes (xs.flatMap (fun x => ", ".toList ++ f x) ++ '}' :: rest) := by
  intro c found
  cases xs with
  | nil => exact Or.inr (Option.some.inj found).symm
  | cons x xs => exact Or.inl (Option.some.inj found).symm

/-- Further elements are told apart when the elements are. -/
theorem further_inj
    (same : ∀ a b {r r' : Text}, Closes r → Closes r' → f a ++ r = g b ++ r' → p a = q b ∧ r = r') :
    ∀ (xs : List α) (ys : List β) {r r' : Text},
      xs.flatMap (fun x => ", ".toList ++ f x) ++ '}' :: r =
        ys.flatMap (fun y => ", ".toList ++ g y) ++ '}' :: r' →
      xs.map p = ys.map q ∧ r = r'
  | [], [], _, _, texts => ⟨rfl, (List.cons.inj texts).2⟩
  | [], _ :: _, _, _, texts => absurd (List.cons.inj texts).1 (by decide)
  | _ :: _, [], _, _, texts => absurd (List.cons.inj texts).1 (by decide)
  | x :: xs, y :: ys, r, r', texts => by
    simp only [List.flatMap_cons, List.append_assoc] at texts
    obtain ⟨first, others⟩ := same x y (closes_further xs r) (closes_further ys r')
      (List.append_cancel_left texts)
    obtain ⟨further, rests⟩ := further_inj same xs ys others
    rw [List.map_cons, List.map_cons, first, further]
    exact ⟨rfl, rests⟩

theorem join_eq_flatMap (x : α) (xs : List α) (f : α → Text) :
    Text.join ", " ((x :: xs).map f) = f x ++ xs.flatMap fun x => ", ".toList ++ f x := by
  induction xs generalizing x with
  | nil => exact (List.append_nil _).symm
  | cons y ys ih =>
    rw [List.map_cons, Text.join_cons_of_ne_nil (by simp), ih, List.flatMap_cons, List.append_assoc]

/-- Elements between braces are told apart when each of them is. -/
theorem elements_inj
    (same : ∀ a b {r r' : Text}, Closes r → Closes r' → f a ++ r = g b ++ r' → p a = q b ∧ r = r')
    (opens : ∀ a, Opens (f a)) (opens' : ∀ b, Opens (g b)) (xs : List α) (ys : List β)
    {r r' : Text}
    (texts : Text.join ", " (xs.map f) ++ '}' :: r = Text.join ", " (ys.map g) ++ '}' :: r') :
    xs.map p = ys.map q ∧ r = r' := by
  match xs, ys with
  | [], [] => exact ⟨rfl, (List.cons.inj texts).2⟩
  | [], y :: ys =>
    obtain ⟨c, rest, start, other⟩ := opens' y
    rw [join_eq_flatMap, start] at texts
    exact absurd (List.cons.inj texts).1.symm other
  | x :: xs, [] =>
    obtain ⟨c, rest, start, other⟩ := opens x
    rw [join_eq_flatMap, start] at texts
    exact absurd (List.cons.inj texts).1 other
  | x :: xs, y :: ys =>
    rw [join_eq_flatMap, join_eq_flatMap, List.append_assoc, List.append_assoc] at texts
    obtain ⟨first, others⟩ := same x y (closes_further xs r) (closes_further ys r') texts
    obtain ⟨further, rests⟩ := further_inj same xs ys others
    rw [List.map_cons, List.map_cons, first, further]
    exact ⟨rfl, rests⟩

end Elements

open Json.NumberArray

variable {depth : Nat}

/-- Two arrays of numbers are written alike only when their literals stand for the same numbers,
whatever types the literals have. -/
theorem native_value_inj {t t' : NativeType} (derived : IsDerived t) (derived' : IsDerived t') :
    ∀ {depth : Nat} (u v : NumberArray depth) {r r' : Text}, Closes r → Closes r' →
      native l ((NativeType.sequence l)^[depth] t) u.value ++ r =
        native l ((NativeType.sequence l)^[depth] t') v.value ++ r' →
      u.map (HeldNumber.denoted t) = v.map (HeldNumber.denoted t') ∧ r = r'
  | 0, (n : HeldNumber), (m : HeldNumber), r, r', closes, closes', texts => by
    have read := readLiteral?_native (l := l) derived n closes
    have text : native l t (.number n.1) ++ r = native l t' (.number m.1) ++ r' := texts
    rw [text, readLiteral?_native derived' m closes'] at read
    obtain ⟨same, rests⟩ := Prod.mk.inj (Option.some.inj read)
    exact ⟨Subtype.ext same.symm, rests.symm⟩
  | depth + 1, (items : List (NumberArray depth)), (items' : List (NumberArray depth)), r, r',
      closes, closes', texts => by
    have opens {s : NativeType} (derived : IsDerived s) : ∀ w : NumberArray depth,
        Opens (native l ((NativeType.sequence l)^[depth] s) w.value) := by
      intro w
      cases depth with
      | zero => exact opens_native_number derived w
      | succ depth =>
        rw [Function.iterate_succ_apply']
        exact opens_native_sequence _ _
    rw [Function.iterate_succ_apply', Function.iterate_succ_apply'] at texts
    simp only [value, native_sequence, List.append_assoc, List.cons_append, List.map_map] at texts
    have cut := congrArg (Text.cut? ['{']) texts
    have found {s : NativeType} (derived : IsDerived s) (rest : Text) :
        Text.cut? ['{'] (heading l ((NativeType.sequence l)^[depth] s) ++ '{' :: rest) =
          some (heading l ((NativeType.sequence l)^[depth] s), rest) :=
      Text.cut?_singleton_of_not_mem (not_mem_heading derived depth)
    rw [found derived, found derived'] at cut
    have inside := (Prod.mk.inj (Option.some.inj cut)).2
    exact elements_inj (fun a b => native_value_inj derived derived' a b) (opens derived)
      (opens derived') items items' inside

/-! ## Arrays with a derived type -/

theorem isNull_value {depth : Nat} (u : NumberArray depth) : u.value.isNull = false := by
  cases depth <;> rfl

theorem sampleElement?_value (items : List (NumberArray depth)) :
    NativeType.sampleElement? (@value (depth + 1) items) = items.head?.map value := by
  cases items with
  | nil => rfl
  | cons u items =>
    have present : (!u.value.isNull) = true := by rw [isNull_value, Bool.not_false]
    have first : (u.value :: items.map value).find? (fun item => !item.isNull) = some u.value :=
      List.find?_cons_of_pos present
    exact first

theorem derive_schemaType : ∀ {depth : Nat} (u : Option (NumberArray depth)),
    NativeType.derive l (schemaType depth) (u.map value) =
      (NativeType.sequence l)^[depth]
        (NativeType.ofNumber? ((u.bind sample?).map fun n => .number n.1))
  | 0, none | 0, some _ => rfl
  | depth + 1, u => by
    have sample : (u.map value).bind NativeType.sampleElement? =
        (u.bind (List.head? (α := NumberArray depth))).map value := by
      cases u with
      | none => rfl
      | some items => exact sampleElement?_value items
    have first : u.bind sample? = (u.bind (List.head? (α := NumberArray depth))).bind sample? := by
      cases u <;> rfl
    rw [schemaType, Function.iterate_succ_apply', NativeType.derive, sample, ← schemaType,
      derive_schemaType, Function.iterate_succ_apply', first]

theorem write_value (family : l.isCFamily = true) (u : NumberArray depth) :
    write l (schemaType depth) none u.value =
      native l ((NativeType.sequence l)^[depth] u.literalType) u.value := by
  rw [write, if_pos family]
  exact congrArg (native l · u.value) (derive_schemaType (some u))

theorem native_map_denoted {t : NativeType} (derived : IsDerived t) :
    ∀ {depth : Nat} (u : NumberArray depth),
      native l ((NativeType.sequence l)^[depth] t) (u.map (HeldNumber.denoted t)).value =
        native l ((NativeType.sequence l)^[depth] t) u.value
  | 0, n => native_denoted derived n
  | depth + 1, (items : List (NumberArray depth)) => by
    have texts : items.map (native l ((NativeType.sequence l)^[depth] t) ∘ value ∘
        NumberArray.map (HeldNumber.denoted t)) =
        items.map (native l ((NativeType.sequence l)^[depth] t) ∘ value) :=
      List.map_congr_left fun item _ => native_map_denoted derived item
    rw [Function.iterate_succ_apply']
    simp only [value, NumberArray.map, native_sequence, List.map_map, texts]

end Literal

namespace Json.NumberArray

variable {depth : Nat}

theorem all_map {p : HeldNumber → Prop} (f : HeldNumber → HeldNumber) :
    ∀ {depth : Nat} (u : NumberArray depth), (∀ n, p (f n)) → All p (u.map f)
  | 0, n, all => all n
  | _ + 1, (items : List (NumberArray _)), all => by
    refine List.forall_mem_map.2 fun item _ => all_map f item all

theorem sample?_map (f : HeldNumber → HeldNumber) :
    ∀ {depth : Nat} (u : NumberArray depth), (u.map f).sample? = u.sample?.map f
  | 0, _ => rfl
  | _ + 1, [] => rfl
  | _ + 1, item :: _ => sample?_map f item

theorem literalType_map_denoted (u : NumberArray depth) :
    (u.map (HeldNumber.denoted u.literalType)).literalType = u.literalType := by
  rw [literalType, sample?_map]
  cases found : u.sample? with
  | none =>
    rw [literalType, found]
    rfl
  | some n =>
    have first : u.literalType = n.literalType := by
      rw [literalType, found]
      rfl
    rw [first]
    exact n.literalType_denoted

/-- Replacing numbers leaves the canonical form of an array alone exactly when it leaves the one of
every number alone. -/
theorem canonical_map_iff (f : HeldNumber → HeldNumber) : ∀ {depth : Nat} (u : NumberArray depth),
    (u.map f).value.canonical = u.value.canonical ↔
      u.All fun n => (f n).1.canonical? = n.1.canonical?
  | 0, (n : HeldNumber) => by
    have canonical (m : HeldNumber) : (Value.number m.1).canonical =
        (m.1.canonical?).elim .null .number := by
      rw [Value.canonical]
      cases m.1.canonical? <;> rfl
    have same : (Value.number (f n).1).canonical = (Value.number n.1).canonical ↔
        (f n).1.canonical? = n.1.canonical? := by
      rw [canonical, canonical]
      cases (f n).1.canonical? <;> cases n.1.canonical? <;> simp
    exact same
  | _ + 1, (items : List (NumberArray _)) => by
    simp only [NumberArray.map, value, Value.canonical, Value.canonicalItems_eq_map, List.map_map,
      Value.array.injEq, All]
    rw [List.map_inj_left]
    exact forall₂_congr fun item _ => canonical_map_iff f item

end Json.NumberArray

namespace Literal

open Json.NumberArray

/-! ## Literals that tell numbers apart -/

variable {l : Language} {depth : Nat}

/-- Arrays whose numbers fit are written alike only when their canonical forms are the same, and
every other one is written like an array that fits and differs. -/
theorem fits_iff (family : l.isCFamily = true) (u : NumberArray depth) :
    u.All (fun n => n.1.fits u.literalType = true) ↔
      ∀ v : NumberArray depth, v.All (fun n => n.1.fits v.literalType = true) →
        write l (schemaType depth) none u.value = write l (schemaType depth) none v.value →
          u.value.canonical = v.value.canonical := by
  have derived (w : NumberArray depth) : IsDerived w.literalType := isDerived_ofNumber? _
  have kept (w : NumberArray depth) : All (fun n => n.1.fits w.literalType = true) w ↔
      (w.map (HeldNumber.denoted w.literalType)).value.canonical = w.value.canonical := by
    rw [canonical_map_iff]
    simp only [HeldNumber.canonical?_denoted_iff]
  constructor
  · intro fits v fits' same
    rw [write_value family, write_value family] at same
    have nothing : Closes [] := nofun
    have stands := (native_value_inj (derived u) (derived v) u v nothing nothing
      (congrArg (· ++ []) same)).1
    rw [← (kept u).1 fits, ← (kept v).1 fits', stands]
  · intro apart
    have first := u.literalType_map_denoted
    have fits := all_map (p := fun n => n.1.fits u.literalType = true) _ u
      fun n => n.fits_denoted u.literalType
    refine (kept u).2 (apart (u.map (HeldNumber.denoted u.literalType)) ?_ ?_).symm
    · rw [first]
      exact fits
    · rw [write_value family, write_value family, first, native_map_denoted (derived u)]

/-- What the literals of derived types tell apart. Among the arrays whose numbers all fit the type
of the first one, equal literals come from equal canonical forms, and each other array is written
like one of these. An integer is what its literal gives exactly when the type of the array holds it;
alone, when it is a signed word. -/
theorem write_numbers (family : l.isCFamily = true) :
    (∀ {depth : Nat} (u : NumberArray depth),
      u.All (fun n => n.1.fits u.literalType = true) ↔
        ∀ v : NumberArray depth, v.All (fun n => n.1.fits v.literalType = true) →
          write l (schemaType depth) none u.value = write l (schemaType depth) none v.value →
            u.value.canonical = v.value.canonical) ∧
    ∀ i : Int, Word.leastSigned 64 ≤ i → i ≤ Word.greatest 64 →
      (∀ t : NativeType, t = .int ∨ t = .long →
        (given? t (native l t (.int i)) = some i ↔ Word.fitsSigned (bits t) i = true)) ∧
      (given? (NativeType.ofNumber? (some (.int i))) (write l .number none (.int i)) = some i ↔
        i ≤ Word.greatestSigned 64) :=
  ⟨fits_iff family, fun _ least greatest =>
    ⟨fun _ integral => given?_native_iff integral least greatest,
      given?_write_iff family least greatest⟩⟩

/-- The least and the greatest integer of a document. -/
theorem write_numbers_java :
    Language.java.isCFamily = true ∧
      given? .long (write .java .number none (.int (Word.leastSigned 64))) =
        some (Word.leastSigned 64) ∧
      given? .long (write .java .number none (.int (Word.greatest 64))) ≠
        some (Word.greatest 64 : Int) := by
  have least := (write_numbers (l := .java) rfl).2 (Word.leastSigned 64) (by decide) (by decide)
  have greatest := (write_numbers (l := .java) rfl).2 (Word.greatest 64) (by decide) (by decide)
  exact ⟨rfl, least.2.2 (by decide), fun given => absurd (greatest.2.1 given) (by decide)⟩

/-- An array of integers has no room for a fraction. -/
theorem write_numbers_fraction :
    let ones : Value := .array [.int 1, .int 1]
    -- one and a half
    let other : Value :=
      .array [.int 1, .number (.binary (.finite false 6755399441055744 (-52)))]
    write .java (.array .number) none ones = "new int[]{1, 1}" ∧
      write .java (.array .number) none other = "new int[]{1, 1}" ∧
      ones.canonical ≠ other.canonical := by
  refine ⟨by decide +kernel, by decide +kernel, fun same => ?_⟩
  have whole : (Number.integer 1).canonical? = some (.integer 1) := rfl
  have half : (Number.binary (.finite false 6755399441055744 (-52))).canonical? =
      some (.binary (.finite false 6755399441055744 (-52))) := by decide
  simp only [Value.canonical, Value.canonicalItems, Value.int, whole, half, Value.array.injEq,
    List.cons.injEq, Value.number.injEq, reduceCtorEq, false_and, and_false] at same

end Literal

end HarnessSynthesis
