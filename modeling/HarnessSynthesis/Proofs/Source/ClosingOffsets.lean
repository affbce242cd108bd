/-
# Exact closing offsets

The parenthesis that closes another one is told without following it: from the one to the other the
parentheses are in pairs, and on the way there are always more opening ones than closing ones. This
holds of octets, so a part may end inside of a character.

A loop that counts what is open finds that parenthesis and no other one. Its count is the difference
of the two numbers in the octets it has passed. Where something is open, the loop goes on exactly as
long as the closing octets have not made up for the opening ones and for what was open in front.
-/

import HarnessSynthesis.Proofs.Source.BracketOffsets

namespace HarnessSynthesis.Source

open Text (utf8)

section Octets

variable {opening closing o : UInt8} {depth n : Nat} {os : List UInt8}

/-! ## Balanced octets -/

/-- Octets in which brackets of a kind come in pairs, one beside the other or inside of it. -/
inductive Balanced (opening closing : UInt8) : List UInt8 → Prop
  | nil : Balanced opening closing []
  | other {o : UInt8} {os : List UInt8} (noOpen : o ≠ opening) (noClose : o ≠ closing)
      (rest : Balanced opening closing os) : Balanced opening closing (o :: os)
  | pair {inside os : List UInt8} (within : Balanced opening closing inside)
      (rest : Balanced opening closing os) :
      Balanced opening closing (opening :: inside ++ closing :: os)

theorem Balanced.count_eq (differ : opening ≠ closing) (balanced : Balanced opening closing os) :
    os.count closing = os.count opening := by
  induction balanced with
  | nil => rfl
  | other noOpen noClose _ ih =>
    rw [List.count_cons_of_ne noClose, List.count_cons_of_ne noOpen, ih]
  | pair _ _ within rest =>
    rw [List.count_append, List.count_append, List.count_cons_of_ne differ, List.count_cons_self,
      List.count_cons_self, List.count_cons_of_ne differ.symm, within, rest]
    omega

/-- Octets that close `depth` brackets which are open in front of them, with pairs in between. -/
inductive BalancedBut (opening closing : UInt8) : (depth : Nat) → List UInt8 → Prop
  | pairs {os : List UInt8} (balanced : Balanced opening closing os) :
      BalancedBut opening closing 0 os
  | close {depth : Nat} {front os : List UInt8} (balanced : Balanced opening closing front)
      (rest : BalancedBut opening closing depth os) :
      BalancedBut opening closing (depth + 1) (front ++ closing :: os)

namespace BalancedBut

theorem cons_other (noOpen : o ≠ opening) (noClose : o ≠ closing)
    (balanced : BalancedBut opening closing depth os) :
    BalancedBut opening closing depth (o :: os) := by
  cases balanced with
  | pairs balanced => exact .pairs (balanced.other noOpen noClose)
  | close front rest => exact .close (front.other noOpen noClose) rest

theorem cons_closing (balanced : BalancedBut opening closing depth os) :
    BalancedBut opening closing (depth + 1) (closing :: os) :=
  .close .nil balanced

/-- One bracket more in front closes with the first of those that are closed. -/
theorem cons_opening (balanced : BalancedBut opening closing (depth + 1) os) :
    BalancedBut opening closing depth (opening :: os) := by
  obtain _ | ⟨inside, rest⟩ := balanced
  cases rest with
  | pairs balanced => exact .pairs (inside.pair balanced)
  | close front rest =>
    rw [← List.cons_append, ← List.cons_append, ← List.append_assoc]
    exact .close (inside.pair front) rest

end BalancedBut

/-! ## Where a count comes to its end -/

/-- The octets up to `n` are the first that close as many brackets as they open and `depth` more. -/
structure ClosesAfter (opening closing : UInt8) (depth : Nat) (os : List UInt8) (n : Nat) :
    Prop where
  count_eq : (os.take n).count closing = (os.take n).count opening + depth
  count_lt : ∀ m < n, (os.take m).count closing < (os.take m).count opening + depth

/-- How many brackets are open behind one more octet. -/
def openAfter (opening closing : UInt8) (depth : Nat) (o : UInt8) : Nat :=
  depth + [o].count opening - [o].count closing

theorem openAfter_opening (differ : opening ≠ closing) :
    openAfter opening closing depth opening = depth + 1 := by
  rw [openAfter, List.count_singleton_self, List.count_cons_of_ne differ, List.count_nil,
    Nat.sub_zero]

theorem openAfter_closing (differ : opening ≠ closing) :
    openAfter opening closing depth closing = depth - 1 := by
  rw [openAfter, List.count_singleton_self, List.count_cons_of_ne differ.symm, List.count_nil,
    Nat.add_zero]

theorem openAfter_other (noOpen : o ≠ opening) (noClose : o ≠ closing) :
    openAfter opening closing depth o = depth := by
  rw [openAfter, List.count_cons_of_ne noOpen, List.count_cons_of_ne noClose, List.count_nil,
    List.count_nil, Nat.add_zero, Nat.sub_zero]

theorem ClosesAfter.depth_eq_zero (closes : ClosesAfter opening closing depth os 0) :
    depth = 0 := by
  have counts := closes.count_eq
  rw [List.take_zero, List.count_nil, List.count_nil, Nat.zero_add] at counts
  exact counts.symm

theorem ClosesAfter.depth_pos (closes : ClosesAfter opening closing depth os (n + 1)) :
    0 < depth := by
  have fewer := closes.count_lt 0 n.succ_pos
  rwa [List.take_zero, List.count_nil, List.count_nil, Nat.zero_add] at fewer

theorem closesAfter_zero : ClosesAfter opening closing 0 os n ↔ n = 0 := by
  constructor
  · intro closes
    cases n with
    | zero => rfl
    | succ n => exact absurd closes.depth_pos (Nat.lt_irrefl 0)
  · rintro rfl
    exact ⟨rfl, fun m below => absurd below (Nat.not_lt_zero m)⟩

theorem not_closesAfter_nil (positive : 0 < depth) : ¬ ClosesAfter opening closing depth [] n := by
  intro closes
  have counts := closes.count_eq
  rw [List.take_nil, List.count_nil, List.count_nil, Nat.zero_add] at counts
  exact Nat.ne_of_lt positive counts

/-- The first octet is counted in front of the others. -/
theorem closesAfter_cons (positive : 0 < depth) :
    ClosesAfter opening closing depth (o :: os) (n + 1) ↔
      ClosesAfter opening closing (openAfter opening closing depth o) os n := by
  have split (a : UInt8) (k : Nat) :
      ((o :: os).take (k + 1)).count a = [o].count a + (os.take k).count a := by
    rw [List.take_succ_cons, ← List.singleton_append, List.count_append]
  have atMostOne : [o].count closing ≤ 1 := List.count_le_length
  constructor
  · intro closes
    have counts := closes.count_eq
    rw [split, split] at counts
    refine ⟨by rw [openAfter]; omega, fun m below => ?_⟩
    have fewer := closes.count_lt (m + 1) (Nat.succ_lt_succ below)
    rw [split, split] at fewer
    rw [openAfter]
    omega
  · intro closes
    have counts := closes.count_eq
    rw [openAfter] at counts
    refine ⟨by rw [split, split]; omega, fun m below => ?_⟩
    cases m with
    | zero => rwa [List.take_zero, List.count_nil, List.count_nil, Nat.zero_add]
    | succ m =>
      have fewer := closes.count_lt m (Nat.lt_of_succ_lt_succ below)
      rw [openAfter] at fewer
      rw [split, split]
      omega

/-- The last of the octets is a closing one. -/
theorem ClosesAfter.getElem? (closes : ClosesAfter opening closing depth os (n + 1)) :
    os[n]? = some closing := by
  have counts := closes.count_eq
  have fewer := closes.count_lt n (Nat.lt_succ_self n)
  rw [List.take_add_one, List.count_append, List.count_append] at counts
  cases last : os[n]? with
  | none =>
    rw [last, Option.toList_none, List.count_nil, List.count_nil] at counts
    omega
  | some o =>
    by_cases same : o = closing
    · rw [same]
    · rw [last, Option.toList_some, List.count_cons_of_ne same, List.count_nil] at counts
      omega

/-- What a count passes is balanced but for the brackets that it closes. By induction on the octets:
each of them opens a pair, closes a bracket or does neither. -/
theorem ClosesAfter.balancedBut (differ : opening ≠ closing)
    (closes : ClosesAfter opening closing depth os n) :
    BalancedBut opening closing depth (os.take n) := by
  induction os generalizing depth n with
  | nil =>
    obtain rfl : depth = 0 :=
      Nat.eq_zero_of_not_pos fun positive => not_closesAfter_nil positive closes
    rw [List.take_nil]
    exact .pairs .nil
  | cons o os ih =>
    cases n with
    | zero =>
      rw [closes.depth_eq_zero]
      exact .pairs .nil
    | succ n =>
      have positive := closes.depth_pos
      have rest := (closesAfter_cons positive).1 closes
      rw [List.take_succ_cons]
      by_cases opens : o = opening
      · subst opens
        rw [openAfter_opening differ] at rest
        exact (ih rest).cons_opening
      · by_cases shuts : o = closing
        · subst shuts
          rw [openAfter_closing differ] at rest
          rw [← Nat.sub_add_cancel positive]
          exact (ih rest).cons_closing
        · rw [openAfter_other opens shuts] at rest
          exact (ih rest).cons_other opens shuts

end Octets

/-! ## The loop -/

section Loop

variable {opening closing : Char} {depth : Nat}

/-- A round of the loop: the last of the open brackets is closed, or the count goes on. -/
theorem closeFrom_cons (differ : opening.toUInt8 ≠ closing.toUInt8) (positive : 0 < depth)
    (offset : Nat) (o : UInt8) (os : List UInt8) :
    closeFrom opening closing offset depth (o :: os) =
      if openAfter opening.toUInt8 closing.toUInt8 depth o = 0 then .ok (some offset)
      else closeFrom opening closing (offset + 1)
        (openAfter opening.toUInt8 closing.toUInt8 depth o) os := by
  by_cases opens : o = opening.toUInt8
  · subst opens
    rw [openAfter_opening differ, if_neg depth.succ_ne_zero, closeFrom, if_pos rfl]
  · by_cases shuts : o = closing.toUInt8
    · subst shuts
      rw [openAfter_closing differ, closeFrom, if_neg opens, if_pos rfl,
        Checked.minus_of_le positive]
      cases depth - 1 <;> rfl
    · rw [openAfter_other opens shuts, if_neg (Nat.ne_of_gt positive), closeFrom, if_neg opens,
        if_neg shuts]

/-- Where something is open, the loop is not stopped, and it finds the offset at which the count
comes to its end. By induction on the octets, the count being what is open in front of them. -/
theorem exists_closeFrom (differ : opening.toUInt8 ≠ closing.toUInt8) (positive : 0 < depth)
    (offset : Nat) (os : List UInt8) :
    ∃ result, closeFrom opening closing offset depth os = .ok result ∧
      ∀ stop, result = some stop ↔ ∃ k, stop = offset + k ∧
        ClosesAfter opening.toUInt8 closing.toUInt8 depth os (k + 1) := by
  induction os generalizing depth offset with
  | nil =>
    refine ⟨none, rfl, fun stop => iff_of_false (Option.some_ne_none stop).symm ?_⟩
    rintro ⟨k, -, closes⟩
    exact not_closesAfter_nil positive closes
  | cons o os ih =>
    rw [closeFrom_cons differ positive]
    simp only [closesAfter_cons positive]
    by_cases done : openAfter opening.toUInt8 closing.toUInt8 depth o = 0
    · rw [if_pos done, done]
      refine ⟨some offset, rfl, fun stop => ?_⟩
      simp only [closesAfter_zero, exists_eq_right, Option.some_inj, Nat.add_zero, eq_comm]
    · rw [if_neg done]
      obtain ⟨result, run, found⟩ := ih (Nat.pos_of_ne_zero done) (offset + 1)
      refine ⟨result, run, fun stop => (found stop).trans ?_⟩
      constructor
      · rintro ⟨k, rfl, closes⟩
        exact ⟨k + 1, by omega, closes⟩
      · rintro ⟨k, rfl, closes⟩
        cases k with
        | zero => exact absurd closes.depth_eq_zero done
        | succ k => exact ⟨k, by omega, closes⟩

end Loop

/-! ## Closing parentheses -/

/-- The parenthesis at one offset of some octets is closed by the one at another: from the one to
the other parentheses are balanced, and every proper beginning of these octets opens more than it
closes. -/
structure ClosedAt (os : List UInt8) (start stop : Nat) : Prop where
  opening : os[start]? = some '('.toUInt8
  lt : start < stop
  closing : os[stop]? = some ')'.toUInt8
  balanced : Balanced '('.toUInt8 ')'.toUInt8 (os.extract start (stop + 1))
  count_lt : ∀ r, r <+: os.extract start (stop + 1) → r ≠ [] → r ≠ os.extract start (stop + 1) →
    r.count ')'.toUInt8 < r.count '('.toUInt8

section Behind

variable {os rest : List UInt8} {start k : Nat} (behind : os.drop start = '('.toUInt8 :: rest)
include behind

theorem getElem?_of_drop : os[start + 1 + k]? = rest[k]? := by
  rw [Nat.add_assoc, ← List.getElem?_drop, behind, Nat.add_comm, List.getElem?_cons_succ]

theorem extract_of_drop :
    os.extract start (start + 1 + k + 1) = '('.toUInt8 :: rest.take (k + 1) := by
  rw [List.extract_eq_take_drop, behind, show start + 1 + k + 1 - start = k + 1 + 1 by omega,
    List.take_succ_cons]

theorem ClosedAt.closesAfter (closed : ClosedAt os start (start + 1 + k)) :
    ClosesAfter '('.toUInt8 ')'.toUInt8 1 rest (k + 1) := by
  have differ : '('.toUInt8 ≠ ')'.toUInt8 := by decide
  have counts := closed.balanced.count_eq differ
  have fewer := closed.count_lt
  have closing := closed.closing
  rw [getElem?_of_drop behind] at closing
  obtain ⟨inside, -⟩ := List.getElem?_eq_some_iff.1 closing
  rw [extract_of_drop behind, List.count_cons_of_ne differ, List.count_cons_self] at counts
  rw [extract_of_drop behind] at fewer
  refine ⟨counts, fun m below => ?_⟩
  have front : '('.toUInt8 :: rest.take m <+: '('.toUInt8 :: rest.take (k + 1) :=
    (List.prefix_cons_inj _).2 (List.take_prefix_take_left (Nat.le_of_lt below))
  have shorter : '('.toUInt8 :: rest.take m ≠ '('.toUInt8 :: rest.take (k + 1) := by
    intro same
    have lengths := congrArg List.length same
    rw [List.length_cons, List.length_cons, List.length_take, List.length_take] at lengths
    omega
  have beginning := fewer _ front (List.cons_ne_nil _ _) shorter
  rwa [List.count_cons_of_ne differ, List.count_cons_self] at beginning

theorem ClosesAfter.closedAt (closes : ClosesAfter '('.toUInt8 ')'.toUInt8 1 rest (k + 1)) :
    ClosedAt os start (start + 1 + k) := by
  have differ : '('.toUInt8 ≠ ')'.toUInt8 := by decide
  have opening : os[start]? = some '('.toUInt8 := by
    rw [← Nat.add_zero start, ← List.getElem?_drop, behind, List.getElem?_cons_zero]
  have closing : os[start + 1 + k]? = some ')'.toUInt8 := by
    rw [getElem?_of_drop behind, closes.getElem?]
  refine ⟨opening, by omega, closing, ?_, ?_⟩
  · rw [extract_of_drop behind]
    obtain ⟨balanced⟩ := (closes.balancedBut differ).cons_opening
    exact balanced
  · rw [extract_of_drop behind]
    intro r front nonempty shorter
    obtain rfl | ⟨r, rfl, inside⟩ := List.prefix_cons_iff.1 front
    · exact absurd rfl nonempty
    · obtain ⟨inside, atMost⟩ := List.prefix_take_iff.1 inside
      have whole : r = rest.take r.length := List.prefix_iff_eq_take.1 inside
      have below : r.length < k + 1 := by
        refine Nat.lt_of_le_of_ne atMost fun same => shorter ?_
        rw [whole, same]
      have counts := closes.count_lt r.length below
      rw [← whole] at counts
      rwa [List.count_cons_of_ne differ, List.count_cons_self]

/-- A parenthesis is closed where a count that starts behind it comes to its end. -/
theorem closedAt_iff {stop : Nat} : ClosedAt os start stop ↔
    ∃ k, stop = start + 1 + k ∧ ClosesAfter '('.toUInt8 ')'.toUInt8 1 rest (k + 1) := by
  constructor
  · intro closed
    obtain ⟨k, rfl⟩ := Nat.exists_eq_add_of_le (Nat.succ_le_of_lt closed.lt)
    exact ⟨k, rfl, closed.closesAfter behind⟩
  · rintro ⟨k, rfl, closes⟩
    exact closes.closedAt behind

end Behind

/-- The loop finds the closing parenthesis wherever it starts. -/
theorem matchingParenAt_exact (t : Text) (start : Nat) :
    ∃ result, matchingParenAt t start = .ok result ∧
      ∀ stop, result = some stop ↔ ClosedAt (utf8 t) start stop := by
  by_cases here : (utf8 t)[start]? = some '('.toUInt8
  · obtain ⟨front, rest, rfl, rfl⟩ := Text.exists_of_getElem?_utf8 (by decide) here
    have behind : (utf8 (front ++ '(' :: rest)).drop front.octets = '('.toUInt8 :: utf8 rest := by
      rw [Text.drop_utf8_append, Text.utf8_cons_of_isAscii (by decide)]
    have differ : '('.toUInt8 ≠ ')'.toUInt8 := by decide
    obtain ⟨result, run, found⟩ :=
      exists_closeFrom differ Nat.one_pos (front.octets + 1) (utf8 rest)
    refine ⟨result, ?_, fun stop => (found stop).trans (closedAt_iff behind).symm⟩
    rw [matchingParenAt, if_pos here, Text.octetsFrom_append]
    exact run
  · refine ⟨none, if_neg here, fun stop => iff_of_false (Option.some_ne_none stop).symm ?_⟩
    intro closed
    exact here closed.opening

/-- The parenthesis that is found is the one that closes, and none is found only where none closes.
Counting up to it, the number of open ones is never lowered at zero. There is one such offset at
most, and it lies between two characters. -/
theorem matchingParen?_exact (t : Text) (start : Nat) :
    (∀ stop, matchingParen? t start = some stop ↔ ClosedAt (utf8 t) start stop) ∧
    (matchingParen? t start = none ↔ ∀ stop, ¬ ClosedAt (utf8 t) start stop) ∧
    matchingParenAt t start = .ok (matchingParen? t start) ∧
    ∀ stop, ClosedAt (utf8 t) start stop →
      t.IsBoundary stop ∧ ∀ other, ClosedAt (utf8 t) start other → other = stop := by
  have checked := matchingParenAt_eq t start
  have found : ∀ stop, matchingParen? t start = some stop ↔ ClosedAt (utf8 t) start stop := by
    obtain ⟨result, run, found⟩ := matchingParenAt_exact t start
    obtain rfl := Except.ok.inj (checked.symm.trans run)
    exact found
  refine ⟨found, ?_, checked, fun stop closed => ⟨?_, fun other closed' => ?_⟩⟩
  · rw [Option.eq_none_iff_forall_ne_some]
    exact forall_congr' fun stop => not_congr (found stop)
  · obtain ⟨front, rest, rfl, size⟩ := Text.exists_of_getElem?_utf8 (by decide) closed.closing
    exact ⟨front, ')' :: rest, rfl, size⟩
  · exact Option.some_inj.1 (((found other).2 closed').symm.trans ((found stop).2 closed))

/-- Parentheses within others are passed, and so are characters of two octets. -/
theorem matchingParen?_exact_nested :
    ClosedAt (utf8 "é(ü(a)é)x") 2 10 ∧ Text.IsBoundary "é(ü(a)é)x" 10 ∧
      ∀ stop, ¬ ClosedAt (utf8 "f(a") 1 stop := by
  have closed : ClosedAt (utf8 "é(ü(a)é)x") 2 10 :=
    ((matchingParen?_exact "é(ü(a)é)x" 2).1 10).1 (by decide)
  exact ⟨closed, ((matchingParen?_exact "é(ü(a)é)x" 2).2.2.2 10 closed).1,
    (matchingParen?_exact "f(a" 1).2.1.1 (by decide)⟩

end HarnessSynthesis.Source
