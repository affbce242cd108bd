/-
# Numbers of documents

Every number that is read from a JSON text is an integer or a finite double in normal form. The
reader scales a word by powers of ten that are doubles: a product that overflows is refused, and a
quotient is no larger than the double that is divided. What holds of a document's numbers then holds
of its value's.
-/

import HarnessSynthesis.Proofs.Json.DoubleText
import HarnessSynthesis.Proofs.Json.Extension

namespace HarnessSynthesis

open Binary64

/-! ## Scaling -/

namespace Binary64

theorem proper_ofInt {i : Int} (word : i.natAbs ≤ Word.greatest 64) : (ofInt i).Proper := by
  refine proper_ofQuotient _ Nat.one_pos ?_
  rw [Nat.cast_one, div_one]
  exact natCast_le_largest (word.trans (by decide +kernel))

theorem proper_times {a b : Binary64} (finite : (a.times b).isFinite = true) :
    (a.times b).Proper := by
  cases a with
  | finite negative m e =>
    cases b with
    | finite negative' m' e' =>
      exact proper_of_isFinite (Nat.mul_pos (magnitude_eq m e).1 (magnitude_eq m' e').1) finite
    | infinite negative' | notANumber => cases finite
  | infinite negative | notANumber => cases finite

/-- A quotient by what is one at least is no larger than the double that is divided. -/
theorem proper_dividedBy {a : Binary64} (proper : a.Proper) {negative : Bool} {m : Nat} {e : Int}
    (one : (1 : ℚ) ≤ m * 2 ^ e) : (a.dividedBy (.finite negative m e)).Proper := by
  cases a with
  | infinite negative' | notANumber => exact proper.elim
  | finite negative' m' e' =>
    obtain ⟨hd, size⟩ := magnitude_eq m e
    obtain ⟨hd', size'⟩ := magnitude_eq m' e'
    have hn : 0 < (magnitude m e).1 := by
      by_contra zero
      rw [Nat.eq_zero_of_not_pos zero, Nat.cast_zero, zero_div] at size
      linarith
    have value : (((magnitude m' e').1 * (magnitude m e).2 : Nat) /
        ((magnitude m' e').2 * (magnitude m e).1 : Nat) : ℚ) = m' * 2 ^ e' / (m * 2 ^ e) := by
      rw [← size, ← size', div_div_div_eq, Nat.cast_mul, Nat.cast_mul]
    rw [dividedBy]
    dsimp only
    rw [if_neg hn.ne']
    refine proper_ofQuotient _ (Nat.mul_pos hd' hn) ?_
    rw [value]
    have positive : (0 : ℚ) ≤ m' * 2 ^ e' := by positivity
    exact (div_le_self positive one).trans (Normal.le_largest proper)

end Binary64

namespace Json.Spelling

theorem pow_ten_le : ∀ n ≤ 308, Nat.pow 10 n ≤ (2 ^ 53 - 1) * Nat.pow 2 maxExponent.toNat := by
  decide +kernel

theorem exists_powerOfTen {n : Nat} (within : n ≤ 308) :
    ∃ m e, powerOfTen n = .finite false m e ∧ (1 : ℚ) ≤ m * 2 ^ e := by
  have one : (1 : ℚ) ≤ (Nat.pow 10 n : Nat) / (1 : Nat) := by
    rw [Nat.cast_one, div_one, Nat.one_le_cast]
    exact Nat.pow_pos (by decide)
  have bound : ((Nat.pow 10 n : Nat) / (1 : Nat) : ℚ) ≤ largest := by
    rw [Nat.cast_one, div_one]
    exact natCast_le_largest (pow_ten_le n within)
  rcases ofQuotient_spec false (Nat.pow_pos (n := n) (by decide : 0 < 10)) Nat.one_pos with
    ⟨m, e, rounded, normal, near⟩ | ⟨-, above⟩
  · exact ⟨m, e, rounded, normal.one_le near one⟩
  · exact absurd bound (not_le.2 above)

theorem proper_scale? : ∀ {fuel : Nat} {f g : Binary64} {exponent : Int}, f.Proper →
    scale? fuel f exponent = some g → g.Proper
  | 0, f, g, exponent, proper, scaled => by
    cases scaled
    exact proper
  | fuel + 1, f, g, exponent, proper, scaled => by
    rw [scale?] at scaled
    split at scaled
    · rename_i within
      obtain ⟨m, e, power, one⟩ := exists_powerOfTen within
      split at scaled
      · dsimp only at scaled
        split at scaled
        · rename_i finite
          cases scaled
          exact proper_times finite
        · cases scaled
      · cases scaled
        rw [power]
        exact proper_dividedBy proper one
    · split at scaled
      · cases scaled
        exact proper
      · split at scaled
        · cases scaled
        · obtain ⟨m, e, power, one⟩ := exists_powerOfTen le_rfl
          rw [power] at scaled
          exact proper_scale? (proper_dividedBy proper one) scaled

/-! ## Spellings -/

theorem gather_le {word : Nat} (ds : Text) (bound : word ≤ Word.greatest 64) :
    (gather word ds).1 ≤ Word.greatest 64 := by
  induction ds generalizing word with
  | nil => exact bound
  | cons c rest ih =>
    rw [gather]
    split
    · exact bound
    · exact ih (by omega)

theorem word_scaled_le (s : Spelling) : s.scaled.word ≤ Word.greatest 64 := by
  have whole : (gather 0 s.whole).1 ≤ Word.greatest 64 := gather_le s.whole (Nat.zero_le _)
  cases fraction : s.fraction with
  | none => simpa only [scaled, fraction] using whole
  | some ds => simpa only [scaled, fraction] using gather_le ds whole

theorem proper_toBinary64? {word : Nat} (bound : word ≤ Word.greatest 64) {negative : Bool}
    {exponent : Int} {n : Number} (h : Scaled.toBinary64? negative ⟨word, exponent⟩ = some n) :
    n.Proper := by
  rw [Scaled.toBinary64?, Option.map_eq_some_iff] at h
  obtain ⟨f, scaled, rfl⟩ := h
  have proper := proper_scale? (proper_ofInt (by rwa [Int.natAbs_natCast])) scaled
  rw [Number.Proper]
  split
  · exact proper_opposite proper
  · exact proper

theorem proper_value? {s : Spelling} {n : Number} (h : s.value? = some n) : n.Proper := by
  have bound := word_scaled_le s
  rw [value?] at h
  dsimp only at h
  split at h
  · split at h
    · split at h
      · cases h
      · cases h
        exact proper_zero s.negative
    · exact proper_toBinary64? bound h
  · split at h
    · exact proper_toBinary64? bound h
    · split at h
      · split at h
        · cases h
          exact proper_opposite (proper_ofInt (by rwa [Int.natAbs_natCast]))
        · cases h
          trivial
      · cases h
        trivial

end Json.Spelling

/-! ## Documents -/

namespace Json.Node

mutual

/-- Whether every number of a document is an integer or a finite double in normal form. -/
def Proper : Node → Prop
  | .number (some n) => n.Proper
  | .array items => AllProper items
  | .object members => MembersProper members
  | _ => True
  termination_by structural n => n

def AllProper : List Node → Prop
  | [] => True
  | item :: rest => item.Proper ∧ AllProper rest
  termination_by structural items => items

def MembersProper : List (Option Text × Node) → Prop
  | [] => True
  | (_, node) :: rest => node.Proper ∧ MembersProper rest
  termination_by structural members => members

end

theorem proper_readNumber (t : Text) : (readNumber t).1.Proper := by
  rw [readNumber]
  split
  · rename_i spelling _ _
    cases value : spelling.value? with
    | none => trivial
    | some n => exact Spelling.proper_value? value
  · trivial

theorem proper_readWord (word : Text) {node : Node} (proper : node.Proper) (t : Text) :
    (readWord word node t).1.Proper := by
  rw [readWord]
  split
  · exact proper
  · trivial

theorem proper_readFrom (fuel : Nat) :
    (∀ t, (readFrom fuel t).1.Proper) ∧ (∀ t, AllProper (readItems fuel t).1) ∧
      ∀ t, MembersProper (readMembers fuel t).1 := by
  induction fuel with
  | zero => exact ⟨fun _ => trivial, fun _ => ⟨trivial, trivial⟩, fun _ => ⟨trivial, trivial⟩⟩
  | succ fuel ih =>
    obtain ⟨document, items, members⟩ := ih
    have null : Proper .null := trivial
    have bool (b : Bool) : Proper (.bool b) := trivial
    refine ⟨fun t => ?_, fun t => ?_, fun t => ?_⟩
    · rw [readFrom]
      split
      · exact proper_readWord _ null _
      · exact proper_readWord _ (bool true) _
      · exact proper_readWord _ (bool false) _
      · split <;> trivial
      · split
        · trivial
        · exact items _
      · split
        · trivial
        · exact members _
      · exact proper_readNumber _
    · rw [readItems]
      dsimp only
      split
      · exact ⟨document t, items _⟩
      · exact ⟨document t, trivial⟩
      · exact ⟨document t, trivial, trivial⟩
    · rw [readMembers]
      split
      · split
        · exact ⟨trivial, trivial⟩
        · split
          · dsimp only
            split
            · exact ⟨document _, members _⟩
            · exact ⟨document _, trivial⟩
            · exact ⟨document _, trivial, trivial⟩
          · exact ⟨trivial, trivial⟩
      · exact ⟨trivial, trivial⟩

theorem proper_read (t : Text) : (read t).1.Proper :=
  (proper_readFrom _).1 t

end Json.Node

/-! ## Values -/

namespace Json.Value

mutual

/-- Whether every number of a value is an integer or a finite double in normal form. -/
def Proper : Value → Prop
  | .number n => n.Proper
  | .array items => AllProper items
  | .object members => MembersProper members
  | _ => True
  termination_by structural v => v

def AllProper : List Value → Prop
  | [] => True
  | v :: rest => v.Proper ∧ AllProper rest
  termination_by structural items => items

def MembersProper : List (Text × Value) → Prop
  | [] => True
  | (_, v) :: rest => v.Proper ∧ MembersProper rest
  termination_by structural members => members

end

theorem membersProper_insertMember (name : Text) {v : Value} (proper : v.Proper)
    {members : List (Text × Value)} (all : MembersProper members) :
    MembersProper (insertMember name v members) := by
  induction members with
  | nil => exact ⟨proper, trivial⟩
  | cons member rest ih =>
    rw [insertMember]
    split
    · exact ⟨proper, all⟩
    · split
      · exact ⟨all.1, ih all.2⟩
      · exact ⟨proper, all.2⟩

theorem proper_ofMembers {members : List (Text × Value)} (all : MembersProper members) :
    (ofMembers members).Proper := by
  have sorted : MembersProper [] := trivial
  rw [ofMembers, Proper]
  generalize ([] : List (Text × Value)) = before at sorted ⊢
  induction members generalizing before with
  | nil => exact sorted
  | cons member rest ih =>
    exact ih all.2 _ (membersProper_insertMember member.1 all.1 sorted)

end Json.Value

namespace Json.Node

mutual

theorem proper_toValue? : ∀ {n : Node} {levels : Nat} {v : Value}, n.Proper →
    n.toValue? levels = some v → v.Proper
  | .null, _, _, _, h | .bool _, _, _, _, h => by
    cases h
    trivial
  | .number none, _, _, _, h | .broken, _, _, _, h => by cases h
  | .number (some n), _, _, proper, h => by
    cases h
    exact proper
  | .string s, _, _, _, h => by
    obtain ⟨_, -, rfl⟩ := Option.map_eq_some_iff.1 h
    trivial
  | .array items, levels, v, proper, h => by
    rw [toValue?, Option.ite_none_left_eq_some, Option.map_eq_some_iff] at h
    obtain ⟨-, vs, values, rfl⟩ := h
    exact allProper_toItems? proper values
  | .object members, levels, v, proper, h => by
    rw [toValue?, Option.ite_none_left_eq_some, Option.map_eq_some_iff] at h
    obtain ⟨-, vs, values, rfl⟩ := h
    exact Value.proper_ofMembers (membersProper_toMembers? proper values)

theorem allProper_toItems? : ∀ {items : List Node} {levels : Nat} {vs : List Value},
    AllProper items → toItems? levels items = some vs → Value.AllProper vs
  | [], _, _, _, h => by
    cases h
    trivial
  | item :: rest, levels, vs, proper, h => by
    simp only [toItems?, Option.pure_def, Option.bind_eq_bind, Option.bind_eq_some_iff,
      Option.some.injEq] at h
    obtain ⟨v, value, vs, values, rfl⟩ := h
    exact ⟨proper_toValue? proper.1 value, allProper_toItems? proper.2 values⟩

theorem membersProper_toMembers? : ∀ {members : List (Option Text × Node)} {levels : Nat}
    {vs : List (Text × Value)}, MembersProper members → toMembers? levels members = some vs →
      Value.MembersProper vs
  | [], _, _, _, h => by
    cases h
    trivial
  | (name, node) :: rest, levels, vs, proper, h => by
    simp only [toMembers?, Option.pure_def, Option.bind_eq_bind, Option.bind_eq_some_iff,
      Option.some.injEq] at h
    obtain ⟨s, -, v, value, vs, values, rfl⟩ := h
    exact ⟨proper_toValue? proper.1 value, membersProper_toMembers? proper.2 values⟩

end

end Json.Node

/-- Every number of a value that was read is an integer or a finite double in normal form. -/
theorem Json.Value.proper_of_parse? {t : Text} {v : Value} (h : parse? t = some v) : v.Proper := by
  obtain ⟨n, rest, read, value, -⟩ := exists_of_parse? h
  have proper := Node.proper_read t
  rw [read] at proper
  exact Node.proper_toValue? proper value

end HarnessSynthesis
