/-
# The choice of a candidate

Candidates of the right arity are ranked by four things, one after the other, and the one that ranks
first is called. Ranks are compared lexicographically, so they are in a linear order, and since the
candidates of a source stand at different places no two of them rank equal: whenever there is a
candidate of the right arity, one of them ranks before all others.

Where a candidate stands within braces is none of the four things. A call is made on an instance of
the solution class whenever the source has one, also if the candidate that ranks first is a function
outside every class. The last part states when that happens.
-/

import Mathlib.Data.List.Nodup
import Mathlib.Data.Prod.Lex
import Mathlib.Order.Lattice
import HarnessSynthesis.Harness.Plan

namespace HarnessSynthesis

open Json

/-! ## Ranks are in a linear order -/

namespace Rank

/-- What ranks are compared by, the first component first. -/
def key (r : Rank) : Bool ×ₗ Bool ×ₗ Bool ×ₗ Nat :=
  toLex (r.missesHint, toLex (r.noSolution, toLex (r.hidden, r.order)))

theorem before_iff_key_lt {a b : Rank} : a.before b = true ↔ a.key < b.key := by
  simp only [key, Prod.Lex.toLex_lt_toLex, before]
  cases a.missesHint <;> cases b.missesHint <;> cases a.noSolution <;> cases b.noSolution <;>
    cases a.hidden <;> cases b.hidden <;> simp

theorem order_eq_of_key_eq {a b : Rank} (same : a.key = b.key) : a.order = b.order := by
  simp only [key, toLex_inj, Prod.mk.injEq] at same
  exact same.2.2.2

theorem not_before_of_before {a b : Rank} (h : a.before b = true) : ¬ b.before a = true := by
  rw [before_iff_key_lt] at h ⊢
  exact lt_asymm h

end Rank

/-! ## The best of a list -/

section Best

variable {α β : Type} [LinearOrder β] {before : α → α → Bool} {k : α → β}

theorem exists_bestBy (before : α → α → Bool) (a : α) (rest : List α) :
    ∃ b, bestBy before (a :: rest) = some b := by
  rw [bestBy]
  split
  · exact ⟨_, rfl⟩
  · split
    · exact ⟨_, rfl⟩
    · exact ⟨_, rfl⟩

/-- The best of a list is an element of it with the least key. -/
theorem least_of_bestBy (keyed : ∀ a b, before a b = true ↔ k a < k b) {list : List α} {b : α}
    (best : bestBy before list = some b) : b ∈ list ∧ ∀ a ∈ list, k b ≤ k a := by
  induction list generalizing b with
  | nil => cases best
  | cons a rest ih =>
    rw [bestBy] at best
    split at best
    · rename_i nothing
      obtain rfl := Option.some.inj best
      cases rest with
      | nil => exact ⟨List.mem_cons_self, by simp⟩
      | cons c rest =>
        obtain ⟨d, something⟩ := exists_bestBy before c rest
        rw [something] at nothing
        cases nothing
    · rename_i c later
      obtain ⟨found, least⟩ := ih later
      split at best
      · rename_i better
        obtain rfl := Option.some.inj best
        refine ⟨List.mem_cons_of_mem a found, List.forall_mem_cons.2 ⟨?_, least⟩⟩
        exact le_of_lt ((keyed c a).1 better)
      · rename_i worse
        obtain rfl := Option.some.inj best
        have first : k a ≤ k c := le_of_not_gt fun better => worse ((keyed c a).2 better)
        refine ⟨List.mem_cons_self, List.forall_mem_cons.2 ⟨le_refl _, ?_⟩⟩
        intro d hd
        exact le_trans first (least d hd)

end Best

/-! ## Candidates stand at different places -/

section Repetitions

variable {α : Type} {same : α → α → Bool}

theorem eraseRepsBy_loop (a : α) (rest kept : List α) :
    List.eraseRepsBy.loop same a rest kept =
      kept.reverse ++ List.eraseRepsBy.loop same a rest [] := by
  induction rest generalizing a kept with
  | nil => simp [List.eraseRepsBy.loop]
  | cons b rest ih =>
    rw [List.eraseRepsBy.loop, List.eraseRepsBy.loop]
    cases same a b with
    | true => exact ih a kept
    | false =>
      rw [ih b (a :: kept), ih b [a], List.reverse_cons, List.append_assoc, List.reverse_singleton]

/-- Of two neighbours that count as the same the second is dropped. -/
theorem eraseRepsBy_cons_cons (a b : α) (rest : List α) :
    (a :: b :: rest).eraseRepsBy same =
      if same a b = true then (a :: rest).eraseRepsBy same
      else a :: (b :: rest).eraseRepsBy same := by
  rw [List.eraseRepsBy, List.eraseRepsBy.loop]
  cases same a b with
  | true => rfl
  | false => exact eraseRepsBy_loop b rest [a]

theorem eraseRepsBy_sublist (list : List α) : (list.eraseRepsBy same).Sublist list := by
  cases list with
  | nil => exact List.Sublist.refl []
  | cons a rest =>
    induction rest generalizing a with
    | nil => exact List.Sublist.refl [a]
    | cons b rest ih =>
      rw [eraseRepsBy_cons_cons]
      split
      · exact (ih a).trans ((List.sublist_cons_self b rest).cons_cons a)
      · exact (ih b).cons_cons a

end Repetitions

namespace Candidate

/-- An arranged candidate is one that was found, but for its position. -/
theorem exists_of_mem_arrange {found : List Candidate} {c : Candidate} (h : c ∈ arrange found) :
    ∃ d ∈ found, c = { d with order := c.order } := by
  obtain ⟨⟨d, i⟩, place, rfl⟩ := List.mem_map.1 h
  have kept := (eraseRepsBy_sublist _).subset (List.fst_mem_of_mem_zipIdx place)
  exact ⟨d, List.mem_mergeSort.1 kept, rfl⟩

theorem arrange_singleton {c : Candidate} (first : c.order = 0) : arrange [c] = [c] := by
  rw [arrange, List.mergeSort_singleton]
  obtain ⟨name, count, arguments, returnType, isPublic, looks, order, offset, typeOffset,
    modifiers, depth⟩ := c
  subst first
  rfl

/-- At most one candidate is in order. -/
theorem arrange_toList {o : Option Candidate} (first : ∀ c ∈ o, c.order = 0) :
    arrange o.toList = o.toList := by
  cases o with
  | none => rw [Option.toList_none, arrange, List.mergeSort_nil]; rfl
  | some c => exact arrange_singleton (first c rfl)

/-- Arranged candidates are numbered in ascending order. -/
theorem pairwise_order_arrange (found : List Candidate) :
    (arrange found).Pairwise fun a b => a.order < b.order := by
  rw [arrange, List.pairwise_map]
  refine (List.pairwise_map (f := Prod.snd) (R := fun i j => i < j)).1 ?_
  rw [List.zipIdx_map_snd]
  exact List.pairwise_lt_range'

end Candidate

/-- No two candidates of a source have the same number. -/
theorem eq_of_order_eq {l : Language} {source : Text} {c d : Candidate}
    (hc : c ∈ findCandidates l source) (hd : d ∈ findCandidates l source)
    (same : c.order = d.order) : c = d := by
  have numbered : ((findCandidates l source).map Candidate.order).Nodup :=
    List.pairwise_map.2 ((Candidate.pairwise_order_arrange _).imp Nat.ne_of_lt)
  exact List.inj_on_of_nodup_map numbered hc hd same

/-! ## The candidate of the right arity -/

/-- Whenever there is a candidate of the right arity one of them is called, which ranks before all
others of that arity. -/
theorem exists_chosen {l : Language} {source : Text} {arity : Nat} (hint : Option Text)
    (found : ∃ c ∈ findCandidates l source, c.argumentCount = arity) :
    ∃ c ∈ findCandidates l source, c.argumentCount = arity ∧
      choose l arity hint (findCandidates l source) = some c ∧
      ∀ d ∈ findCandidates l source, d.argumentCount = arity → d ≠ c →
        (Rank.of l hint c).before (Rank.of l hint d) = true := by
  obtain ⟨d, hd, suits⟩ := found
  have hd' : d ∈ (findCandidates l source).filter fun c => c.argumentCount == arity :=
    List.mem_filter.2 ⟨hd, beq_iff_eq.2 suits⟩
  obtain ⟨first, rest, matching⟩ := List.exists_cons_of_ne_nil (List.ne_nil_of_mem hd')
  obtain ⟨c, best⟩ := exists_bestBy (fun a b => (Rank.of l hint a).before (Rank.of l hint b))
    first rest
  have chosen : choose l arity hint (findCandidates l source) = some c := by
    rw [choose, matching]
    exact best
  rw [← matching] at best
  obtain ⟨hc, least⟩ := least_of_bestBy (k := fun c => (Rank.of l hint c).key)
    (fun _ _ => Rank.before_iff_key_lt) best
  rw [List.mem_filter, beq_iff_eq] at hc
  refine ⟨c, hc.1, hc.2, chosen, ?_⟩
  intro d hd suits other
  rw [Rank.before_iff_key_lt]
  refine lt_of_le_of_ne (least d (List.mem_filter.2 ⟨hd, beq_iff_eq.2 suits⟩)) ?_
  intro same
  exact other (eq_of_order_eq hd hc.1 (Rank.order_eq_of_key_eq same).symm)

/-- The function that is called is the chosen candidate. -/
theorem resolve_eq_ofCandidate {l : Language} {source : Text} {schema : List SchemaEntry}
    {hint : Option Text} {c : Candidate}
    (chosen : choose l schema.length (hintOf hint) (findCandidates l source) = some c) :
    resolve l source schema hint = EntryPoint.ofCandidate (hasContainer l source) c := by
  rw [resolve, chosen]

end HarnessSynthesis
