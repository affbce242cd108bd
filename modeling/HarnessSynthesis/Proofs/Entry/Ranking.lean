/-
# The selected declaration

What a harness calls is said here without sorting and without a rank: of the declarations of the
schema's arity the one with the greatest merit, and without any such the one that is named as
hinted, the first one, or none. Merits are compared from the first on, and the last of them is the
place in the source, at which no two declarations stand. So there is always exactly one answer.

Declarations of another arity count only where there is none of the right one. They change the
numbers and the places of the others but never their order, so two sources whose declarations of the
schema's arity are the same, one after the other, have the same function called.
-/

import Mathlib.Data.List.Pairwise
import Mathlib.Order.OrderDual
import HarnessSynthesis.Proofs.Entry.Choice
import HarnessSynthesis.Proofs.Text.Search
import HarnessSynthesis.Proofs.Text.Trim

namespace HarnessSynthesis

open Source
open Text (Blank)

/-! ## Places in the source -/

section Repetitions

variable {α : Type} {k : α → Nat}

/-- Where a key does not descend, dropping its repetitions leaves a list in which it ascends. -/
theorem pairwise_lt_eraseRepsBy {list : List α} (sorted : list.Pairwise fun a b => k a ≤ k b) :
    (list.eraseRepsBy fun a b => k a == k b).Pairwise fun a b => k a < k b := by
  cases list with
  | nil => exact .nil
  | cons a rest =>
    induction rest generalizing a with
    | nil => exact List.pairwise_singleton _ a
    | cons b rest ih =>
      obtain ⟨above, sorted'⟩ := List.pairwise_cons.1 sorted
      rw [eraseRepsBy_cons_cons]
      split
      · apply ih
        exact List.pairwise_cons.2 ⟨fun c hc => above c (List.mem_cons_of_mem b hc),
          (List.pairwise_cons.1 sorted').2⟩
      · rename_i different
        rw [beq_iff_eq] at different
        refine List.pairwise_cons.2 ⟨fun c hc => ?_, ih b sorted'⟩
        have first : k a < k b := lt_of_le_of_ne (above b List.mem_cons_self) different
        rcases List.mem_cons.1 ((eraseRepsBy_sublist _).subset hc) with rfl | later
        · exact first
        · exact lt_of_lt_of_le first ((List.pairwise_cons.1 sorted').1 c later)

end Repetitions

/-- Arranged candidates stand in the order of the source, no two at one place. -/
theorem Candidate.pairwise_offset_arrange (found : List Candidate) :
    (Candidate.arrange found).Pairwise fun a b => a.offset < b.offset := by
  have sorted : (found.mergeSort fun a b => decide (a.offset ≤ b.offset)).Pairwise
      fun a b => a.offset ≤ b.offset := by
    refine (List.pairwise_mergeSort ?_ ?_ found).imp fun h => of_decide_eq_true h
    · intro a b c first second
      exact decide_eq_true (le_trans (of_decide_eq_true first) (of_decide_eq_true second))
    · intro a b
      rw [Bool.or_eq_true, decide_eq_true_eq, decide_eq_true_eq]
      exact le_total a.offset b.offset
  rw [Candidate.arrange, List.pairwise_map]
  refine (List.pairwise_map (f := Prod.fst)
    (R := fun a b : Candidate => a.offset < b.offset)).1 ?_
  rw [List.zipIdx_map_fst]
  exact pairwise_lt_eraseRepsBy sorted

/-- Of two candidates of a source the one that stands earlier has the smaller number. -/
theorem order_lt_iff_offset_lt {l : Language} {source : Text} {c d : Candidate}
    (hc : c ∈ findCandidates l source) (hd : d ∈ findCandidates l source) (other : d ≠ c) :
    c.order < d.order ↔ c.offset < d.offset := by
  let agree (a b : Candidate) : Prop :=
    (a.order < b.order ↔ a.offset < b.offset) ∧ (b.order < a.order ↔ b.offset < a.offset)
  have : Std.Symm agree := ⟨fun _ _ h => h.symm⟩
  have both : (findCandidates l source).Pairwise agree := by
    refine (Candidate.pairwise_order_arrange _).imp₂ ?_ (Candidate.pairwise_offset_arrange _)
    intro a b numbered placed
    exact ⟨iff_of_true numbered placed,
      iff_of_false (lt_asymm numbered) (lt_asymm placed)⟩
  exact (both.forall hc hd other.symm).1

/-! ## Merits -/

/-- The merits of a candidate under a hint, the first ones first: to have the hinted name, to look
like a solution, to be public where that counts, and to stand early. -/
def merits (l : Language) (hint : Option Text) (c : Candidate) :
    Bool ×ₗ Bool ×ₗ Bool ×ₗ Natᵒᵈ :=
  toLex (decide (hint = some c.name), toLex (c.looksLikeSolution,
    toLex (!l.isCFamily || c.isPublic, OrderDual.toDual c.offset)))

/-- Ranking before another candidate of the source is having more merit. -/
theorem rank_before_iff_merits_lt {l : Language} {source : Text} (hint : Option Text)
    {c d : Candidate} (hc : c ∈ findCandidates l source) (hd : d ∈ findCandidates l source)
    (other : d ≠ c) :
    (Rank.of l hint c).before (Rank.of l hint d) = true ↔ merits l hint d < merits l hint c := by
  have place := order_lt_iff_offset_lt hc hd other
  rw [Rank.before_iff_key_lt]
  simp only [Rank.key, Rank.of, merits, Prod.Lex.toLex_lt_toLex, OrderDual.toDual_lt_toDual,
    ne_eq, decide_not]
  generalize decide (hint = some c.name) = named, decide (hint = some d.name) = named'
  generalize c.looksLikeSolution = solves, d.looksLikeSolution = solves'
  generalize c.isPublic = visible, d.isPublic = visible', l.isCFamily = typed
  cases named <;> cases named' <;> cases solves <;> cases solves' <;> cases typed <;>
    cases visible <;> cases visible' <;> simp [place]

/-! ## Selection -/

/-- What is selected among the candidates `cs` of a source, for an arity and under a hint. -/
inductive Selects (l : Language) (arity : Nat) (hint : Option Text) (cs : List Candidate) :
    Option Candidate → Prop
  /-- Of the candidates of the arity, the one of the greatest merit. -/
  | best {c : Candidate} (mem : c ∈ cs) (suits : c.argumentCount = arity)
      (greatest : ∀ d ∈ cs, d.argumentCount = arity → d ≠ c → merits l hint d < merits l hint c) :
      Selects l arity hint cs (some c)
  /-- Without any, the first one of the hinted name. -/
  | hinted {c : Candidate} {front back : List Candidate}
      (unsuited : ∀ d ∈ cs, d.argumentCount ≠ arity) (whole : cs = front ++ c :: back)
      (named : hint = some c.name) (earliest : ∀ d ∈ front, hint ≠ some d.name) :
      Selects l arity hint cs (some c)
  /-- Where none has the hinted name, the first one. -/
  | first {c : Candidate} {rest : List Candidate} (unsuited : ∀ d ∈ cs, d.argumentCount ≠ arity)
      (whole : cs = c :: rest) (unnamed : ∀ d ∈ cs, hint ≠ some d.name) :
      Selects l arity hint cs (some c)
  | nothing (empty : cs = []) : Selects l arity hint cs none

namespace Selects

variable {l : Language} {arity : Nat} {hint : Option Text} {cs : List Candidate}

/-- No two candidates can both have the greatest merit, and the other cases exclude each other. -/
theorem unique {s s' : Option Candidate} (h : Selects l arity hint cs s)
    (h' : Selects l arity hint cs s') : s = s' := by
  cases h with
  | @best c mem suits greatest =>
    cases h' with
    | @best d mem' suits' greatest' =>
      by_contra other
      have apart : d ≠ c := fun same => other (congrArg some same.symm)
      exact lt_asymm (greatest d mem' suits' apart) (greatest' c mem suits apart.symm)
    | hinted unsuited => exact absurd suits (unsuited c mem)
    | first unsuited => exact absurd suits (unsuited c mem)
    | nothing empty => exact absurd mem (empty ▸ List.not_mem_nil)
  | @hinted c front back unsuited whole named earliest =>
    cases h' with
    | best mem suits => exact absurd suits (unsuited _ mem)
    | @hinted d front' back' _ whole' named' earliest' =>
      rw [whole] at whole'
      rcases Text.append_eq_append_cons whole' with ⟨more, rfl, -⟩ | ⟨more, rfl, tail⟩
      · exact absurd named' (earliest d (List.mem_append_right front' List.mem_cons_self))
      · cases more with
        | nil => exact congrArg some (List.cons.inj tail).1
        | cons e more =>
          obtain ⟨rfl, -⟩ := List.cons.inj tail
          exact absurd named (earliest' c (List.mem_append_right front List.mem_cons_self))
    | first _ _ unnamed =>
      have mem : c ∈ cs := whole ▸ List.mem_append_right front List.mem_cons_self
      exact absurd named (unnamed c mem)
    | nothing empty => exact absurd (whole.symm.trans empty) (by simp)
  | @first c rest unsuited whole unnamed =>
    cases h' with
    | best mem suits => exact absurd suits (unsuited _ mem)
    | @hinted d front back _ whole' named' =>
      have mem : d ∈ cs := whole' ▸ List.mem_append_right front List.mem_cons_self
      exact absurd named' (unnamed d mem)
    | first _ whole' =>
      exact congrArg some (List.cons.inj (whole.symm.trans whole')).1
    | nothing empty => exact absurd (whole.symm.trans empty) (List.cons_ne_nil _ _)
  | nothing empty =>
    cases h' with
    | best mem => exact absurd mem (empty ▸ List.not_mem_nil)
    | hinted _ whole => exact absurd (whole.symm.trans empty) (by simp)
    | first _ whole => exact absurd (whole.symm.trans empty) (List.cons_ne_nil _ _)
    | nothing => rfl

end Selects

/-- What is chosen among the candidates of a source is selected. -/
theorem selects_choose (l : Language) (source : Text) (arity : Nat) (hint : Option Text) :
    Selects l arity hint (findCandidates l source)
      (choose l arity hint (findCandidates l source)) := by
  by_cases found : ∃ c ∈ findCandidates l source, c.argumentCount = arity
  case pos =>
    obtain ⟨c, mem, suits, chosen, before⟩ := exists_chosen hint found
    rw [chosen]
    refine .best mem suits fun d hd suits' other => ?_
    exact (rank_before_iff_merits_lt hint mem hd other).1 (before d hd suits' other)
  case neg =>
    have unsuited : ∀ d ∈ findCandidates l source, d.argumentCount ≠ arity :=
      fun d hd suits => found ⟨d, hd, suits⟩
    have none : (findCandidates l source).filter (fun c => c.argumentCount == arity) = [] := by
      rw [List.filter_eq_nil_iff]
      exact fun d hd => by simpa using unsuited d hd
    rw [choose, none]
    dsimp only
    generalize findCandidates l source = cs at unsuited
    cases named : hint.bind fun h => cs.find? fun c => c.name == h with
    | some c =>
      obtain ⟨h, rfl, search⟩ := Option.bind_eq_some_iff.1 named
      obtain ⟨same, front, back, whole, earlier⟩ := List.find?_eq_some_iff_append.1 search
      refine .hinted unsuited whole (congrArg some (beq_iff_eq.1 same).symm) fun d hd same => ?_
      have other := earlier d hd
      rw [Option.some.inj same, beq_self_eq_true] at other
      cases other
    | none =>
      have unnamed : ∀ d ∈ cs, hint ≠ some d.name := by
        rintro d hd rfl
        have absent := List.find?_eq_none.1 named d hd
        exact absent (beq_self_eq_true d.name)
      cases cs with
      | nil => exact .nothing rfl
      | cons c rest => exact .first unsuited rfl unnamed

/-! ## Declarations of other arities -/

section Best

variable {α β : Type} {before : α → α → Bool} {before' : β → β → Bool} {f : α → β}

theorem mem_of_bestBy {list : List α} {b : α} (best : bestBy before list = some b) : b ∈ list := by
  induction list generalizing b with
  | nil => cases best
  | cons a rest ih =>
    rw [bestBy] at best
    split at best
    · exact Option.some.inj best ▸ List.mem_cons_self
    · rename_i c later
      split at best
      · exact Option.some.inj best ▸ List.mem_cons_of_mem a (ih later)
      · exact Option.some.inj best ▸ List.mem_cons_self

/-- An element gives way to a later one only, so only such comparisons have to be kept. -/
theorem map_bestBy {list : List α}
    (same : list.Pairwise fun a b => before b a = before' (f b) (f a)) :
    (bestBy before list).map f = bestBy before' (list.map f) := by
  induction list with
  | nil => rfl
  | cons a rest ih =>
    obtain ⟨first, others⟩ := List.pairwise_cons.1 same
    have later := ih others
    rw [List.map_cons, bestBy, bestBy, ← later]
    cases best : bestBy before rest with
    | none => rfl
    | some b =>
      simp only [Option.map_some, first b (mem_of_bestBy best)]
      exact apply_ite (Option.map f) _ _ _

end Best

/-- A candidate without its place in the source. -/
def Candidate.anywhere (c : Candidate) : Candidate :=
  { c with order := 0, offset := 0, typeOffset := 0, depth := 0 }

/-- The candidates of a source that have a given number of arguments. -/
def candidatesOfArity (l : Language) (arity : Nat) (source : Text) : List Candidate :=
  (findCandidates l source).filter fun c => c.argumentCount == arity

/-- Which of the candidates of an arity is chosen is told by these candidates in their order, and
their places do not matter. -/
theorem map_anywhere_choose {l : Language} {arity : Nat} {source : Text} (hint : Option Text)
    (found : candidatesOfArity l arity source ≠ []) :
    (choose l arity hint (findCandidates l source)).map Candidate.anywhere =
      bestBy (fun a b => (Rank.of l hint a).before (Rank.of l hint b))
        ((candidatesOfArity l arity source).map Candidate.anywhere) := by
  have chosen : choose l arity hint (findCandidates l source) =
      bestBy (fun a b => (Rank.of l hint a).before (Rank.of l hint b))
        (candidatesOfArity l arity source) := by
    unfold candidatesOfArity at found ⊢
    rw [choose]
    split
    · rename_i none
      exact absurd none found
    · rfl
  rw [chosen]
  apply map_bestBy
  have ordered : (findCandidates l source).Pairwise fun a b => a.order < b.order :=
    Candidate.pairwise_order_arrange _
  refine (ordered.sublist List.filter_sublist).imp fun {a b} earlier => ?_
  have place : (b.order < a.order) = False := eq_false (lt_asymm earlier)
  simp only [Rank.before, Rank.of, Candidate.anywhere, place, lt_irrefl, decide_false]
  rfl

/-! ## The law of selection -/

/-- The function to call for what is selected: without a selection the hinted name or the default
one is called, without arguments. -/
def EntryPoint.ofSelection (wrapped : Bool) (hint : Option Text) : Option Candidate → EntryPoint
  | some c => ofCandidate wrapped c
  | none => ⟨hint.getD defaultName, [], wrapped, none⟩

theorem resolve_eq_ofSelection (l : Language) (source : Text) (schema : List SchemaEntry)
    (hint : Option Text) :
    resolve l source schema hint = EntryPoint.ofSelection (hasContainer l source) (hintOf hint)
      (choose l schema.length (hintOf hint) (findCandidates l source)) := by
  rw [resolve]
  cases choose l schema.length (hintOf hint) (findCandidates l source) <;> rfl

theorem hintOf_of_blank {h : Text} (blank : Blank h) : hintOf (some h) = none := by
  have empty : h.trim = [] := by
    have trimmed := Text.trim_append_of_blank_left blank []
    rwa [List.append_nil] at trimmed
  rw [hintOf, Option.map_some, empty]
  rfl

theorem hintOf_trim (h : Text) : hintOf (some h.trim) = hintOf (some h) := by
  rw [hintOf, hintOf, Option.map_some, Option.map_some, Text.trim_trim]

/-- Exactly one thing is selected in a source, and it is called, on an instance of the solution
class when the source has one. Candidates stand at ascending places, so the first ones are the
earliest. Where there are candidates of the schema's arity nothing but these decides, whatever else
a source declares, and of a hint only what is left of it when it is trimmed. -/
theorem resolve_selects (l : Language) (source : Text) (schema : List SchemaEntry)
    (hint : Option Text) :
    (∃ selected, (∀ s, Selects l schema.length (hintOf hint) (findCandidates l source) s ↔
        s = selected) ∧
      resolve l source schema hint =
        EntryPoint.ofSelection (hasContainer l source) (hintOf hint) selected) ∧
      (resolve l source schema hint).wrapped = hasContainer l source ∧
      ((findCandidates l source).Pairwise fun c d => c.offset < d.offset) ∧
      (∀ source', candidatesOfArity l schema.length source ≠ [] →
        (candidatesOfArity l schema.length source').map Candidate.anywhere =
          (candidatesOfArity l schema.length source).map Candidate.anywhere →
        resolve l source' schema hint =
          { resolve l source schema hint with wrapped := hasContainer l source' }) ∧
      (∀ h, Blank h → resolve l source schema (some h) = resolve l source schema none) ∧
      ∀ h, resolve l source schema (some h) = resolve l source schema (some h.trim) := by
  refine ⟨⟨_, fun s => ?selected, resolve_eq_ofSelection l source schema hint⟩, ?wrapped,
    Candidate.pairwise_offset_arrange _, ?others, ?blank, ?trimmed⟩
  case selected =>
    have chosen := selects_choose l source schema.length (hintOf hint)
    constructor
    · exact fun selects => selects.unique chosen
    · rintro rfl
      exact chosen
  case wrapped =>
    rw [resolve_eq_ofSelection]
    cases choose l schema.length (hintOf hint) (findCandidates l source) <;> rfl
  case others =>
    intro source' found same
    have found' : candidatesOfArity l schema.length source' ≠ [] := by
      intro none
      rw [none, List.map_nil] at same
      exact found (List.map_eq_nil_iff.1 same.symm)
    have chosen := map_anywhere_choose (hintOf hint) found
    rw [← same, ← map_anywhere_choose (hintOf hint) found'] at chosen
    rw [resolve_eq_ofSelection, resolve_eq_ofSelection]
    cases here : choose l schema.length (hintOf hint) (findCandidates l source) with
    | none =>
      rw [here, Option.map_none, eq_comm, Option.map_eq_none_iff] at chosen
      rw [chosen]
      rfl
    | some c =>
      rw [here, Option.map_some, eq_comm, Option.map_eq_some_iff] at chosen
      obtain ⟨d, there, alike⟩ := chosen
      rw [there]
      show EntryPoint.ofCandidate (hasContainer l source') d.anywhere =
        EntryPoint.ofCandidate (hasContainer l source') c.anywhere
      rw [alike]
  case blank =>
    intro h blank
    rw [resolve, resolve, hintOf_of_blank blank]
    rfl
  case trimmed =>
    intro h
    rw [resolve, resolve, hintOf_trim]

/-- A definition on its own. -/
def soleDefinition : Text := "def solve(x):\n    return x\n"

/-- The same definition behind one of two parameters. -/
def secondDefinition : Text := "def pair(a, b):\n    return a\n\n" ++ soleDefinition

/-- The definition in front makes no difference, and neither does a blank hint. -/
theorem resolve_selects_second :
    resolve .python secondDefinition [⟨"x", "number", none⟩] (some " ") =
      ⟨"solve", "x", false, none⟩ := by
  have alone : findCandidates .python soleDefinition =
      [Candidate.of "def " "solve" "x" none 0] := by
    have scanned : PythonSource.candidates (stripComments .python soleDefinition) =
        [Candidate.of "def " "solve" "x" none 0] := by decide +kernel
    rw [findCandidates, scanned, Candidate.arrange, List.mergeSort_singleton]
    rfl
  have behind : findCandidates .python secondDefinition =
      [Candidate.of "def " "pair" "a, b" none 0,
        { Candidate.of (Text.repeated 34 " ") "solve" "x" none 0 with order := 1 }] := by
    have scanned : PythonSource.candidates (stripComments .python secondDefinition) =
        [Candidate.of "def " "pair" "a, b" none 0,
          Candidate.of (Text.repeated 34 " ") "solve" "x" none 0] := by decide +kernel
    rw [findCandidates, scanned, Candidate.arrange, List.mergeSort_of_pairwise (by decide +kernel)]
    rfl
  obtain ⟨⟨selected, selects, called⟩, -, -, others, -, -⟩ :=
    resolve_selects .python soleDefinition [⟨"x", "number", none⟩] (some " ")
  have best : selected = some (Candidate.of "def " "solve" "x" none 0) := by
    refine ((selects _).1 (.best ?_ rfl ?_)).symm
    · rw [alone]
      exact List.mem_singleton_self _
    · rw [alone]
      intro d hd _ other
      exact absurd (List.mem_singleton.1 hd) other
  have found : candidatesOfArity .python 1 soleDefinition ≠ [] := by
    rw [candidatesOfArity, alone]
    exact List.cons_ne_nil _ _
  have same : (candidatesOfArity .python 1 secondDefinition).map Candidate.anywhere =
      (candidatesOfArity .python 1 soleDefinition).map Candidate.anywhere := by
    rw [candidatesOfArity, candidatesOfArity, alone, behind]
    rfl
  rw [others secondDefinition found same, called, best]
  decide +kernel

end HarnessSynthesis
