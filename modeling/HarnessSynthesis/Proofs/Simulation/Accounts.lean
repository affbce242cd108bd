/-
# The accounts of a simulation

Over the life of a simulation problems are run again and again, each time in surroundings of their
own, and between and during the runs the flag that asks it to stop may be set and cleared. Whatever
happens, its counts agree with the outcomes that it holds, and nothing it has noted is lost.

A simulation changes in five ways only. That a run is made of such changes follows from its course,
and what every change keeps is then kept by all runs. How many implementations are skipped is
settled by planning alone and is followed through a run by itself.
-/

import Mathlib.Logic.Relation
import HarnessSynthesis.Proofs.Simulation.Course

namespace HarnessSynthesis

open Relation (ReflTransGen)

/-- An outcome has a report or an error, and not both. -/
theorem Outcome.xor_report?_error? (o : Outcome) :
    Xor (o.report?.isSome = true) (o.error?.isSome = true) := by
  obtain ⟨problem, language, result⟩ := o
  cases result with
  | ok report => exact Or.inl ⟨rfl, Bool.false_ne_true⟩
  | error failure => exact Or.inr ⟨rfl, Bool.false_ne_true⟩

namespace Simulation

variable {σ : Type}

/-! ## Changes -/

/-- The ways in which a simulation changes. -/
inductive Change : Simulation → Simulation → Prop where
  | note (line : Text) (s : Simulation) : Change s (s.note line)
  | skip (label : Text) (why : Skip) (s : Simulation) : Change s (s.skip label why)
  | record (o : Outcome) (s : Simulation) : Change s (s.record o)
  | cancel (s : Simulation) : Change s s.cancel
  | stopEarly (s : Simulation) : Change s s.stopEarly

theorem changes_plan (problems : List Problem) (s : Simulation) :
    ReflTransGen Change s (s.plan problems) := by
  rw [plan]
  generalize skips problems = skipped
  refine ReflTransGen.tail ?_ (.note _ _)
  induction skipped generalizing s with
  | nil => exact .refl
  | cons one rest ih => exact .head (.skip one.1 one.2 s) (ih _)

theorem Course.changes {outside : Surroundings (StateM σ)} {jobs : List Job} {s s' : Simulation}
    {w w' : σ} {calls : List Call} {ending : Ending}
    (h : Course outside jobs s w calls ending s' w') : ReflTransGen Change s s' := by
  induction h with
  | done => exact .refl
  | cancelled => exact .single (.cancel _)
  | failed => exact .tail (.single (.record _ _)) (.stopEarly _)
  | next _ _ _ _ ih => exact .head (.record _ _) ih

theorem changes_run (outside : Surroundings (StateM σ)) (problems : List Problem) (s : Simulation)
    (w : σ) : ReflTransGen Change s ((run outside problems s).run w).1 := by
  obtain ⟨calls, ending, course⟩ := exists_course_run outside problems s w
  exact (changes_plan problems s).trans course.changes

/-! ## Counts and outcomes -/

/-- The counts of a simulation agree with its outcomes. -/
structure Accounts (s : Simulation) : Prop where
  runs_eq_add : s.stats.runs = s.stats.passed + s.stats.failed + s.stats.errored
  runs_eq_length : s.stats.runs = s.outcomes.length
  passed_eq_countP : s.stats.passed = s.outcomes.countP Outcome.passed
  /-- Every outcome has a report or an error, and not both. -/
  one_result : ∀ o ∈ s.outcomes, Xor (o.report?.isSome = true) (o.error?.isSome = true)

theorem accounts_start (stops : Bool) : (start stops).Accounts where
  runs_eq_add := rfl
  runs_eq_length := rfl
  passed_eq_countP := rfl
  one_result := List.forall_mem_nil _

theorem Accounts.record {s : Simulation} (h : s.Accounts) (o : Outcome) :
    (s.record o).Accounts := by
  have runs : (s.record o).stats.runs = s.stats.runs + 1 := by
    rw [Simulation.record, stats_note]
    cases o.status <;> rfl
  have sum : (s.record o).stats.passed + (s.record o).stats.failed + (s.record o).stats.errored =
      s.stats.passed + s.stats.failed + s.stats.errored + 1 := by
    rw [Simulation.record, stats_note]
    cases o.status <;> simp only [Stats.count] <;> omega
  have passed : (s.record o).stats.passed = s.stats.passed + if o.passed then 1 else 0 := by
    rw [Simulation.record, stats_note, Outcome.passed]
    cases o.status <;> rfl
  have outcomes : (s.record o).outcomes = s.outcomes ++ [o] := rfl
  constructor
  · rw [runs, sum, h.runs_eq_add]
  · rw [runs, outcomes, List.length_append, List.length_singleton, h.runs_eq_length]
  · rw [passed, outcomes, List.countP_append, List.countP_singleton, h.passed_eq_countP]
  · rw [outcomes]
    exact List.forall_mem_append.2 ⟨h.one_result, fun o' _ => o'.xor_report?_error?⟩

theorem Accounts.change {s s' : Simulation} (h : s.Accounts) (changed : Change s s') :
    s'.Accounts := by
  cases changed with
  | record o => exact h.record o
  -- no other change touches the runs, their counts or the outcomes
  | note | skip | cancel | stopEarly =>
    exact ⟨h.runs_eq_add, h.runs_eq_length, h.passed_eq_countP, h.one_result⟩

theorem Accounts.changes {s s' : Simulation} (h : s.Accounts) (changed : ReflTransGen Change s s') :
    s'.Accounts := by
  induction changed with
  | refl => exact h
  | tail _ last ih => exact ih.change last

/-! ## Growth -/

/-- A later state of a simulation holds all that an earlier one did. -/
structure Grows (s s' : Simulation) : Prop where
  runs : s.stats.runs ≤ s'.stats.runs
  passed : s.stats.passed ≤ s'.stats.passed
  failed : s.stats.failed ≤ s'.stats.failed
  errored : s.stats.errored ≤ s'.stats.errored
  skipped : s.stats.skipped ≤ s'.stats.skipped
  log : s.log <+: s'.log
  outcomes : s.outcomes <+: s'.outcomes
  cancelled : s.stats.cancelled = true → s'.stats.cancelled = true
  stoppedEarly : s.stats.stoppedEarly = true → s'.stats.stoppedEarly = true

theorem Grows.refl (s : Simulation) : s.Grows s where
  runs := Nat.le_refl _
  passed := Nat.le_refl _
  failed := Nat.le_refl _
  errored := Nat.le_refl _
  skipped := Nat.le_refl _
  log := List.prefix_rfl
  outcomes := List.prefix_rfl
  cancelled := id
  stoppedEarly := id

theorem Grows.trans {s s' s'' : Simulation} (h : s.Grows s') (h' : s'.Grows s'') :
    s.Grows s'' where
  runs := Nat.le_trans h.runs h'.runs
  passed := Nat.le_trans h.passed h'.passed
  failed := Nat.le_trans h.failed h'.failed
  errored := Nat.le_trans h.errored h'.errored
  skipped := Nat.le_trans h.skipped h'.skipped
  log := h.log.trans h'.log
  outcomes := h.outcomes.trans h'.outcomes
  cancelled := h'.cancelled ∘ h.cancelled
  stoppedEarly := h'.stoppedEarly ∘ h.stoppedEarly

theorem grows_note (line : Text) (s : Simulation) : s.Grows (s.note line) :=
  { Grows.refl s with log := List.prefix_append _ _ }

theorem grows_record (o : Outcome) (s : Simulation) : s.Grows (s.record o) := by
  have counted : s.Grows { s with stats := s.stats.count o.status } := by
    cases o.status with
    | passed => exact { Grows.refl s with runs := Nat.le_succ _, passed := Nat.le_succ _ }
    | failed => exact { Grows.refl s with runs := Nat.le_succ _, failed := Nat.le_succ _ }
    | errored => exact { Grows.refl s with runs := Nat.le_succ _, errored := Nat.le_succ _ }
  have recorded :
      s.Grows { s with stats := s.stats.count o.status, outcomes := s.outcomes ++ [o] } :=
    { counted with outcomes := List.prefix_append _ _ }
  exact recorded.trans (grows_note o.line _)

theorem Change.grows {s s' : Simulation} (h : Change s s') : s.Grows s' := by
  cases h with
  | note line => exact grows_note line s
  | skip label why => exact { grows_note _ s with skipped := Nat.le_succ _ }
  | record o => exact grows_record o s
  | cancel => exact { grows_note _ s with cancelled := fun _ => rfl }
  | stopEarly => exact { grows_note _ s with stoppedEarly := fun _ => rfl }

theorem grows_of_changes {s s' : Simulation} (h : ReflTransGen Change s s') : s.Grows s' := by
  induction h with
  | refl => exact Grows.refl s
  | tail _ last ih => exact ih.trans last.grows

/-! ## What is skipped -/

/-- How many implementations a list of problems has. -/
def implementationCount (problems : List Problem) : Nat :=
  (problems.flatMap (·.implementations)).length

/-- A list in two parts: of every element one of two functions makes something. -/
theorem length_filterMap_add_length_filterMap {α β γ : Type} {f : α → Option β} {g : α → Option γ}
    (apart : ∀ a, (f a).isSome = !(g a).isSome) (l : List α) :
    (l.filterMap f).length + (l.filterMap g).length = l.length := by
  rw [List.length_filterMap_eq_countP, List.length_filterMap_eq_countP,
    List.length_eq_countP_add_countP (fun a => (g a).isSome) (l := l), Nat.add_comm]
  refine congrArg _ (List.countP_congr fun a _ => ?_)
  rw [apart, Bool.not_eq_true', decide_eq_true_eq, Bool.not_eq_true]

/-- Every implementation becomes a job or is skipped. -/
theorem length_skips_add_length_jobs (problems : List Problem) :
    (skips problems).length + (jobs problems).length = implementationCount problems := by
  induction problems with
  | nil => rfl
  | cons p rest ih =>
    rw [skips, jobs, List.flatMap_cons, List.flatMap_cons, List.length_append, List.length_append,
      ← skips, ← jobs, Nat.add_add_add_comm, ih, implementationCount, implementationCount,
      List.flatMap_cons, List.length_append]
    refine congrArg (· + _) (length_filterMap_add_length_filterMap (fun i => ?_) _)
    cases i.job p <;> rfl

theorem Course.skipped_eq {outside : Surroundings (StateM σ)} {jobs : List Job}
    {s s' : Simulation} {w w' : σ} {calls : List Call} {ending : Ending}
    (h : Course outside jobs s w calls ending s' w') : s'.stats.skipped = s.stats.skipped := by
  have recorded (o : Outcome) (s : Simulation) : (s.record o).stats.skipped = s.stats.skipped := by
    rw [record, stats_note]
    cases o.status <;> rfl
  induction h with
  | done => rfl
  | cancelled => rfl
  | failed => exact recorded _ _
  | next _ _ _ _ ih => exact ih.trans (recorded _ _)

theorem skipped_run (outside : Surroundings (StateM σ)) (problems : List Problem) (s : Simulation)
    (w : σ) : ((run outside problems s).run w).1.stats.skipped =
      s.stats.skipped + (skips problems).length := by
  obtain ⟨calls, ending, course⟩ := exists_course_run outside problems s w
  rw [course.skipped_eq, stats_plan]

/-! ## Histories -/

/-- A step in the life of a simulation. -/
inductive Step (σ : Type) where
  /-- Something outside changes, as when the flag is set or cleared. -/
  | change (f : σ → σ)
  /-- Problems are run in surroundings that are those of this step only. -/
  | run (outside : Surroundings (StateM σ)) (problems : List Problem)

namespace Step

/-- The simulation and the world behind a step. -/
def take : Step σ → Simulation × σ → Simulation × σ
  | .change f, (s, w) => (s, f w)
  | .run outside problems, (s, w) => (Simulation.run outside problems s).run w

/-- The problems that a step runs. -/
def problems : Step σ → List Problem
  | .change _ => []
  | .run _ problems => problems

theorem changes_take (step : Step σ) (x : Simulation × σ) :
    ReflTransGen Change x.1 (step.take x).1 := by
  cases step with
  | change f => exact .refl
  | run outside problems => exact changes_run outside problems x.1 x.2

theorem skipped_take (step : Step σ) (x : Simulation × σ) :
    (step.take x).1.stats.skipped = x.1.stats.skipped + (skips step.problems).length := by
  cases step with
  | change f => rfl
  | run outside problems => exact skipped_run outside problems x.1 x.2

end Step

/-- The simulation and the world behind several steps. -/
def afterSteps (steps : List (Step σ)) (x : Simulation × σ) : Simulation × σ :=
  steps.foldl (fun x step => step.take x) x

theorem accounts_afterSteps (steps : List (Step σ)) {x : Simulation × σ} (h : x.1.Accounts) :
    (afterSteps steps x).1.Accounts := by
  induction steps generalizing x with
  | nil => exact h
  | cons step rest ih => exact ih (h.changes (step.changes_take x))

/-- Behind every step in the life of a simulation its counts agree with its outcomes and it holds
all that it held before the step. The step has skipped the implementations of its problems that
became no job, and no others. -/
theorem accounts_and_grows_after_step (stops : Bool) (w : σ) (steps : List (Step σ))
    (step : Step σ) :
    let before := afterSteps steps (start stops, w)
    let behind := step.take before
    behind.1.Accounts ∧ before.1.Grows behind.1 ∧
      behind.1.stats.skipped + (jobs step.problems).length =
        before.1.stats.skipped + implementationCount step.problems := by
  intro before behind
  have changes : ReflTransGen Change before.1 behind.1 := step.changes_take before
  have accounts : before.1.Accounts := accounts_afterSteps steps (accounts_start stops)
  refine ⟨accounts.changes changes, grows_of_changes changes, ?_⟩
  have skipped : behind.1.stats.skipped = before.1.stats.skipped + (skips step.problems).length :=
    step.skipped_take before
  rw [skipped, Nat.add_assoc, length_skips_add_length_jobs]

end Simulation

end HarnessSynthesis
