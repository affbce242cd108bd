/-
# The course of a run

What lies outside a simulation is a state of any type, which looking for the flag and running a job
change in any way. `Course` says how the jobs of one run go in such surroundings: which of them are
run, with which results, and what ends the run. Every run has a course, so later proofs follow the
course and leave the loop alone.
-/

import Mathlib.Logic.Basic
import HarnessSynthesis.Simulation

namespace HarnessSynthesis.Simulation

variable {σ : Type}

/-! ## Calls -/

/-- A job that was run, with its result. -/
structure Call where
  job : Job
  result : Except Failure RunReport

/-- What is kept of a call. -/
def Call.outcome (c : Call) : Outcome :=
  ⟨c.job.label, c.job.request.language, c.result⟩

/-- What ends a run: all jobs have been run, the flag was set, or a job did not pass. -/
inductive Ending where
  | done
  | cancelled
  | failed
  deriving DecidableEq, Repr

/-! ## Courses -/

/-- How a list of jobs goes from one state of the simulation and the world to another. -/
inductive Course (outside : Surroundings (StateM σ)) :
    List Job → Simulation → σ → List Call → Ending → Simulation → σ → Prop where
  /-- No job is left. -/
  | done {s : Simulation} {w : σ} : Course outside [] s w [] .done s w
  /-- The flag is set as a job is reached. -/
  | cancelled {job : Job} {rest : List Job} {s : Simulation} {w w' : σ}
      (looked : outside.cancelled.run w = (true, w')) :
      Course outside (job :: rest) s w [] .cancelled s.cancel w'
  /-- A job does not pass, and that is the end. -/
  | failed {job : Job} {rest : List Job} {s : Simulation} {w w' w'' : σ}
      {result : Except Failure RunReport} (looked : outside.cancelled.run w = (false, w'))
      (ran : (outside.run job.request).run w' = (result, w''))
      (unpassed : (Call.mk job result).outcome.passed = false)
      (stops : s.stopsOnFailure = true) :
      Course outside (job :: rest) s w [⟨job, result⟩] .failed
        (s.record (Call.mk job result).outcome).stopEarly w''
  /-- A job is run and the others follow. -/
  | next {job : Job} {rest : List Job} {s s' : Simulation} {w w' w'' w''' : σ}
      {result : Except Failure RunReport} {calls : List Call} {ending : Ending}
      (looked : outside.cancelled.run w = (false, w'))
      (ran : (outside.run job.request).run w' = (result, w''))
      (passed : s.stopsOnFailure = true → (Call.mk job result).outcome.passed = true)
      (others :
        Course outside rest (s.record (Call.mk job result).outcome) w'' calls ending s' w''') :
      Course outside (job :: rest) s w (⟨job, result⟩ :: calls) ending s' w'''

theorem run_ite {α : Type} (c : Bool) (x y : StateM σ α) (w : σ) :
    (if c then x else y).run w = if c then x.run w else y.run w := by
  cases c <;> rfl

/-- What the loop does with a job. -/
theorem runJobs_cons (outside : Surroundings (StateM σ)) (job : Job) (rest : List Job)
    (s : Simulation) (w : σ) :
    (runJobs outside (job :: rest) s).run w =
      let (stop, w) := outside.cancelled.run w
      if stop then (s.cancel, w)
      else
        let (result, w) := (outside.run job.request).run w
        let o := (Call.mk job result).outcome
        if !o.passed && s.stopsOnFailure then ((s.record o).stopEarly, w)
        else (runJobs outside rest (s.record o)).run w := by
  rw [runJobs, StateT.run_bind]
  change StateT.run (if _ then _ else _) _ = _
  rw [run_ite]
  refine if_congr Iff.rfl rfl ?_
  exact run_ite _ _ _ _

/-- Every run of jobs has a course. -/
theorem exists_course (outside : Surroundings (StateM σ)) (jobs : List Job) (s : Simulation)
    (w : σ) : ∃ calls ending, Course outside jobs s w calls ending
      ((runJobs outside jobs s).run w).1 ((runJobs outside jobs s).run w).2 := by
  induction jobs generalizing s w with
  | nil => exact ⟨[], .done, .done⟩
  | cons job rest ih =>
    rw [runJobs_cons]
    cases looked : outside.cancelled.run w with
    | mk stop w' =>
      cases stop with
      | true => exact ⟨[], .cancelled, .cancelled looked⟩
      | false =>
        cases ran : (outside.run job.request).run w' with
        | mk result w'' =>
          simp only [ran, Bool.false_eq_true, if_false, Bool.and_eq_true, Bool.not_eq_true']
          split
          · rename_i stopped
            exact ⟨_, .failed, .failed looked ran stopped.1 stopped.2⟩
          · rename_i goesOn
            obtain ⟨calls, ending, others⟩ := ih (s.record (Call.mk job result).outcome) w''
            refine ⟨_, ending, .next looked ran (fun stops => ?_) others⟩
            exact Bool.of_not_eq_false fun unpassed => goesOn ⟨unpassed, stops⟩

/-- The course of running a list of problems, behind the planning. -/
theorem exists_course_run (outside : Surroundings (StateM σ)) (problems : List Problem)
    (s : Simulation) (w : σ) : ∃ calls ending, Course outside (jobs problems) (s.plan problems) w
      calls ending ((run outside problems s).run w).1 ((run outside problems s).run w).2 :=
  exists_course outside (jobs problems) (s.plan problems) w

end HarnessSynthesis.Simulation
