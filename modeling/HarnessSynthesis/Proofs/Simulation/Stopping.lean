/-
# Where a run stops

Surroundings can be watched: each look for the flag and each run of a request is noted as it
happens, and nothing else changes. What is noted in the course of a run shows that the requests are
the first of those planned, that each was run directly after a look that found the flag unset, and
what it was that kept the others from being run.
-/

import HarnessSynthesis.Proofs.Simulation.Course

namespace HarnessSynthesis

/-! ## What is planned -/

namespace Implementation

/-- The text of an implementation that is to be run: the first solution, its name in any letter
case, or the first of all texts when none is a solution. -/
inductive Chosen (i : Implementation) (e : CodeEntry) : Prop where
  | solution {before behind : List CodeEntry} (split : i.code = before ++ e :: behind)
      (named : e.kind.map Char.toLower = "solution")
      (first : ∀ other ∈ before, other.kind.map Char.toLower ≠ "solution")
  | anyKind {behind : List CodeEntry} (split : i.code = e :: behind)
      (unnamed : ∀ other ∈ i.code, other.kind.map Char.toLower ≠ "solution")

/-- The request that is planned for an implementation of a problem: its language is known, and it
has a text to be run. -/
def Plans (p : Problem) (i : Implementation) (r : RunRequest) : Prop :=
  ∃ l e, Language.ofName? i.language = some l ∧ i.Chosen e ∧ r = RunRequest.forProblem p l e.code

/-- The request of an implementation's job, when there is one. -/
def request? (p : Problem) (i : Implementation) : Option RunRequest :=
  (i.job p).toOption.map Job.request

theorem isSolution_iff {e : CodeEntry} :
    isSolution e = true ↔ e.kind.map Char.toLower = "solution" :=
  beq_iff_eq

theorem entry?_of_find? {i : Implementation} {e : CodeEntry}
    (found : i.code.find? isSolution = some e) : i.entry? = some e := by
  unfold entry?
  rw [found]
  rfl

theorem entry?_of_find?_eq_none {i : Implementation} (found : i.code.find? isSolution = none) :
    i.entry? = i.code.head? := by
  unfold entry?
  rw [found]
  rfl

theorem chosen_of_entry? {i : Implementation} {e : CodeEntry} (h : i.entry? = some e) :
    i.Chosen e := by
  cases found : i.code.find? isSolution with
  | some solution =>
    rw [entry?_of_find? found] at h
    cases h
    obtain ⟨named, before, behind, split, first⟩ := List.find?_eq_some_iff_append.1 found
    refine .solution split (isSolution_iff.1 named) fun other mem earlier => ?_
    have unnamed := first other mem
    rw [isSolution_iff.2 earlier] at unnamed
    cases unnamed
  | none =>
    rw [entry?_of_find?_eq_none found] at h
    obtain ⟨behind, split⟩ := List.head?_eq_some_iff.1 h
    exact .anyKind split fun other mem named =>
      List.find?_eq_none.1 found other mem (isSolution_iff.2 named)

theorem Chosen.entry?_eq {i : Implementation} {e : CodeEntry} (h : i.Chosen e) :
    i.entry? = some e := by
  cases h with
  | @solution before behind split named first =>
    refine entry?_of_find? (List.find?_eq_some_iff_append.2
      ⟨isSolution_iff.2 named, before, behind, split, fun other mem => ?_⟩)
    rw [Bool.not_eq_true', Bool.eq_false_iff]
    exact fun earlier => first other mem (isSolution_iff.1 earlier)
  | @anyKind behind split unnamed =>
    have none : i.code.find? isSolution = none :=
      List.find?_eq_none.2 fun other mem named => unnamed other mem (isSolution_iff.1 named)
    rw [entry?_of_find?_eq_none none, split, List.head?_cons]

/-- An implementation has a job exactly when its language is known and it has a text. -/
theorem request?_eq_some_iff {p : Problem} {i : Implementation} {r : RunRequest} :
    i.request? p = some r ↔ i.Plans p r := by
  rw [request?, job]
  cases known : Language.ofName? i.language with
  | none =>
    constructor
    · intro impossible
      cases impossible
    · rintro ⟨l, e, named, -⟩
      rw [known] at named
      cases named
  | some l =>
    cases text : i.entry? with
    | none =>
      constructor
      · intro impossible
        cases impossible
      · rintro ⟨l', e, -, chosen, -⟩
        rw [chosen.entry?_eq] at text
        cases text
    | some e =>
      constructor
      · intro planned
        cases planned
        exact ⟨l, e, known, chosen_of_entry? text, rfl⟩
      · rintro ⟨l', e', named, chosen, rfl⟩
        rw [known] at named
        rw [chosen.entry?_eq] at text
        cases named
        cases text
        rfl

end Implementation

namespace Simulation

variable {σ : Type}

/-- The requests of a list of problems, in the order of the problems and of their
implementations. -/
def planned (problems : List Problem) : List RunRequest :=
  problems.flatMap fun p => p.implementations.filterMap (·.request? p)

theorem map_request_jobs (problems : List Problem) :
    (jobs problems).map Job.request = planned problems := by
  rw [jobs, List.map_flatMap, planned]
  simp only [List.map_filterMap]
  rfl

/-! ## Watching -/

/-- What can be seen of a run from outside. -/
inductive Event where
  /-- The simulation looked for the flag, and whether it was set. -/
  | looked (cancelled : Bool)
  | ran (request : RunRequest) (result : Except Failure RunReport)

/-- Surroundings that note what happens. -/
def Surroundings.watched (outside : Surroundings (StateM σ)) :
    Surroundings (StateM (σ × List Event)) where
  cancelled := fun (w, seen) =>
    let (stop, w) := outside.cancelled.run w
    (stop, w, seen ++ [.looked stop])
  run request := fun (w, seen) =>
    let (result, w) := (outside.run request).run w
    (result, w, seen ++ [.ran request result])

theorem cancelled_watched {outside : Surroundings (StateM σ)} {w w' : σ} {stop : Bool}
    (looked : outside.cancelled.run w = (stop, w')) (seen : List Event) :
    outside.watched.cancelled.run (w, seen) = (stop, w', seen ++ [.looked stop]) := by
  have watched : outside.watched.cancelled.run (w, seen) = ((outside.cancelled.run w).1,
      (outside.cancelled.run w).2, seen ++ [.looked (outside.cancelled.run w).1]) := rfl
  rw [watched, looked]

theorem run_watched {outside : Surroundings (StateM σ)} {w w' : σ} {r : RunRequest}
    {result : Except Failure RunReport} (ran : (outside.run r).run w = (result, w'))
    (seen : List Event) :
    (outside.watched.run r).run (w, seen) = (result, w', seen ++ [.ran r result]) := by
  have watched : (outside.watched.run r).run (w, seen) = (((outside.run r).run w).1,
      ((outside.run r).run w).2, seen ++ [.ran r ((outside.run r).run w).1]) := rfl
  rw [watched, ran]

/-- What is seen of a call: the flag was not set, and the request was run. -/
def Call.events (c : Call) : List Event :=
  [.looked false, .ran c.job.request c.result]

/-- What is seen of an ending: the flag was set, or nothing more. -/
def Ending.events : Ending → List Event
  | .cancelled => [.looked true]
  | .done | .failed => []

/-- A run that is watched goes as it does otherwise, and all that is seen are its calls and its
ending. -/
theorem Course.runJobs_watched {outside : Surroundings (StateM σ)} {js : List Job}
    {s s' : Simulation} {w w' : σ} {calls : List Call} {ending : Ending}
    (h : Course outside js s w calls ending s' w') (seen : List Event) :
    (runJobs outside.watched js s).run (w, seen) =
      (s', w', seen ++ (calls.flatMap Call.events ++ ending.events)) := by
  induction h generalizing seen with
  | @done s w =>
    rw [List.flatMap_nil, Ending.events, List.append_nil, List.append_nil]
    rfl
  | cancelled looked =>
    rw [runJobs_cons, cancelled_watched looked]
    rfl
  | failed looked ran unpassed stops =>
    rw [runJobs_cons, cancelled_watched looked]
    simp only [Bool.false_eq_true, if_false, run_watched ran, unpassed, stops, Bool.not_false,
      Bool.and_self, if_true, Call.events, Ending.events, List.flatMap_cons, List.flatMap_nil,
      List.append_nil, List.append_assoc, List.cons_append, List.nil_append]
  | @next job _ s _ _ _ _ _ result _ _ looked ran passed _ ih =>
    have goesOn : (!(Call.mk job result).outcome.passed && s.stopsOnFailure) = false := by
      cases stops : s.stopsOnFailure with
      | false => exact Bool.and_false _
      | true => rw [passed stops, Bool.not_true, Bool.false_and]
    rw [runJobs_cons, cancelled_watched looked]
    simp only [Bool.false_eq_true, if_false, run_watched ran, goesOn, ih, Call.events,
      List.flatMap_cons, List.append_assoc, List.cons_append, List.nil_append]

theorem Course.jobs_isPrefix {outside : Surroundings (StateM σ)} {js : List Job}
    {s s' : Simulation} {w w' : σ} {calls : List Call} {ending : Ending}
    (h : Course outside js s w calls ending s' w') : calls.map Call.job <+: js := by
  induction h with
  | done => exact List.prefix_rfl
  | cancelled => exact List.nil_prefix
  | failed => exact (List.cons_prefix_cons.2 ⟨rfl, List.nil_prefix⟩)
  | next _ _ _ _ ih => exact List.cons_prefix_cons.2 ⟨rfl, ih⟩

theorem stopsOnFailure_plan (problems : List Problem) (s : Simulation) :
    (s.plan problems).stopsOnFailure = s.stopsOnFailure := by
  rw [plan]
  generalize skips problems = skipped
  change (List.foldl _ s skipped).stopsOnFailure = s.stopsOnFailure
  induction skipped generalizing s with
  | nil => rfl
  | cons one rest ih => exact ih _

theorem Course.outcomes_eq {outside : Surroundings (StateM σ)} {js : List Job}
    {s s' : Simulation} {w w' : σ} {calls : List Call} {ending : Ending}
    (h : Course outside js s w calls ending s' w') :
    s'.outcomes = s.outcomes ++ calls.map Call.outcome := by
  induction h with
  | done => exact (List.append_nil _).symm
  | cancelled => exact (List.append_nil _).symm
  | failed => rfl
  | next _ _ _ _ ih =>
    rw [ih, List.map_cons, List.append_cons]
    rfl

/-- The run steps that came before the last one passed, if failures end the run. -/
theorem Course.passed_of_mem_dropLast {outside : Surroundings (StateM σ)} {js : List Job}
    {s s' : Simulation} {w w' : σ} {calls : List Call} {ending : Ending}
    (h : Course outside js s w calls ending s' w') (stops : s.stopsOnFailure = true) :
    ∀ c ∈ calls.dropLast, c.outcome.passed = true := by
  induction h with
  | done => exact List.forall_mem_nil _
  | cancelled => exact List.forall_mem_nil _
  | failed => exact List.forall_mem_nil _
  | @next job _ _ _ _ _ _ _ result calls _ _ _ passed _ ih =>
    cases calls with
    | nil => exact List.forall_mem_nil _
    | cons c calls => exact List.forall_mem_cons.2 ⟨passed stops, ih stops⟩

/-- What kept jobs from being run. -/
theorem Course.stopped {outside : Surroundings (StateM σ)} {js : List Job}
    {s s' : Simulation} {w w' : σ} {calls : List Call} {ending : Ending}
    (h : Course outside js s w calls ending s' w') (proper : calls.length < js.length) :
    ending = .cancelled ∧ s'.stats.cancelled = true ∨
      ending = .failed ∧ s.stopsOnFailure = true ∧ s'.stats.stoppedEarly = true ∧
        ∃ c, calls.getLast? = some c ∧ c.outcome.passed = false := by
  induction h with
  | done => exact absurd proper (Nat.lt_irrefl _)
  | cancelled => exact Or.inl ⟨rfl, rfl⟩
  | failed _ _ unpassed stops => exact Or.inr ⟨rfl, stops, rfl, _, rfl, unpassed⟩
  | @next _ _ _ _ _ _ _ _ _ calls _ _ _ _ _ ih =>
    rcases ih (Nat.lt_of_succ_lt_succ proper) with
      cancelled | ⟨ended, stops, flag, c, last, unpassed⟩
    · exact Or.inl cancelled
    · refine Or.inr ⟨ended, stops, flag, c, ?_, unpassed⟩
      cases calls with
      | nil => cases last
      | cons first calls => exact last

/-- In any surroundings the requests that a run hands out are the first of those planned, one for
each implementation with a known language and a text, and each is handed out directly after a look
that found the flag unset. If requests are left, either the flag was set as the next job was
reached, or failures end runs and the last outcome did not pass; the simulation says which. When
failures end runs, all outcomes but the last passed. -/
theorem run_stops_where_due (outside : Surroundings (StateM σ)) (problems : List Problem)
    (s : Simulation) (w : σ) :
    (∀ p i r, Implementation.request? p i = some r ↔ i.Plans p r) ∧
      ∃ (calls : List Call) (ending : Ending) (s' : Simulation) (w' : σ),
        (run outside problems s).run w = (s', w') ∧
        (run outside.watched problems s).run (w, []) =
          (s', w', calls.flatMap Call.events ++ ending.events) ∧
        calls.map (·.job.request) <+: planned problems ∧
        s'.outcomes = s.outcomes ++ calls.map Call.outcome ∧
        (calls.length < (planned problems).length →
          ending = .cancelled ∧ s'.stats.cancelled = true ∨
            ending = .failed ∧ s.stopsOnFailure = true ∧ s'.stats.stoppedEarly = true ∧
              ∃ c, calls.getLast? = some c ∧ c.outcome.passed = false) ∧
        (s.stopsOnFailure = true → ∀ c ∈ calls.dropLast, c.outcome.passed = true) := by
  refine ⟨fun _ _ _ => Implementation.request?_eq_some_iff, ?_⟩
  obtain ⟨calls, ending, course⟩ := exists_course_run outside problems s w
  have prefixed := course.jobs_isPrefix.map Job.request
  have stopped := course.stopped
  have passed := course.passed_of_mem_dropLast
  have outcomes := course.outcomes_eq
  rw [List.map_map, map_request_jobs] at prefixed
  rw [stopsOnFailure_plan] at stopped passed
  rw [outcomes_plan] at outcomes
  have length : (planned problems).length = (jobs problems).length := by
    rw [← map_request_jobs, List.length_map]
  rw [length]
  exact ⟨calls, ending, _, _, rfl, course.runJobs_watched [], prefixed, outcomes, stopped, passed⟩

end Simulation

end HarnessSynthesis
