import Scaffold.Proofs.Apply.Course
import Scaffold.Proofs.Apply.OneWorker

/-!
# Runs of a plan

Whatever the schedule, a run prepares the source files from the tree as it was, and its merges
interleave (`Run.made`). There is a run for any number of workers that works on the files in order
(`exists_run`), and one worker can do nothing else (`Run.course_eq`). Behind the run the application
is recorded if all files are done (`finish_eq_ok`).
-/

namespace Scaffold

open Destination (mergeAll)

/-! ### In order -/

namespace Plan

/-- What became of the source files before anything is merged. -/
def prepared (p : Plan) (t : FileTree) : List (Attempt StageFailure PreparedFile) :=
  Attempt.each (p.job.prepare t) p.sources

/-- The source files that are ready to be merged. -/
def files (p : Plan) (t : FileTree) : List PreparedFile := (p.prepared t).filterMap Attempt.result?

/-- The destinations of the source files. -/
def destinations (p : Plan) (t : FileTree) : List Destination :=
  Destination.group ((p.prepared t).map Attempt.result?)

theorem mem_files {p : Plan} {t : FileTree} {f : PreparedFile} :
    f ∈ p.files t ↔ .done f ∈ p.prepared t := by
  simp [files, Attempt.result?_eq_some]

end Plan

namespace Generator

variable {σ : Type} {g : Generator} {w : Workers} {source : Source σ} {request : Request} {p : Plan}
  {t t' : FileTree} {s : σ}

/-- What the destinations of a plan come to. -/
def merged (g : Generator) (p : Plan) (t : FileTree) :
    FileTree × List (Attempt StageFailure TargetOutcome) :=
  Attempt.eachWith (Destination.mergeAll g.appenders p.job.request) (p.destinations t) t

/-- The destinations of a plan and what became of them. -/
def outcomes (g : Generator) (p : Plan) (t : FileTree) : MergedDestinations :=
  (p.destinations t).zip (g.merged p t).2

/-- What the files of a plan are settled by. -/
def settled (g : Generator) (p : Plan) (t : FileTree) : MergedTargets :=
  (g.outcomes p t).map fun m => (m.1.path, m.2)

theorem inOrder_eq (g : Generator) (p : Plan) (t : FileTree) :
    g.inOrder p t = ⟨p.prepared t, (g.merged p t).2, (g.merged p t).1⟩ := rfl

theorem inOrder_destinations (g : Generator) (p : Plan) (t : FileTree) :
    (g.inOrder p t).destinations = p.destinations t := rfl

theorem run_eq (g : Generator) (p : Plan) (t : FileTree) :
    g.run p t = ((g.merged p t).1,
      FileOutcome.settle (g.settled p t) (p.sources.zip (p.prepared t))) :=
  congrArg ((g.merged p t).1, ·) ((g.inOrder p t).files_eq p.sources)

/-! ### By workers -/

/-- What is done for the destinations, by their numbers. -/
def Run.log (r : g.Run w p t) : List (Act FileTree) := r.merging.pool.log

/-- **What a run has come to**, whatever the schedule: the files were prepared from the tree as it
was, and the merges interleave. -/
theorem Run.made (r : g.Run w p t) : r.course.Made g p t r.log := by
  have hlooks : ∀ task ∈ p.sources.map fun source =>
      (Task.looking fun t => p.job.prepare t source), task.Rests t := by
    intro task htask
    obtain ⟨source, -, rfl⟩ := List.mem_map.1 htask
    exact ⟨rfl, trivial⟩
  obtain ⟨hstate, htried⟩ := r.preparation.interleaving.of_rests hlooks
  have hmerged := r.merging.interleaving
  refine ⟨⟨?_, fun i source hi => ?_, htried.skipped⟩, ?_⟩
  · exact htried.length.trans (List.length_map _)
  · exact htried.items i _ (by rw [List.getElem?_map, hi, Option.map_some])
  · exact Eq.subst (motive := fun t' => Interleaving _ t' r.course.merged r.course.tree r.log)
      hstate hmerged

theorem eachWith_prepare (p : Plan) (t : FileTree) :
    Attempt.eachWith Task.run (p.sources.map fun source =>
      .looking fun t => p.job.prepare t source) t = (t, p.prepared t) :=
  (Attempt.eachWith_map _ _ _ _).trans
    (Attempt.eachWith_of_same (fun source t => p.job.prepare t source) _ _)

theorem eachWith_merging (appenders : Registry Appender) (request : Request) (ds : List Destination)
    (t : FileTree) : Attempt.eachWith Task.run (ds.map (Destination.merging appenders request)) t =
      Attempt.eachWith (mergeAll appenders request) ds t := by
  rw [Attempt.eachWith_map]
  congr
  funext d t
  exact Destination.run_merging appenders request d t

/-- A run whose phases are done in order comes to what one worker makes of the plan. -/
theorem Run.course_eq_of_inOrder (r : g.Run w p t)
    (hprepared : (r.preparation.pool.state, r.preparation.attempts) =
      Attempt.eachWith Task.run (p.sources.map fun source =>
        .looking fun t => p.job.prepare t source) t)
    (hmerged : (r.merging.pool.state, r.merging.attempts) =
      Attempt.eachWith Task.run
        ((Destination.group (r.preparation.attempts.map Attempt.result?)).map
          (Destination.merging g.appenders p.job.request)) r.preparation.pool.state) :
    r.course = g.inOrder p t := by
  obtain ⟨hstate, hattempts⟩ := Prod.mk.inj (hprepared.trans (eachWith_prepare p t))
  have hinOrder : Attempt.eachWith Task.run
      ((Destination.group (r.preparation.attempts.map Attempt.result?)).map
        (Destination.merging g.appenders p.job.request)) r.preparation.pool.state =
      g.merged p t := by
    rw [eachWith_merging, hstate, hattempts]
    rfl
  obtain ⟨htree, hmerged⟩ := Prod.mk.inj (hmerged.trans hinOrder)
  exact congr (congr (congrArg Course.mk hattempts) hmerged) htree

/-- **Any number of workers can work on the files in order.** -/
theorem exists_run (g : Generator) (w : Workers) (p : Plan) (t : FileTree) :
    ∃ r : g.Run w p t, r.course = g.inOrder p t := by
  obtain ⟨preparation, hprepared⟩ := Pool.exists_inOrder (Nat.lt_of_lt_of_le Nat.one_pos
    (Nat.le_max_left 1 (w.count p.sources.length))) (p.sources.map fun source =>
      Task.looking fun t => p.job.prepare t source) t
  obtain ⟨merging, hmerged⟩ := Pool.exists_inOrder (Nat.lt_of_lt_of_le Nat.one_pos
    (Nat.le_max_left 1 (w.count
      (Destination.group (preparation.attempts.map Attempt.result?)).length)))
    ((Destination.group (preparation.attempts.map Attempt.result?)).map
      (Destination.merging g.appenders p.job.request)) preparation.pool.state
  exact ⟨⟨preparation, merging⟩, Run.course_eq_of_inOrder _ hprepared hmerged⟩

/-- **One worker works on the files in order.** -/
theorem Run.course_eq (hw : ∀ items, w.count items ≤ 1) (r : g.Run w p t) :
    r.course = g.inOrder p t :=
  r.course_eq_of_inOrder (Pool.Run.eq_inOrder (Nat.max_eq_left (hw _)) r.preparation)
    (Pool.Run.eq_inOrder (Nat.max_eq_left (hw _)) r.merging)

/-- What is proved of all courses holds of the one in order. -/
theorem exists_made (g : Generator) (p : Plan) (t : FileTree) :
    ∃ log, (g.inOrder p t).Made g p t log := by
  obtain ⟨r, hcourse⟩ := g.exists_run default p t
  exact ⟨r.log, hcourse ▸ r.made⟩

theorem different_outcomes (g : Generator) (p : Plan) (t : FileTree) :
    (g.outcomes p t).Pairwise fun m m' => m.1.path.same m'.1.path = false := by
  obtain ⟨log, h⟩ := g.exists_made p t
  exact h.different_outcomes

theorem map_snd_outcomes (g : Generator) (p : Plan) (t : FileTree) :
    (g.outcomes p t).map Prod.snd = (g.merged p t).2 := by
  obtain ⟨log, h⟩ := g.exists_made p t
  exact h.map_snd_outcomes

/-- What is found for a target is what became of the destination that it names. -/
theorem found?_settled {q : Path} {a : Attempt StageFailure TargetOutcome} :
    Tally.found? (g.settled p t) q = some a ↔
      ∃ m ∈ g.outcomes p t, m.1.path.same q = true ∧ m.2 = a :=
  Tally.found?_of_different (g.different_outcomes p t)

/-! ### Applications -/

/-- An application that is reported has been recorded or was in the manifest if all files are done,
and otherwise nothing follows the merges. -/
theorem finish_eq_ok {files : List FileOutcome} {r : UnitReport}
    (h : finish request files t = (t', .ok r)) :
    r.files = files ∧ (r.isOk = false ∧ t' = t ∨ r.isOk = true ∧
      ∃ isNew, Manifest.record t request.targetRoot request.identity = (t', .ok isNew)) := by
  unfold finish at h
  dsimp only at h
  split at h
  · rename_i hok
    split at h
    · rename_i isNew hrecord
      obtain ⟨rfl, hr⟩ := Prod.mk.inj h
      obtain rfl := Except.ok.inj hr
      exact ⟨rfl, .inr ⟨hok, isNew, hrecord⟩⟩
    · cases h
  · rename_i hok
    obtain ⟨rfl, hr⟩ := Prod.mk.inj h
    obtain rfl := Except.ok.inj hr
    exact ⟨rfl, .inl ⟨Bool.eq_false_iff.2 hok, rfl⟩⟩

namespace Application

variable (a : g.Application w source request t s)

/-- What is done for the destinations, by their numbers. -/
def log : List (Act FileTree) := a.run.log

theorem made : a.course.Made g a.plan t a.log := a.run.made

theorem applied_eq : (a.applied.tree, a.applied.report) =
    finish request (a.course.files a.plan.sources) a.course.tree := rfl

/-- What an application that is reported has come to behind the merges. -/
theorem report_cases {r : UnitReport} (hreport : a.applied.report = .ok r) :
    r.files = a.course.files a.plan.sources ∧
      (r.isOk = false ∧ a.applied.tree = a.course.tree ∨
        r.isOk = true ∧ ∃ isNew, Manifest.record a.course.tree request.targetRoot
          request.identity = (a.applied.tree, .ok isNew)) := by
  have hfinish := a.applied_eq
  rw [hreport] at hfinish
  exact finish_eq_ok hfinish.symm

end Application

/-- **Any number of workers can come to what one comes to.** -/
theorem exists_application (w : Workers) (hplan : (g.plan source request t s).1 = .ok p) :
    ∃ a : g.Application w source request t s, a.plan = p ∧ a.course = g.inOrder p t ∧
      a.applied = g.apply source request t s := by
  obtain ⟨r, hcourse⟩ := g.exists_run w p t
  refine ⟨⟨p, hplan, r⟩, rfl, hcourse, ?_⟩
  rw [Application.applied, Application.course, hcourse, apply]
  dsimp only
  generalize g.plan source request t s = planned at hplan
  obtain ⟨plan?, s'⟩ := planned
  obtain rfl : plan? = .ok p := hplan
  rfl

/-- What one worker comes to is among what any number of workers may come to. -/
theorem applies_apply (w : Workers) :
    g.Applies w source request t s (g.apply source request t s) := by
  cases h : g.plan source request t s with
  | mk plan? s' =>
    cases plan? with
    | error e =>
      have happly : g.apply source request t s = ⟨.error e, t, s'⟩ := by rw [apply, h]
      exact happly ▸ .unplanned h
    | ok p =>
      obtain ⟨a, -, -, happlied⟩ := exists_application (p := p) w (by rw [h])
      exact happlied ▸ .planned a

/-- **One worker comes to one thing.** -/
theorem applies_iff (hw : ∀ items, w.count items ≤ 1) {b : Applied σ} :
    g.Applies w source request t s b ↔ b = g.apply source request t s := by
  constructor
  · rintro (h | a)
    · rw [apply, h]
    · obtain ⟨a', hplan, hcourse, happlied⟩ := exists_application w a.planned
      rw [← happlied, Application.applied, Application.applied, hcourse, hplan, Application.course,
        a.run.course_eq hw]
  · rintro rfl
    exact applies_apply w

/-- An application comes to what the run of its plan comes to. -/
theorem apply_eq_finish (hplan : (g.plan source request t s).1 = .ok p) :
    ((g.apply source request t s).tree, (g.apply source request t s).report) =
      finish request (g.run p t).2 (g.run p t).1 := by
  obtain ⟨a, rfl, hcourse, happlied⟩ := exists_application default hplan
  rw [← happlied, a.applied_eq, hcourse]
  rfl

/-- What an application that is reported has come to behind the merges. -/
theorem report_cases {r : UnitReport} (hplan : (g.plan source request t s).1 = .ok p)
    (hreport : (g.apply source request t s).report = .ok r) :
    r.files = (g.run p t).2 ∧
      (r.isOk = false ∧ (g.apply source request t s).tree = (g.merged p t).1 ∨
        r.isOk = true ∧ ∃ isNew, Manifest.record (g.merged p t).1 request.targetRoot
          request.identity = ((g.apply source request t s).tree, .ok isNew)) := by
  obtain ⟨a, rfl, hcourse, happlied⟩ := exists_application default hplan
  have hcases := a.report_cases (happlied ▸ hreport)
  rwa [hcourse, happlied] at hcases

end Generator

end Scaffold
