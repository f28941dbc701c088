import Scaffold.Proofs.Apply.Part
import Scaffold.Proofs.Apply.Target

/-!
# What a report says was written

A report lists paths that are in order and differ (`ordered_written`). The files are settled behind
the merges, and a file with several targets is done only if all of their destinations are. So the
report lists the destinations that the merges changed, but only those that a file has for a target
which is done (`written_iff`): a destination that was changed on behalf of a file that failed, or
was skipped, at another destination is not listed.
-/

namespace Scaffold

/-! ### Lists of paths -/

namespace UnitReport

variable {p q : Path} {l : List Path}

theorem of_mem_insertPath (h : q ∈ insertPath p l) : q = p ∨ q ∈ l := by
  induction l with
  | nil => exact .inl (List.mem_singleton.1 h)
  | cons r l ih =>
    rw [insertPath] at h
    split at h
    · exact .inr h
    · split at h
      · exact List.mem_cons.1 h
      · rcases List.mem_cons.1 h with rfl | h
        · exact .inr List.mem_cons_self
        · exact (ih h).imp_right (List.mem_cons_of_mem _)

/-- A path that is not listed under another spelling is listed then, as are the others. -/
theorem mem_insertPath (hp : ∀ r ∈ l, p.same r = true → r = p) :
    q ∈ insertPath p l ↔ q = p ∨ q ∈ l := by
  refine ⟨of_mem_insertPath, ?_⟩
  induction l with
  | nil => simp [insertPath]
  | cons r l ih =>
    obtain ⟨hfirst, hrest⟩ := List.forall_mem_cons.1 hp
    rw [insertPath]
    split
    · rename_i hsame
      rw [hfirst hsame]
      rintro (rfl | h)
      · exact List.mem_cons_self
      · exact h
    · split
      · exact List.mem_cons.2
      · rintro (rfl | h)
        · exact List.mem_cons_of_mem _ (ih hrest (.inl rfl))
        · rcases List.mem_cons.1 h with rfl | h
          · exact List.mem_cons_self
          · exact List.mem_cons_of_mem _ (ih hrest (.inr h))

theorem ordered_insertPath (h : l.Pairwise Path.Before) (p : Path) :
    (insertPath p l).Pairwise Path.Before := by
  induction l with
  | nil => exact List.pairwise_singleton _ _
  | cons r l ih =>
    obtain ⟨hfirst, hrest⟩ := List.pairwise_cons.1 h
    rw [insertPath]
    split
    · exact h
    · rename_i hother
      have hother := Bool.eq_false_iff.2 hother
      split
      · rename_i hle
        refine List.pairwise_cons.2 ⟨List.forall_mem_cons.2 ⟨⟨hle, hother⟩, fun q hq => ?_⟩, h⟩
        exact (hfirst q hq).trans_le hle
      · rename_i hnot
        refine List.pairwise_cons.2 ⟨fun q hq => ?_, ih hrest⟩
        rcases of_mem_insertPath hq with rfl | hq
        · exact Path.before_of_not_le (Bool.eq_false_iff.2 hnot)
        · exact hfirst q hq

/-- Paths of which no two are spellings of one path are put in order one after the other. -/
theorem foldl_insertPath (listed : Path → Prop)
    (hlisted : ∀ p, listed p → ∀ q, listed q → p.same q = true → q = p)
    {os : List TargetOutcome} (hos : ∀ o ∈ os, listed o.path) {acc : List Path}
    (hacc : ∀ q ∈ acc, listed q) (hordered : acc.Pairwise Path.Before) :
    (os.foldl (fun acc o => insertPath o.path acc) acc).Pairwise Path.Before ∧
      ∀ q, q ∈ os.foldl (fun acc o => insertPath o.path acc) acc ↔
        (∃ o ∈ os, o.path = q) ∨ q ∈ acc := by
  induction os generalizing acc with
  | nil => exact ⟨hordered, by simp⟩
  | cons o os ih =>
    obtain ⟨ho, hos⟩ := List.forall_mem_cons.1 hos
    have hmem : ∀ q, q ∈ insertPath o.path acc ↔ q = o.path ∨ q ∈ acc := fun q =>
      mem_insertPath fun r hr => hlisted o.path ho r (hacc r hr)
    have hacc' : ∀ q ∈ insertPath o.path acc, listed q := fun q hq => by
      rcases (hmem q).1 hq with rfl | hq
      · exact ho
      · exact hacc q hq
    obtain ⟨hrest, hall⟩ := ih hos hacc' (ordered_insertPath hordered o.path)
    refine ⟨hrest, fun q => ?_⟩
    rw [List.foldl_cons, hall, hmem, List.exists_mem_cons_iff, or_assoc, or_left_comm, eq_comm]

/-- The report lists an outcome: the file is done, and the destination was written. -/
def Lists (r : UnitReport) (o : TargetOutcome) : Prop :=
  (∃ f ∈ r.files, o ∈ f.targets) ∧ o.written = true

/-- The written paths are in order, each of them once, as long as no two of them are spellings of
one path. -/
theorem ordered_written {r : UnitReport} (hlisted : ∀ o, r.Lists o → ∀ o', r.Lists o' →
      o.path.same o'.path = true → o'.path = o.path) :
    r.written.Pairwise Path.Before ∧ ∀ q, q ∈ r.written ↔ ∃ o, r.Lists o ∧ o.path = q := by
  have hlists : ∀ o, o ∈ (r.files.flatMap FileOutcome.targets).filter (·.written) ↔ r.Lists o := by
    simp [Lists]
  obtain ⟨hordered, hall⟩ := foldl_insertPath (fun q => ∃ o, r.Lists o ∧ o.path = q)
    (by
      rintro _ ⟨o, ho, rfl⟩ _ ⟨o', ho', rfl⟩
      exact hlisted o ho o' ho')
    (fun o ho => ⟨o, (hlists o).1 ho, rfl⟩) (by simp) List.Pairwise.nil
  refine ⟨hordered, fun q => ?_⟩
  rw [written, hall]
  simp [hlists]

end UnitReport

/-! ### What applications list -/

namespace Generator

variable {σ : Type} {g : Generator} {w : Workers} {source : Source σ} {request : Request}
  {t : FileTree} {s : σ} {r : UnitReport}

namespace Application

/-- The merge of a destination changes what its path finds, from its first act to its last. -/
def Changes (a : g.Application w source request t s) (d : Destination) : Prop :=
  ∃ n, a.course.destinations[n]? = some d ∧ ∃ first ∈ (actsOf n a.log).head?,
    ∃ last ∈ (actsOf n a.log).getLast?,
      last.behind.content? d.path ≠ first.before.content? d.path

/-- The destinations of all targets of a file are done. -/
def Finished (a : g.Application w source request t s) (f : PreparedFile) : Prop :=
  ∀ target ∈ f.targets, ∀ m ∈ a.course.outcomes, m.1.path.same target = true → m.2.isDone = true

variable (a : g.Application w source request t s)

/-- A destination that is done was written if and only if its merge has changed it. -/
theorem isWritten_iff {d : Destination} {o : TargetOutcome} (h : (d, .done o) ∈ a.course.outcomes) :
    o.path = d.path ∧ (o.written = true ↔ a.Changes d) := by
  obtain ⟨n, hn⟩ := List.mem_iff_getElem?.1 h
  obtain ⟨hpath, hwritten⟩ := (a.made.merges hn).path_and_written
  refine ⟨hpath, hwritten.trans ⟨fun hchanged => ⟨n, ?_, hchanged⟩, ?_⟩⟩
  · exact (List.getElem?_zip_eq_some.1 hn).1
  · rintro ⟨n', hn', hchanged⟩
    obtain ⟨x, hx⟩ := a.made.exists_outcome hn'
    obtain rfl := Path.index_eq_of_same a.made.different_outcomes hn hx (Path.same_refl _)
    exact hchanged

/-- The report lists what finished files have brought about. -/
theorem lists_iff (hfiles : r.files = a.course.files a.plan.sources) {o : TargetOutcome} :
    r.Lists o ↔ ∃ d, (d, .done o) ∈ a.course.outcomes ∧ a.Changes d ∧
      ∃ f ∈ a.course.ready, (∃ target ∈ f.targets, d.path.same target = true) ∧ a.Finished f := by
  rw [UnitReport.Lists, hfiles, Course.files_eq, FileOutcome.exists_settle_iff]
  constructor
  · rintro ⟨⟨source, f, hmem, hdone, target, htarget, hfound⟩, hwritten⟩
    obtain ⟨⟨d, x⟩, hd, hsame, rfl⟩ := a.made.found?_settled.1 hfound
    refine ⟨d, hd, (a.isWritten_iff hd).2.1 hwritten, f,
      Course.mem_ready.2 (List.of_mem_zip hmem).2, ⟨target, htarget, hsame⟩,
      fun target' htarget' m hm hsame' => ?_⟩
    exact hdone target' htarget' m.2 (a.made.found?_settled.2 ⟨m, hm, hsame', rfl⟩)
  · rintro ⟨d, hd, hchanged, f, hf, ⟨target, htarget, hsame⟩, hfinished⟩
    obtain ⟨source, hmem⟩ := a.made.exists_mem_zip (Course.mem_ready.1 hf)
    refine ⟨⟨source, f, hmem, fun target' htarget' x hx => ?_, target, htarget,
      a.made.found?_settled.2 ⟨_, hd, hsame, rfl⟩⟩, (a.isWritten_iff hd).2.2 hchanged⟩
    obtain ⟨m, hm, hsame', rfl⟩ := a.made.found?_settled.1 hx
    exact hfinished target' htarget' m hm hsame'

theorem written_of_files (hfiles : r.files = a.course.files a.plan.sources) :
    r.written.Pairwise Path.Before ∧ ∀ q, q ∈ r.written ↔ (∃ d, d.path = q ∧ a.Changes d) ∧
      ∃ f ∈ a.course.ready, (∃ target ∈ f.targets, q.same target = true) ∧ a.Finished f := by
  have hlists : ∀ o, r.Lists o ↔ _ := fun o => a.lists_iff hfiles
  obtain ⟨hordered, hall⟩ := UnitReport.ordered_written (r := r) fun o ho o' ho' hsame => by
    obtain ⟨d, hd, -⟩ := (hlists o).1 ho
    obtain ⟨d', hd', -⟩ := (hlists o').1 ho'
    rw [(a.isWritten_iff hd).1, (a.isWritten_iff hd').1] at hsame ⊢
    have heq := Path.eq_of_same a.made.different_outcomes hd hd' hsame
    rw [(Prod.mk.inj heq).1]
  refine ⟨hordered, fun q => (hall q).trans ⟨?_, ?_⟩⟩
  · rintro ⟨o, ho, rfl⟩
    obtain ⟨d, hd, hchanged, hfinished⟩ := (hlists o).1 ho
    rw [(a.isWritten_iff hd).1]
    exact ⟨⟨d, rfl, hchanged⟩, hfinished⟩
  · rintro ⟨⟨d, rfl, hchanged⟩, f, hf, ⟨target, htarget, hsame⟩, hfinished⟩
    have ⟨n, hn, _⟩ := hchanged
    obtain ⟨x, hx⟩ := a.made.exists_outcome hn
    have hm := List.mem_of_getElem? hx
    obtain ⟨o, rfl⟩ := Attempt.isDone_iff.1 (hfinished target htarget _ hm hsame)
    exact ⟨o, (hlists o).2 ⟨d, hm, hchanged, f, hf, ⟨target, htarget, hsame⟩, hfinished⟩,
      (a.isWritten_iff hm).1⟩

end Application

/-- **What a report lists as written**, whatever the schedule: in order, and each of them once, the
destinations that the merges have changed and that are targets of a file whose targets are all
done. -/
theorem written_iff (a : g.Application w source request t s) (hreport : a.applied.report = .ok r) :
    r.written.Pairwise Path.Before ∧ ∀ q, q ∈ r.written ↔ (∃ d, d.path = q ∧ a.Changes d) ∧
      ∃ f ∈ a.course.ready, (∃ target ∈ f.targets, q.same target = true) ∧ a.Finished f :=
  a.written_of_files (a.report_cases hreport).1

/-- Where all files are done, what is listed as written is what the merges have changed. -/
theorem written_of_isOk (a : g.Application w source request t s)
    (hreport : a.applied.report = .ok r) (hok : r.isOk = true) {q : Path} :
    q ∈ r.written ↔ ∃ d, d.path = q ∧ a.Changes d := by
  have hfiles := (a.report_cases hreport).1
  refine ((a.written_of_files hfiles).2 q).trans ⟨And.left, fun hchanged => ⟨hchanged, ?_⟩⟩
  obtain ⟨d, hpath, n, hn, -⟩ := hchanged
  obtain ⟨f, hf, htarget⟩ := Course.exists_target (List.mem_of_getElem? hn)
  have hall := List.all_eq_true.1 hok
  rw [hfiles] at hall
  have hdone := (a.made.done_of_files hall).2
  exact ⟨f, hf, ⟨d.path, htarget, hpath ▸ Path.same_refl _⟩, fun _ _ m hm _ =>
    hdone m.2 (List.of_mem_zip hm).2⟩

/-- A source file for all files of a kind: the first one is merged, and the second one has a region
without an end. -/
def patternTree : FileTree :=
  partTree [(["*.ts"], .file (.text "x"))] [(["project"], .folder),
    (["project", "a.ts"], .file (.text "")),
    (["project", "b.ts"], .file (.text "// @scf-region\n"))]

theorem plan_pattern : (Generator.builtin.plan (Source.folder ⟨""⟩) partRequest patternTree ()).1 =
    .ok (partPlan [⟨"*.ts"⟩]) :=
  plan_partFor rfl (by rfl) rfl (by rfl) (list_part (by decide))

theorem prepared_pattern : (partPlan [⟨"*.ts"⟩]).prepared patternTree =
    [.done ⟨⟨partRequest.identity, ⟨"*.ts"⟩, partOptions, []⟩, "x",
      [⟨"project/a.ts"⟩, ⟨"project/b.ts"⟩]⟩] := by
  have hlist : patternTree.list ⟨"project"⟩ = .ok [⟨"a.ts"⟩, ⟨"b.ts"⟩] :=
    FileTree.list_of_pairwise (z := ["project"]) (by rfl) (by rfl) (by decide)
  have hparse : Glob.parse (Target.pattern ⟨"*.ts"⟩) =
      .ok [.many, .literal '.', .literal 't', .literal 's'] := by rfl
  have hfiles : (([⟨"a.ts"⟩, ⟨"b.ts"⟩] : List Path).filter fun p => !Target.isManifest p &&
      Glob.isMatch [.many, .literal '.', .literal 't', .literal 's'] p.text).map
        (Path.join ⟨"project"⟩) = [⟨"project/a.ts"⟩, ⟨"project/b.ts"⟩] := by decide +kernel
  have hresolve : Target.resolve patternTree ⟨"project"⟩ ⟨"*.ts"⟩ partOptions =
      .ok [⟨"project/a.ts"⟩, ⟨"project/b.ts"⟩] := by
    rw [Target.resolve_of_list (by decide) hparse (by decide) hlist, hfiles]
  have hprepare : (partPlan [⟨"*.ts"⟩]).job.prepare patternTree ⟨"*.ts"⟩ =
      .ok ⟨⟨partRequest.identity, ⟨"*.ts"⟩, partOptions, []⟩, "x",
        [⟨"project/a.ts"⟩, ⟨"project/b.ts"⟩]⟩ := by
    refine Outcome.bind_eq_ok.2 ⟨"x", by rfl, Outcome.bind_eq_ok.2 ⟨(partOptions, "x"), by rfl, ?_⟩⟩
    refine Outcome.bind_eq_ok.2
      ⟨(⟨partRequest.identity, ⟨"*.ts"⟩, partOptions, []⟩, "x"), by rfl, ?_⟩
    refine Outcome.bind_eq_ok.2 ⟨_, ?_, rfl⟩
    exact congrArg _ hresolve
  exact congrArg (fun x => Attempt.each (fun _ => x) [()]) hprepare

/-- The first file has changed, but no file is finished that has it for a target. -/
theorem written_iff_of_pattern :
    ∃ (a : builtin.Application ⟨false, 0, 2⟩ (Source.folder ⟨""⟩) partRequest patternTree ())
      (r : _),
      a.applied.report = .ok r ∧ r.written = [] ∧
        (∃ d, d.path = ⟨"project/a.ts"⟩ ∧ a.Changes d) ∧
        ¬ ∃ f ∈ a.course.ready,
          (∃ target ∈ f.targets, Path.same ⟨"project/a.ts"⟩ target = true) ∧ a.Finished f := by
  obtain ⟨a, -, hcourse, happlied⟩ := exists_application ⟨false, 0, 2⟩ plan_pattern
  obtain ⟨r, hreport, hr⟩ : ∃ r, a.applied.report = .ok r ∧ r.written.isEmpty = true := by
    rw [happlied, ← applyPartFor, (applyPartFor_eq plan_pattern).2, runPartFor, ← partPlan, run_eq,
      settled, outcomes, merged, Plan.destinations, prepared_pattern]
    exact Outcome.any_toOption.1 (by decide +kernel)
  have hwritten := List.isEmpty_iff.1 hr
  have hany : a.course.outcomes.any (fun m => m.1.path == ⟨"project/a.ts"⟩ &&
      m.2.result?.any (·.written)) = true := by
    rw [hcourse, inOrder_eq, merged, Plan.destinations, prepared_pattern]
    decide +kernel
  have hchanged : ∃ d, d.path = ⟨"project/a.ts"⟩ ∧ a.Changes d := by
    obtain ⟨⟨d, x⟩, hm, hboth⟩ := List.any_eq_true.1 hany
    obtain ⟨hpath, hresult⟩ := Bool.and_eq_true_iff.1 hboth
    obtain ⟨o, ho, howritten⟩ := (Option.any_eq_true _ _).1 hresult
    obtain rfl := Attempt.result?_eq_some.1 ho
    exact ⟨d, beq_iff_eq.1 hpath, (a.isWritten_iff hm).2.1 howritten⟩
  refine ⟨a, r, hreport, hwritten, hchanged, fun hfinished => ?_⟩
  have hlisted := ((written_iff a hreport).2 ⟨"project/a.ts"⟩).2 ⟨hchanged, hfinished⟩
  rw [hwritten] at hlisted
  exact List.not_mem_nil hlisted

end Generator
end Scaffold
