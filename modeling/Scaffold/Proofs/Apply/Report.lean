import Scaffold.Apply.Report
import Scaffold.Proofs.Apply.Attempt
import Scaffold.Proofs.Path.Order

/-!
# Which files are done

Every destination is a target of its first source file, and destinations have different paths
(`grouped_group`). A file is done if it was prepared and the destinations of all of its targets are
done (`result?_settle`). So if all files are done, then all of them were prepared and all
destinations were merged (`done_of_settle`), and if all destinations were left as they are, then all
files are done and none was written (`settle_of_unwritten`). The order of destinations that are done
is of no account (`settle_perm`).
-/

namespace Scaffold

@[simp] theorem Path.same_refl (p : Path) : p.same p = true := beq_self_eq_true _

/-! ### Destinations of files -/

namespace Destination

variable {files : List (Option PreparedFile)} {ds : List Destination}

/-- The destination has a first source file, and is one of the targets of it. -/
def Founded (files : List (Option PreparedFile)) (d : Destination) : Prop :=
  ∃ index first rest, d.contributors = (index, first) :: rest ∧ some first ∈ files ∧
    d.path ∈ first.targets

/-- Destinations of files: each has a first file, and their paths differ. -/
structure Grouped (files : List (Option PreparedFile)) (ds : List Destination) : Prop where
  founded : ∀ d ∈ ds, d.Founded files
  different : ds.Pairwise fun d e => d.path.same e.path = false

theorem path_contribute (d : Destination) (index : Nat) (file : PreparedFile) :
    (d.contribute index file).path = d.path := by
  rw [contribute]
  split <;> rfl

theorem Founded.contribute {d : Destination} (h : d.Founded files) (index : Nat)
    (file : PreparedFile) : (d.contribute index file).Founded files := by
  obtain ⟨i, first, rest, hd, hfile, htarget⟩ := h
  rw [Destination.contribute]
  split
  · exact ⟨i, first, rest, hd, hfile, htarget⟩
  · exact ⟨i, first, rest ++ [(index, file)], by simp [hd], hfile, htarget⟩

section
variable {index : Nat} {file : PreparedFile} {target : Path}

/-- What holds of all destinations holds still when a file has one more target. -/
theorem forall_mem_add {P : Destination → Prop} (h : ∀ d ∈ ds, P d)
    (hnew : P ⟨target, [(index, file)]⟩) (hagain : ∀ d, P d → P (d.contribute index file)) :
    ∀ d ∈ add index file target ds, P d := by
  induction ds with
  | nil => exact List.forall_mem_singleton.2 hnew
  | cons d ds ih =>
    obtain ⟨hd, hds⟩ := List.forall_mem_cons.1 h
    rw [add]
    split
    · exact List.forall_mem_cons.2 ⟨hagain d hd, hds⟩
    · exact List.forall_mem_cons.2 ⟨hd, ih hds⟩

/-- A target is added to a destination with its path, or as a new destination. -/
theorem path_of_mem_add :
    ∀ d ∈ add index file target ds, d.path = target ∨ ∃ e ∈ ds, d.path = e.path := by
  refine forall_mem_add (fun d hd => .inr ⟨d, hd, rfl⟩) (.inl rfl) fun d hd => ?_
  rwa [path_contribute]

theorem different_add (h : ds.Pairwise fun d e => d.path.same e.path = false) :
    (add index file target ds).Pairwise fun d e => d.path.same e.path = false := by
  induction ds with
  | nil => exact List.pairwise_singleton _ _
  | cons d ds ih =>
    obtain ⟨hfirst, hrest⟩ := List.pairwise_cons.1 h
    rw [add]
    split
    · exact List.pairwise_cons.2 ⟨by simpa only [path_contribute] using hfirst, hrest⟩
    · rename_i hother
      refine List.pairwise_cons.2 ⟨fun e he => ?_, ih hrest⟩
      rcases path_of_mem_add e he with hpath | ⟨e', he', hpath⟩
      · rw [hpath]
        exact Bool.eq_false_iff.2 hother
      · rw [hpath]
        exact hfirst e' he'

theorem Grouped.add (h : Grouped files ds) (hfile : some file ∈ files)
    (htarget : target ∈ file.targets) : Grouped files (add index file target ds) := by
  have hnew : Founded files ⟨target, [(index, file)]⟩ := ⟨index, file, [], rfl, hfile, htarget⟩
  have hagain := fun d (hd : Founded files d) => hd.contribute index file
  exact ⟨forall_mem_add h.founded hnew hagain, different_add h.different⟩

end

theorem Grouped.addAll (h : Grouped files ds) {index : Nat} {file : PreparedFile}
    (hfile : some file ∈ files) : Grouped files (addAll ds index file) := by
  suffices hall : ∀ (targets : List Path) (ds : List Destination),
      (∀ q ∈ targets, q ∈ file.targets) → Grouped files ds → Grouped files
        (targets.foldl (fun ds target => Destination.add index file target ds) ds) from
    hall file.targets ds (fun _ hq => hq) h
  intro targets
  induction targets with
  | nil => exact fun _ _ h => h
  | cons q targets ih =>
    intro ds hq h
    obtain ⟨hfirst, hrest⟩ := List.forall_mem_cons.1 hq
    exact ih _ hrest (h.add hfile hfirst)

/-- **The destinations of files are targets of these, each of them once.** -/
theorem grouped_group (files : List (Option PreparedFile)) : Grouped files (group files) := by
  suffices hall : ∀ (rest : List (Option PreparedFile)) (index : Nat) (ds : List Destination),
      (∀ f ∈ rest, f ∈ files) → Grouped files ds → Grouped files (groupFrom ds index rest) from
    hall files 0 [] (fun _ hf => hf) ⟨by simp, List.Pairwise.nil⟩
  intro rest
  induction rest with
  | nil => exact fun _ _ _ h => h
  | cons f rest ih =>
    intro index ds hf h
    obtain ⟨hfirst, hrest⟩ := List.forall_mem_cons.1 hf
    cases f with
    | none => exact ih (index + 1) ds hrest h
    | some file => exact ih (index + 1) _ hrest (h.addAll hfirst)

end Destination

/-! ### Tallies -/

namespace Tally

variable {merged merged' : MergedTargets} {t : Tally} {q q' : Path} {targets : List Path}

/-- What has become of the destination with a path. -/
def found? (merged : MergedTargets) (q : Path) : Option (Attempt StageFailure TargetOutcome) :=
  (merged.find? (·.1.same q)).map Prod.snd

/-- Where destinations have different paths, each is found by the paths that name it. -/
theorem found?_eq_some (hdifferent : merged.Pairwise fun m m' => m.1.same m'.1 = false)
    {a : Attempt StageFailure TargetOutcome} :
    found? merged q = some a ↔ ∃ path, (path, a) ∈ merged ∧ path.same q = true := by
  constructor
  · intro h
    obtain ⟨m, hfind, rfl⟩ := Option.map_eq_some_iff.1 h
    have hm := List.find?_some hfind
    exact ⟨m.1, List.mem_of_find?_eq_some hfind, hm⟩
  · rintro ⟨path, hmem, hpath⟩
    obtain ⟨m, hfind⟩ : ∃ m, merged.find? (·.1.same q) = some m :=
      Option.isSome_iff_exists.1 (List.find?_isSome.2 ⟨_, hmem, hpath⟩)
    have hm := List.find?_some hfind
    have hsame : m.1.same path = true :=
      Path.same_of_same hm hpath
    obtain rfl := Path.eq_of_same hdifferent (List.mem_of_find?_eq_some hfind) hmem hsame
    rw [found?, hfind]
    rfl

/-- What the destination with a path came to, if it is done. -/
def result? (merged : MergedTargets) (q : Path) : Option (Option TargetOutcome) :=
  (found? merged q).map Attempt.result?

/-- What the destinations of targets came to, if all of them are done. -/
def results? (merged : MergedTargets) : List Path → Option (List TargetOutcome)
  | [] => some []
  | q :: targets =>
    match result? merged q with
    | none => results? merged targets
    | some o? => o?.bind fun o => (results? merged targets).map (o :: ·)

theorem results?_congr (h : ∀ q, result? merged' q = result? merged q) (targets : List Path) :
    results? merged' targets = results? merged targets := by
  induction targets with
  | nil => rfl
  | cons q targets ih => rw [results?, results?, h, ih]

theorem results?_eq_some {os : List TargetOutcome} (h : results? merged targets = some os) :
    (∀ q ∈ targets, ∀ a, found? merged q = some a → a.isDone = true) ∧
      ∀ o, o ∈ os ↔ ∃ q ∈ targets, found? merged q = some (.done o) := by
  induction targets generalizing os with
  | nil =>
    obtain rfl := Option.some.inj h
    simp
  | cons q targets ih =>
    rw [results?, result?] at h
    cases hq : found? merged q with
    | none =>
      rw [hq] at h
      obtain ⟨hdone, hmem⟩ := ih h
      exact ⟨List.forall_mem_cons.2 ⟨by simp [hq], hdone⟩, by simp [hmem, hq]⟩
    | some a =>
      rw [hq] at h
      obtain ⟨o, ho, h⟩ := Option.bind_eq_some_iff.1 h
      obtain ⟨os, hos, rfl⟩ := Option.map_eq_some_iff.1 h
      obtain rfl := Attempt.result?_eq_some.1 ho
      obtain ⟨hdone, hmem⟩ := ih hos
      refine ⟨List.forall_mem_cons.2 ⟨fun a ha => ?_, hdone⟩, ?_⟩
      · rw [hq] at ha
        exact Option.some.inj ha ▸ rfl
      · simp [hmem, hq, eq_comm]

theorem isSome_results?
    (h : ∀ q ∈ targets, ∀ a, found? merged q = some a → a.isDone = true) :
    ∃ os, results? merged targets = some os := by
  induction targets with
  | nil => exact ⟨[], rfl⟩
  | cons q targets ih =>
    obtain ⟨hfirst, hrest⟩ := List.forall_mem_cons.1 h
    obtain ⟨os, hos⟩ := ih hrest
    rw [results?, result?]
    cases hq : found? merged q with
    | none => exact ⟨os, hos⟩
    | some a =>
      obtain ⟨o, rfl⟩ := Attempt.isDone_iff.1 (hfirst a hq)
      exact ⟨o :: os, by simp [hos, Attempt.result?]⟩

@[simp] theorem found?_cons (path : Path) (a : Attempt StageFailure TargetOutcome)
    (merged : MergedTargets) (q : Path) :
    found? ((path, a) :: merged) q = if path.same q then some a else found? merged q := by
  rw [found?, List.find?_cons]
  cases path.same q <;> simp [found?]

/-- To mention a failure changes what is found for the paths that name its destination. -/
theorem found?_mention (stage : Stage) (merged : MergedTargets) (q q' : Path) :
    found? (mention q stage merged) q' =
      if q.same q' && (found? merged q).isSome then some (.failed ⟨stage, .sharedTarget q⟩)
      else found? merged q' := by
  induction merged with
  | nil => simp [mention, found?]
  | cons m merged ih =>
    obtain ⟨path, a⟩ := m
    rw [mention]
    by_cases hpath : path.same q = true
    · have hsame := Path.same_congr hpath q'
      cases hother : q.same q' <;> simp [hpath, hsame, hother]
    · have hapart : path.same q' = true → q.same q' = false := fun hpath' =>
        Bool.eq_false_iff.2 fun hother => hpath (Path.same_of_same hpath' hother)
      cases hpath' : path.same q' with
      | true => simp [hpath, hpath', hapart hpath']
      | false => simp [hpath, hpath', ih]

theorem found?_congr (h : q.same q' = true) (merged : MergedTargets) :
    found? merged q = found? merged q' := by
  have hsame : ∀ path : Path, path.same q = path.same q' := fun path => by
    rw [Path.same_comm, Path.same_congr h, Path.same_comm]
  simp only [found?, hsame]

/-- To mention a failure does not change what destinations came to. -/
theorem result?_mention {stage : Stage} {f : StageFailure} (h : found? merged q = some (.failed f))
    (q' : Path) : result? (mention q stage merged) q' = result? merged q' := by
  rw [result?, result?, found?_mention, h]
  cases hsame : q.same q' with
  | false => rfl
  | true => rw [← found?_congr hsame, h]; rfl

/-- One more target: what destinations came to stays, and the file stays done if that one is. -/
theorem result?_add (t : Tally) (q : Path) :
    (∀ q', result? (t.add q).merged q' = result? t.merged q') ∧
      (t.add q).state.result? = match result? t.merged q with
        | none => t.state.result?
        | some o? => o?.bind fun o => t.state.result?.map (· ++ [o]) := by
  unfold add
  rw [← found?, result?]
  cases hq : found? t.merged q with
  | none => exact ⟨fun _ => rfl, rfl⟩
  | some a =>
    cases a with
    | done o =>
      refine ⟨fun _ => rfl, ?_⟩
      cases hfailure : t.failure? <;> cases hskipped : t.isSkipped <;>
        simp [state, Attempt.result?, hfailure, hskipped]
    | failed f =>
      cases hfailure : t.failure? with
      | none => exact ⟨result?_mention hq, rfl⟩
      | some f' => exact ⟨fun _ => rfl, by simp [state, Attempt.result?, hfailure]⟩
    | skipped =>
      refine ⟨fun _ => rfl, ?_⟩
      cases hfailure : t.failure? <;> simp [state, Attempt.result?, hfailure]

/-- All targets: what destinations came to stays, and the file is done if theirs are. -/
theorem result?_foldl_add (t : Tally) (targets : List Path) :
    (∀ q', result? (targets.foldl add t).merged q' = result? t.merged q') ∧
      (targets.foldl add t).state.result? =
        t.state.result?.bind fun os => (results? t.merged targets).map (os ++ ·) := by
  induction targets generalizing t with
  | nil => cases h : t.state.result? <;> simp [results?, h]
  | cons q targets ih =>
    obtain ⟨hkept, hstate⟩ := result?_add t q
    obtain ⟨hrest, hresult⟩ := ih (t.add q)
    refine ⟨fun q' => (hrest q').trans (hkept q'), ?_⟩
    rw [List.foldl_cons, hresult, hstate, results?_congr hkept, results?]
    cases result? t.merged q with
    | none => rfl
    | some o? =>
      cases o? <;> cases t.state.result? <;> cases results? t.merged targets <;> simp

/-- A target of which the destination is done. -/
theorem add_of_done (h : ∀ m ∈ t.merged, m.2.isDone = true) (q : Path) :
    t.add q = ⟨t.outcomes ++ ((found? t.merged q).bind Attempt.result?).toList, t.failure?,
      t.isSkipped, t.merged⟩ := by
  unfold add
  rw [← found?]
  cases hq : found? t.merged q with
  | none => simp
  | some a =>
    obtain ⟨m, hfind, rfl⟩ := Option.map_eq_some_iff.1 hq
    obtain ⟨o, ho⟩ := Attempt.isDone_iff.1 (h m (List.mem_of_find?_eq_some hfind))
    simp [ho, Attempt.result?]

/-- Targets of which the destinations are done. -/
theorem foldl_add_of_done (h : ∀ m ∈ t.merged, m.2.isDone = true) (targets : List Path) :
    targets.foldl add t =
      ⟨t.outcomes ++ targets.filterMap fun q => (found? t.merged q).bind Attempt.result?,
        t.failure?, t.isSkipped, t.merged⟩ := by
  induction targets generalizing t with
  | nil => simp
  | cons q targets ih =>
    have hadd := add_of_done h q
    rw [List.foldl_cons, ih (by rwa [hadd]), hadd]
    cases hq : (found? t.merged q).bind Attempt.result? <;> simp [hq]

/-- What is found does not depend on the order of the destinations. -/
theorem found?_perm (hperm : merged'.Perm merged)
    (hdifferent : merged.Pairwise fun m m' => m.1.same m'.1 = false) (q : Path) :
    found? merged' q = found? merged q := by
  have hdifferent' : merged'.Pairwise fun m m' => m.1.same m'.1 = false :=
    hperm.symm.pairwise hdifferent fun h => (Path.same_comm _ _).trans h
  refine Option.ext fun a => ?_
  rw [found?_eq_some hdifferent', found?_eq_some hdifferent]
  simp only [hperm.mem_iff]

end Tally

/-! ### Files -/

namespace FileOutcome

variable {merged : MergedTargets} {prepared : List (Path × Attempt StageFailure PreparedFile)}

/-- **A file is done if it was prepared and the destinations of all of its targets are done**, and
then its outcomes are theirs. -/
theorem result?_settle (merged : MergedTargets)
    (prepared : List (Path × Attempt StageFailure PreparedFile)) :
    (settle merged prepared).map (fun o => (o.source, o.state.result?)) =
      prepared.map fun a =>
        (a.1, a.2.result?.bind fun file => Tally.results? merged file.targets) := by
  induction prepared generalizing merged with
  | nil => rfl
  | cons a prepared ih =>
    obtain ⟨source, a⟩ := a
    cases a with
    | skipped => exact congrArg _ (ih merged)
    | failed f => exact congrArg _ (ih merged)
    | done file =>
      obtain ⟨hkept, hstate⟩ := Tally.result?_foldl_add (.start merged) file.targets
      have hresults := funext (Tally.results?_congr hkept)
      rw [settle, List.map_cons, List.map_cons, ih, hstate, hresults]
      simp [Attempt.result?, Tally.start, Tally.state]

theorem exists_of_mem_settle {o : FileOutcome} (h : o ∈ settle merged prepared) :
    ∃ a ∈ prepared, o.state.result? =
      a.2.result?.bind fun file => Tally.results? merged file.targets := by
  have hmem := List.mem_map_of_mem (f := fun o : FileOutcome => (o.source, o.state.result?)) h
  rw [result?_settle, List.mem_map] at hmem
  obtain ⟨a, ha, heq⟩ := hmem
  exact ⟨a, ha, (Prod.mk.inj heq).2.symm⟩

theorem exists_mem_settle (merged : MergedTargets)
    {a : Path × Attempt StageFailure PreparedFile} (h : a ∈ prepared) :
    ∃ o ∈ settle merged prepared, o.state.result? =
      a.2.result?.bind fun file => Tally.results? merged file.targets := by
  have hmem := List.mem_map_of_mem (f := fun a : Path × Attempt StageFailure PreparedFile =>
    (a.1, a.2.result?.bind fun file => Tally.results? merged file.targets)) h
  rw [← result?_settle, List.mem_map] at hmem
  obtain ⟨o, ho, heq⟩ := hmem
  exact ⟨o, ho, (Prod.mk.inj heq).2⟩

/-- The outcomes of the files that are done are those of the destinations of their targets. -/
theorem exists_settle_iff {x : TargetOutcome} :
    (∃ o ∈ settle merged prepared, x ∈ o.targets) ↔ ∃ source file, (source, .done file) ∈ prepared ∧
      (∀ q ∈ file.targets, ∀ a, Tally.found? merged q = some a → a.isDone = true) ∧
        ∃ q ∈ file.targets, Tally.found? merged q = some (.done x) := by
  constructor
  · rintro ⟨o, ho, hx⟩
    obtain ⟨⟨source, a⟩, ha, hresult⟩ := exists_of_mem_settle ho
    rw [targets, hresult] at hx
    cases hos : a.result?.bind fun file => Tally.results? merged file.targets with
    | none => simp [hos] at hx
    | some os =>
      rw [hos] at hx
      obtain ⟨file, hfile, hresults⟩ := Option.bind_eq_some_iff.1 hos
      obtain rfl := Attempt.result?_eq_some.1 hfile
      obtain ⟨hdone, hmem⟩ := Tally.results?_eq_some hresults
      exact ⟨source, file, ha, hdone, (hmem x).1 hx⟩
  · rintro ⟨source, file, hmem, hdone, hx⟩
    obtain ⟨o, ho, hresult⟩ := exists_mem_settle merged hmem
    obtain ⟨os, hos⟩ := Tally.isSome_results? hdone
    rw [Attempt.result?, Option.bind_some, hos] at hresult
    refine ⟨o, ho, ?_⟩
    rw [targets, hresult]
    exact ((Tally.results?_eq_some hos).2 x).2 hx

/-- Where all files are done, all were prepared, and the destinations of their targets are done. -/
theorem done_of_settle (h : ∀ o ∈ settle merged prepared, o.state.isDone = true) :
    ∀ a ∈ prepared, a.2.isDone = true ∧ ∀ file, a.2 = .done file → ∀ q ∈ file.targets,
      ∀ m, Tally.found? merged q = some m → m.isDone := by
  intro a ha
  obtain ⟨o, ho, hresult⟩ := exists_mem_settle merged ha
  obtain ⟨os, hos⟩ := Option.isSome_iff_exists.1 (h o ho)
  rw [hos] at hresult
  obtain ⟨file, hfile, hresults⟩ := Option.bind_eq_some_iff.1 hresult.symm
  refine ⟨by rw [Attempt.isDone, hfile]; rfl, fun file' heq => ?_⟩
  rw [heq] at hfile
  obtain rfl := Option.some.inj hfile
  exact (Tally.results?_eq_some hresults).1

/-- What becomes of a source file when all destinations are done. -/
def stateOf (merged : MergedTargets) : Attempt StageFailure PreparedFile → FileState
  | .skipped => .skipped
  | .failed f => .failed f
  | .done file =>
    .done (file.targets.filterMap fun q => (Tally.found? merged q).bind Attempt.result?)

/-- Where all destinations are done, every source file is settled by itself. -/
theorem settle_of_done (h : ∀ m ∈ merged, m.2.isDone = true) :
    settle merged prepared = prepared.map fun a => ⟨a.1, stateOf merged a.2⟩ := by
  induction prepared with
  | nil => rfl
  | cons a prepared ih =>
    obtain ⟨source, a⟩ := a
    cases a with
    | skipped => exact congrArg _ ih
    | failed f => exact congrArg _ ih
    | done file =>
      have htally := Tally.foldl_add_of_done (t := .start merged) h file.targets
      rw [settle, List.map_cons, htally, ← ih]
      rfl

/-- **Files are settled alike** by destinations that are done, in whatever order these come. -/
theorem settle_perm {merged' : MergedTargets} (hperm : merged'.Perm merged)
    (hdifferent : merged.Pairwise fun m m' => m.1.same m'.1 = false)
    (h : ∀ m ∈ merged, m.2.isDone = true) : settle merged' prepared = settle merged prepared := by
  have hfound : Tally.found? merged' = Tally.found? merged :=
    funext fun q => Tally.found?_perm hperm hdifferent q
  have hstate : stateOf merged' = stateOf merged := by
    funext a
    cases a with
    | done file => simp only [stateOf, hfound]
    | failed f => rfl
    | skipped => rfl
  rw [settle_of_done h, settle_of_done fun m hm => h m (hperm.mem_iff.1 hm), hstate]

end FileOutcome

end Scaffold
