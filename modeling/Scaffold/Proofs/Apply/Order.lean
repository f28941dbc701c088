import Scaffold.Proofs.Apply.Destination
import Scaffold.Proofs.Apply.Part

/-!
# The order of the destinations

Destinations may be merged in any order (`run_perm`). What a merge writes is decided by the text
that its destination has (`fresh`), and whether it can be written by what stands on the way to it
(`Mergeable`). Nothing of this changes while other destinations are written that lie apart, so every
destination of a run is merged as if it were the first one (`exists_run`).

This takes paths that lead back by `..` only out of folders that are there (`FileTree.Firm`). A path
that leads back out of a folder that is missing finds no file, even if one stands at its goal; when
another destination has made the folder, it finds that file (`not_run_perm_of_missing_folder`).
-/

namespace Scaffold

open FileTree (Apart Changed Same Wrote)

namespace Destination

variable {appenders : Registry Appender} {request : Request} {t t' : FileTree} {d : Destination}
  {ds es : List Destination} {places : List Location}

/-! ### One destination -/

/-- The text that is written, at its place. -/
def writes (appenders : Registry Appender) (request : Request) (t : FileTree) (d : Destination) :
    List (Location × String) :=
  match fresh appenders request t d with
  | .ok (some next) => [(t.goal d.path, next)]
  | _ => []

/-- What a destination comes to that can be merged. -/
def outcome (appenders : Registry Appender) (request : Request) (t : FileTree) (d : Destination) :
    TargetOutcome := ⟨d.path, !(writes appenders request t d).isEmpty⟩

/-- There is a new text that can be written, or nothing is to be written. -/
def Mergeable (appenders : Registry Appender) (request : Request) (t : FileTree) (d : Destination) :
    Prop :=
  ∃ next?, fresh appenders request t d = .ok next? ∧ (next?.isSome → t.Open d.path)

theorem of_mem_writes {w : Location × String} (h : w ∈ writes appenders request t d) :
    w.1 = t.goal d.path := by
  rw [writes] at h
  split at h
  · rw [List.mem_singleton.1 h]
  · cases h

/-- A destination that can be merged is merged, and nothing but its text is written. -/
theorem Mergeable.exists_mergeAll (h : Mergeable appenders request t d) (ht : t.WellFormed)
    (hp : t.Firm d.path) :
    ∃ t', mergeAll appenders request d t = (t', .ok (outcome appenders request t d)) ∧
      Wrote (writes appenders request t d) t t' := by
  obtain ⟨next?, hfresh, hopen⟩ := h
  rw [mergeAll_eq_fresh, outcome, writes, hfresh]
  cases next? with
  | none => exact ⟨t, rfl, .nil t⟩
  | some next =>
    obtain ⟨t', hput, hchanged, hfile⟩ := FileTree.put_of_open ht hp (hopen rfl) (.text next)
    have hwrite : t.write d.path next = (t', .ok ()) := hput
    exact ⟨t', by simp [hwrite], hchanged, by simpa using hfile⟩

/-- A destination that was merged could be merged. -/
theorem mergeable_of_mergeAll (ht : t.WellFormed) {o : TargetOutcome}
    (h : mergeAll appenders request d t = (t', .ok o)) : Mergeable appenders request t d := by
  rw [mergeAll_eq_fresh] at h
  cases hfresh : fresh appenders request t d with
  | error e =>
    rw [hfresh] at h
    cases h
  | ok next? =>
    refine ⟨next?, hfresh, fun hsome => ?_⟩
    obtain ⟨next, rfl⟩ := Option.isSome_iff_exists.1 hsome
    rw [hfresh] at h
    dsimp only at h
    cases hwrite : t.write d.path next with
    | mk t₁ result =>
      rw [hwrite] at h
      cases result with
      | error e => cases h
      | ok _ => exact FileTree.open_of_put ht hwrite

/-! ### While other destinations are written -/

section
variable (h : Changed places t t') (ht : t.WellFormed) (hp : t.Firm d.path)
  (hapart : ∀ w ∈ places, Apart (t.goal d.path) w)

include h ht hp hapart

theorem fresh_of_changed : fresh appenders request t' d = fresh appenders request t d :=
  fresh_congr (hp.readOptional_eq ht h hapart)

theorem writes_of_changed : writes appenders request t' d = writes appenders request t d := by
  rw [writes, writes, fresh_of_changed h ht hp hapart, h.goal]

theorem mergeable_of_changed :
    Mergeable appenders request t' d ↔ Mergeable appenders request t d := by
  rw [Mergeable, Mergeable, fresh_of_changed h ht hp hapart, h.open_iff hapart]

end

/-! ### Runs -/

theorem Scattered.perm (h : Scattered t ds) (hperm : es.Perm ds) : Scattered t es :=
  ⟨fun e he => h.firm e (hperm.mem_iff.1 he), hperm.symm.pairwise h.apart fun h => h.symm⟩

/-- Behind the first destination of a run the others are what they were. -/
theorem Scattered.of_wrote (h : Scattered t (d :: ds)) (ht : t.WellFormed)
    (hw : Wrote (writes appenders request t d) t t') :
    Scattered t' ds ∧ ∀ e ∈ ds,
      writes appenders request t' e = writes appenders request t e ∧
        (Mergeable appenders request t' e ↔ Mergeable appenders request t e) := by
  obtain ⟨-, hfirm⟩ := List.forall_mem_cons.1 h.firm
  obtain ⟨hfirst, hrest⟩ := List.pairwise_cons.1 h.apart
  have hchanged := hw.changed
  have hgoal : ∀ e : Destination, t'.goal e.path = t.goal e.path := fun e => hchanged.goal e.path
  have hapart : ∀ e ∈ ds, ∀ w ∈ (writes appenders request t d).map Prod.fst,
      Apart (t.goal e.path) w := by
    intro e he place hplace
    obtain ⟨w, hmem, rfl⟩ := List.mem_map.1 hplace
    rw [of_mem_writes hmem]
    exact (hfirst e he).symm
  refine ⟨⟨fun e he => (hfirm e he).of_changed hchanged, by simpa only [hgoal] using hrest⟩,
    fun e he => ⟨?_, ?_⟩⟩
  · exact writes_of_changed hchanged ht (hfirm e he) (hapart e he)
  · exact mergeable_of_changed hchanged ht (hfirm e he) (hapart e he)

/-- **In a run every destination is merged as if it were the first one.** -/
theorem exists_run (h : Scattered t ds) (ht : t.WellFormed)
    (hm : ∀ d ∈ ds, Mergeable appenders request t d) :
    ∃ t', Attempt.eachWith (mergeAll appenders request) ds t =
        (t', ds.map fun d => .done (outcome appenders request t d)) ∧
      Wrote (ds.flatMap (writes appenders request t)) t t' := by
  induction ds generalizing t with
  | nil => exact ⟨t, rfl, .nil t⟩
  | cons d ds ih =>
    obtain ⟨hd, hds⟩ := List.forall_mem_cons.1 hm
    obtain ⟨t₁, hmerge, hwrote₁⟩ := hd.exists_mergeAll ht (h.firm d List.mem_cons_self)
    obtain ⟨hscattered, hsame⟩ := h.of_wrote ht hwrote₁
    obtain ⟨t', hrun, hwrote⟩ := ih hscattered (hwrote₁.changed.wellFormed ht) fun e he =>
      (hsame e he).2.2 (hds e he)
    have hwrites : ds.flatMap (writes appenders request t₁) =
        ds.flatMap (writes appenders request t) :=
      List.flatMap_congr fun e he => (hsame e he).1
    have houtcomes : ds.map (fun e =>
        (.done (outcome appenders request t₁ e) : Attempt StageFailure TargetOutcome)) =
        ds.map fun e => .done (outcome appenders request t e) :=
      List.map_congr_left fun e he => by rw [outcome, outcome, (hsame e he).1]
    rw [hwrites] at hwrote
    refine ⟨t', ?_, hwrote₁.append hwrote fun w hw hmem => ?_⟩
    · rw [Attempt.eachWith, hmerge]
      dsimp only
      rw [hrun, houtcomes]
      rfl
    · -- no later destination is at the place of this one
      obtain ⟨w', hw', heq⟩ := List.mem_map.1 hmem
      obtain ⟨e, he, hwe⟩ := List.mem_flatMap.1 hw'
      rw [of_mem_writes hw, of_mem_writes hwe] at heq
      exact (List.rel_of_pairwise_cons h.apart he).ne heq.symm

/-- Where all destinations of a run are done, all of them could be merged at first. -/
theorem mergeable_of_run (h : Scattered t ds) (ht : t.WellFormed)
    (hdone : ∀ a ∈ (Attempt.eachWith (mergeAll appenders request) ds t).2, a.isDone = true) :
    ∀ d ∈ ds, Mergeable appenders request t d := by
  induction ds generalizing t with
  | nil => simp
  | cons d ds ih =>
    rw [Attempt.eachWith] at hdone
    cases hmerge : mergeAll appenders request d t with
    | mk t₁ result =>
      rw [hmerge] at hdone
      cases result with
      | error e =>
        exact absurd (hdone _ List.mem_cons_self) (by simp [Attempt.isDone, Attempt.result?])
      | ok o =>
        have hd := mergeable_of_mergeAll ht hmerge
        obtain ⟨t₂, hmerge₂, hwrote⟩ := hd.exists_mergeAll ht (h.firm d List.mem_cons_self)
        obtain rfl : t₁ = t₂ := (Prod.mk.inj (hmerge.symm.trans hmerge₂)).1
        obtain ⟨hscattered, hsame⟩ := h.of_wrote ht hwrote
        have hrest := ih hscattered (hwrote.changed.wellFormed ht)
          (List.forall_mem_cons.1 hdone).2
        exact List.forall_mem_cons.2 ⟨hd, fun e he => (hsame e he).2.1 (hrest e he)⟩

/-! ### Orders -/

/-- **The order in which destinations are merged is of no account.** If the destinations of source
files are merged one after the other and all are done, then they are done in every order, each of
them comes to the same, the tree is the same, and the source files are settled alike. -/
theorem run_perm {files : List (Path × Attempt StageFailure PreparedFile)} (ht : t.WellFormed)
    (hds : group (files.map fun f => f.2.result?) = ds) (h : Scattered t ds) (hperm : es.Perm ds)
    (hdone : ∀ a ∈ (Attempt.eachWith (mergeAll appenders request) ds t).2, a.isDone = true) :
    (∀ a ∈ (Attempt.eachWith (mergeAll appenders request) es t).2, a.isDone = true) ∧
      (es.zip (Attempt.eachWith (mergeAll appenders request) es t).2).Perm
        (ds.zip (Attempt.eachWith (mergeAll appenders request) ds t).2) ∧
      Same (Attempt.eachWith (mergeAll appenders request) ds t).1
        (Attempt.eachWith (mergeAll appenders request) es t).1 ∧
      FileOutcome.settle ((es.map (·.path)).zip
          (Attempt.eachWith (mergeAll appenders request) es t).2) files =
        FileOutcome.settle ((ds.map (·.path)).zip
          (Attempt.eachWith (mergeAll appenders request) ds t).2) files := by
  have hmergeable := mergeable_of_run h ht hdone
  obtain ⟨t₁, hrun₁, hwrote₁⟩ := exists_run h ht hmergeable
  obtain ⟨t₂, hrun₂, hwrote₂⟩ := exists_run (h.perm hperm) ht fun e he =>
    hmergeable e (hperm.mem_iff.1 he)
  have hdifferent : ds.Pairwise fun d e => d.path.same e.path = false :=
    hds ▸ (grouped_group _).different
  rw [hrun₁, hrun₂]
  refine ⟨?_, ?_, hwrote₁.same hwrote₂ ht fun w => ?_, ?_⟩
  · simp [Attempt.isDone, Attempt.result?]
  · rw [← List.map_prod_left_eq_zip, ← List.map_prod_left_eq_zip]
    exact hperm.map _
  · simp only [List.mem_flatMap, hperm.mem_iff]
  · rw [List.zip_map', List.zip_map']
    refine FileOutcome.settle_perm (hperm.map _) ?_ ?_
    · rwa [List.pairwise_map]
    · simp [Attempt.isDone, Attempt.result?]

/-- Two source files: each goes into a destination of its own, one of them by a path that leads out
of the folder of the other one, and both go into a third. -/
def crossingFiles : List (Path × Attempt StageFailure PreparedFile) :=
  [(⟨"A"⟩, .done ⟨⟨Generator.partRequest.identity, ⟨"A"⟩, Generator.partOptions, []⟩, "A\n",
      [⟨"x/../b.ts"⟩, ⟨"a.ts"⟩]⟩),
    (⟨"B"⟩, .done ⟨⟨Generator.partRequest.identity, ⟨"B"⟩, Generator.partOptions, []⟩, "B\n",
      [⟨"x/c.ts"⟩, ⟨"a.ts"⟩]⟩)]

/-- The destinations of the two files. -/
def crossing : List Destination := group (crossingFiles.map fun f => f.2.result?)

/-- A tree with a file at the goal of the first destination, and more. -/
def crossingTree (entries : List (Location × Entry)) : FileTree :=
  ⟨[], (["b.ts"], .file (.text "old\n")) :: entries⟩

/-- What merging the destinations in an order makes of the tree. -/
def mergeCrossing (ds : List Destination) (entries : List (Location × Entry)) :
    FileTree × List (Attempt StageFailure TargetOutcome) :=
  Attempt.eachWith (mergeAll Appender.builtin Generator.partRequest) ds (crossingTree entries)

theorem path_crossing : crossing.map (·.path) = [⟨"x/../b.ts"⟩, ⟨"a.ts"⟩, ⟨"x/c.ts"⟩] := by rfl

/-- The destinations lie apart, with the folder on the way and without it. -/
theorem apart_crossing (entries : List (Location × Entry)) : crossing.Pairwise fun d e =>
    Apart ((crossingTree entries).goal d.path) ((crossingTree entries).goal e.path) := by
  have hgoals : (crossing.map (·.path)).map (crossingTree entries).goal =
      [["b.ts"], ["a.ts"], ["x", "c.ts"]] := by
    rw [path_crossing]
    rfl
  have hapart : ((crossing.map (·.path)).map (crossingTree entries).goal).Pairwise Apart := by
    rw [hgoals]
    decide
  rwa [List.pairwise_map, List.pairwise_map] at hapart

/-- Where the folder on the way is there, the destinations may be merged the other way round. -/
theorem run_perm_of_folder_on_the_way :
    (∀ a ∈ (mergeCrossing crossing.reverse [(["x"], .folder)]).2, a.isDone = true) ∧
      Same (mergeCrossing crossing [(["x"], .folder)]).1
        (mergeCrossing crossing.reverse [(["x"], .folder)]).1 := by
  have hfirm : ∀ p ∈ [(⟨"x/../b.ts"⟩ : Path), ⟨"a.ts"⟩, ⟨"x/c.ts"⟩],
      (crossingTree [(["x"], .folder)]).Firm p := by
    refine List.forall_mem_cons.2 ⟨?_, List.forall_mem_cons.2 ⟨?_, List.forall_mem_singleton.2 ?_⟩⟩
    · exact ⟨[['x'], ['.', '.']], [['b', '.', 't', 's']], [], by rfl, by rfl, by decide⟩
    · exact FileTree.firm_of_plain (by decide) rfl
    · exact FileTree.firm_of_plain (by decide) rfl
  have hdone : ∀ a ∈ (mergeCrossing crossing [(["x"], .folder)]).2, a.isDone = true := by
    decide +kernel
  obtain ⟨hall, -, hsame, -⟩ := run_perm (by decide) rfl
    ⟨fun d hd => hfirm d.path (path_crossing ▸ List.mem_map_of_mem hd), apart_crossing _⟩
    (List.reverse_perm crossing) hdone
  exact ⟨hall, hsame⟩

/-- Where the folder on the way is missing, all destinations are done and lie apart, but the file at
the goal of the first one is lost in this order and is kept in the other one. -/
theorem not_run_perm_of_missing_folder :
    (crossingTree []).WellFormed ∧
      (crossing.Pairwise fun d e =>
        Apart ((crossingTree []).goal d.path) ((crossingTree []).goal e.path)) ∧
      (∀ a ∈ (mergeCrossing crossing []).2, a.isDone = true) ∧
      ¬ Same (mergeCrossing crossing []).1 (mergeCrossing crossing.reverse []).1 := by
  refine ⟨by decide, apart_crossing [], by decide +kernel, fun hsame => ?_⟩
  have hdiffer : FileTree.entry? (mergeCrossing crossing.reverse []).1 ["b.ts"] ≠
      FileTree.entry? (mergeCrossing crossing []).1 ["b.ts"] := by decide +kernel
  exact hdiffer (hsame.entries _)

end Destination

end Scaffold
