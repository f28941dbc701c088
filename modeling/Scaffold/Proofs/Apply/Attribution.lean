import Mathlib.Data.List.Forall2
import Scaffold.Proofs.Apply.Run

/-!
# What the report of a run says

A run stops at the first source file that cannot be prepared, and at the first destination that
cannot be merged (`each_cases`, `eachWith_cases`). The failure of the destination lies in a list
from which the files take it: the first file with that target has the failure itself, and leaves in
its place that the target has failed for another file (`told`). So every failure is told once, and
each file is failed, done or skipped by where the destinations of its targets stand
(`run_attributes`).
-/

namespace Scaffold

namespace Attempt

variable {ε α β σ : Type}

/-- Work on a list is done on all of it, or up to an item that fails. -/
theorem each_cases (work : α → Except ε β) (items : List α) : ∃ front bs,
    List.Forall₂ (fun a b => work a = .ok b) front bs ∧
      (items = front ∧ each work items = bs.map .done ∨
        ∃ a behind e, items = front ++ a :: behind ∧ work a = .error e ∧
          each work items = bs.map .done ++ .failed e :: behind.map fun _ => .skipped) := by
  induction items with
  | nil => exact ⟨[], [], .nil, .inl ⟨rfl, rfl⟩⟩
  | cons a items ih =>
    cases ha : work a with
    | error e => exact ⟨[], [], .nil, .inr ⟨a, items, e, rfl, ha, by rw [each, ha]; rfl⟩⟩
    | ok b =>
      obtain ⟨front, bs, hall, hrest⟩ := ih
      refine ⟨a :: front, b :: bs, .cons ha hall, ?_⟩
      rw [each, ha]
      rcases hrest with ⟨hitems, hdone⟩ | ⟨a', behind, e, hitems, he, hdone⟩
      · exact .inl ⟨congrArg (a :: ·) hitems, congrArg (.done b :: ·) hdone⟩
      · exact .inr ⟨a', behind, e, congrArg (a :: ·) hitems, he, congrArg (.done b :: ·) hdone⟩

/-- Work that changes a state is done on a whole list, or up to an item that fails, and then the
state is the one that this item leaves. -/
theorem eachWith_cases (work : α → σ → σ × Except ε β) (items : List α) (s : σ) :
    ∃ (front : List α) (bs : List β) (s₁ : σ),
      eachWith work front s = (s₁, bs.map .done) ∧ front.length = bs.length ∧
      (items = front ∨ ∃ a behind s₂ e, items = front ++ a :: behind ∧
        work a s₁ = (s₂, .error e) ∧
        eachWith work items s =
          (s₂, bs.map .done ++ .failed e :: behind.map fun _ => .skipped)) := by
  induction items generalizing s with
  | nil => exact ⟨[], [], s, rfl, rfl, .inl rfl⟩
  | cons a items ih =>
    cases ha : work a s with
    | mk s₁ result =>
      cases result with
      | error e =>
        exact ⟨[], [], s, rfl, rfl, .inr ⟨a, items, s₁, e, rfl, ha, by rw [eachWith, ha]; rfl⟩⟩
      | ok b =>
        obtain ⟨front, bs, s₂, hfront, hlength, hrest⟩ := ih s₁
        refine ⟨a :: front, b :: bs, s₂, by rw [eachWith, ha]; simp [hfront],
          congrArg (· + 1) hlength, ?_⟩
        rw [eachWith, ha]
        rcases hrest with hitems | ⟨a', behind, s₃, e, hitems, he, hdone⟩
        · exact .inl (congrArg (a :: ·) hitems)
        · exact .inr ⟨a', behind, s₃, e, congrArg (a :: ·) hitems, he, by simp [hdone]⟩

theorem filterMap_done (bs : List β) :
    (bs.map done : List (Attempt ε β)).filterMap result? = bs := by
  rw [List.filterMap_map]
  exact List.filterMap_some

theorem filterMap_skipped (items : List α) :
    (items.map fun _ => (skipped : Attempt ε β)).filterMap result? = [] := by
  simp [result?]

theorem zip_skipped (items : List α) :
    items.zip (items.map fun _ => (skipped : Attempt ε β)) = items.map (·, skipped) := by
  simpa using List.zip_map' (f := id) (g := fun _ => (skipped : Attempt ε β)) (l := items)

end Attempt

/-! ### The order of the destinations -/

namespace Destination

/-- A path is put behind others, unless one of these is the same. -/
def noted (paths : List Path) (target : Path) : List Path :=
  if paths.any (·.same target) then paths else paths ++ [target]

theorem paths_add (index : Nat) (file : PreparedFile) (target : Path) (ds : List Destination) :
    (add index file target ds).map (·.path) = noted (ds.map (·.path)) target := by
  induction ds with
  | nil => rfl
  | cons d ds ih =>
    rw [add, noted]
    by_cases hsame : d.path.same target = true
    · simp [hsame, path_contribute]
    · rw [if_neg hsame, List.map_cons, ih, noted]
      simp only [List.map_cons, List.any_cons, Bool.eq_false_iff.2 hsame, Bool.false_or]
      split <;> rfl

theorem paths_addAll (index : Nat) (file : PreparedFile) (ds : List Destination) :
    (addAll ds index file).map (·.path) = file.targets.foldl noted (ds.map (·.path)) := by
  rw [addAll]
  induction file.targets generalizing ds with
  | nil => rfl
  | cons target targets ih => rw [List.foldl_cons, List.foldl_cons, ih, paths_add]

theorem paths_groupFrom (ds : List Destination) (index : Nat) (files : List (Option PreparedFile)) :
    (groupFrom ds index files).map (·.path) =
      ((files.filterMap id).flatMap (·.targets)).foldl noted (ds.map (·.path)) := by
  induction files generalizing ds index with
  | nil => rfl
  | cons f? files ih =>
    cases f? with
    | none => exact ih ds (index + 1)
    | some file =>
      have hready : (some file :: files).filterMap id = file :: files.filterMap id := rfl
      rw [groupFrom, ih, paths_addAll, hready, List.flatMap_cons, List.foldl_append]

end Destination

/-- **Destinations stand in the order in which their paths first appear** among the targets of the
files that are ready. -/
theorem Plan.paths_destinations (p : Plan) (t : FileTree) :
    (p.destinations t).map (·.path) =
      ((p.files t).flatMap (·.targets)).foldl Destination.noted [] := by
  rw [destinations, Destination.group, Destination.paths_groupFrom, files, List.filterMap_map]
  rfl

/-! ### One failure, told to files -/

namespace Tally

variable {merged : MergedTargets} {t : Tally} {path q : Path} {f e : StageFailure}
  {targets : List Path}

/-- What is found where one destination has failed, and what is found for other paths is given. -/
def halted (base : Path → Option (Attempt StageFailure TargetOutcome)) (path : Path)
    (f : StageFailure) (q : Path) : Option (Attempt StageFailure TargetOutcome) :=
  if path.same q then some (.failed f) else base q

variable {base : Path → Option (Attempt StageFailure TargetOutcome)}

/-- The failure that is left to a file by those before it: the failure itself, until a file has a
target that names the destination, and from then on that this target has failed. -/
def told (path : Path) (f : StageFailure) (earlier : List PreparedFile) : StageFailure :=
  earlier.foldl (fun f file =>
    match file.targets.find? (path.same ·) with
    | some q => ⟨f.stage, .sharedTarget q⟩
    | none => f) f

/-- A target of a destination that has not failed. -/
theorem add_of_unnamed (h : found? t.merged = halted base path f) (hq : path.same q = false)
    (hbase : ∀ q e, base q ≠ some (.failed e)) :
    (t.add q).failure? = t.failure? ∧ (t.add q).merged = t.merged ∧
      (t.add q).isSkipped = (t.isSkipped || (base q).any fun a => a.isDone == false) := by
  have hfound : found? t.merged q = base q := by rw [h, halted, hq]; rfl
  unfold add
  rw [← found?, hfound]
  cases hb : base q with
  | none => simp
  | some a =>
    cases a with
    | done o => simp [Attempt.isDone, Attempt.result?]
    | failed e => exact absurd hb (hbase q e)
    | skipped => simp [Attempt.isDone, Attempt.result?]

/-- A target of the destination that has failed, in a file that has not told of a failure yet. -/
theorem add_of_named (h : found? t.merged = halted base path f) (hq : path.same q = true)
    (hnone : t.failure? = none) :
    (t.add q).failure? = some f ∧
      found? (t.add q).merged = halted base path ⟨f.stage, .sharedTarget q⟩ := by
  have hfound : found? t.merged q = some (.failed f) := by rw [h, halted, hq]; rfl
  unfold add
  rw [← found?, hfound]
  simp only [hnone, true_and]
  funext q'
  rw [found?_mention, hfound, h, halted, halted, Path.same_congr hq]
  cases q.same q' <;> simp

/-- A file that has told of a failure does not change what others are told. -/
theorem add_of_failure (h : t.failure? = some e) (q : Path) :
    (t.add q).failure? = some e ∧ (t.add q).merged = t.merged := by
  unfold add
  cases (t.merged.find? (·.1.same q)).map Prod.snd with
  | none => exact ⟨h, rfl⟩
  | some a => cases a <;> simp [h]

theorem foldl_add_of_failure (h : t.failure? = some e) (targets : List Path) :
    (targets.foldl add t).failure? = some e ∧ (targets.foldl add t).merged = t.merged := by
  induction targets generalizing t with
  | nil => exact ⟨h, rfl⟩
  | cons q targets ih =>
    obtain ⟨hfailure, hmerged⟩ := add_of_failure h q
    obtain ⟨hrest, hkept⟩ := ih hfailure
    exact ⟨hrest, hkept.trans hmerged⟩

/-- The targets of a file with one of the destination that has failed. -/
theorem foldl_add_of_named (h : found? t.merged = halted base path f)
    (hbase : ∀ q e, base q ≠ some (.failed e)) (hnone : t.failure? = none)
    (hq : targets.find? (path.same ·) = some q) :
    (targets.foldl add t).failure? = some f ∧
      found? (targets.foldl add t).merged = halted base path ⟨f.stage, .sharedTarget q⟩ := by
  induction targets generalizing t with
  | nil => cases hq
  | cons target targets ih =>
    rw [List.foldl_cons]
    cases hnamed : path.same target with
    | true =>
      rw [List.find?_cons_of_pos hnamed] at hq
      obtain rfl := Option.some.inj hq
      obtain ⟨hfailure, hfound⟩ := add_of_named h hnamed hnone
      obtain ⟨hkept, hmerged⟩ := foldl_add_of_failure hfailure targets
      exact ⟨hkept, hmerged ▸ hfound⟩
    | false =>
      rw [List.find?_cons_of_neg (by simp [hnamed])] at hq
      obtain ⟨hfailure, hmerged, -⟩ := add_of_unnamed h hnamed hbase
      exact ih (hmerged ▸ h) (hfailure.trans hnone) hq

/-- The targets of a file without one of the destination that has failed. -/
theorem foldl_add_of_unnamed (h : found? t.merged = halted base path f)
    (hbase : ∀ q e, base q ≠ some (.failed e)) (hq : ∀ q ∈ targets, path.same q = false) :
    (targets.foldl add t).failure? = t.failure? ∧ (targets.foldl add t).merged = t.merged ∧
      (targets.foldl add t).isSkipped =
        (t.isSkipped || targets.any fun q => (base q).any fun a => a.isDone == false) := by
  induction targets generalizing t with
  | nil => simp
  | cons target targets ih =>
    obtain ⟨hfirst, hrest⟩ := List.forall_mem_cons.1 hq
    obtain ⟨hfailure, hmerged, hskipped⟩ := add_of_unnamed h hfirst hbase
    obtain ⟨hfailure', hmerged', hskipped'⟩ := ih (hmerged ▸ h) hrest
    rw [List.foldl_cons]
    exact ⟨hfailure'.trans hfailure, hmerged'.trans hmerged, by
      rw [hskipped', hskipped, List.any_cons, Bool.or_assoc]⟩

theorem told_of_unnamed {earlier : List PreparedFile}
    (h : ∀ file ∈ earlier, ∀ q ∈ file.targets, path.same q = false) : told path f earlier = f := by
  induction earlier with
  | nil => rfl
  | cons file earlier ih =>
    obtain ⟨hfirst, hrest⟩ := List.forall_mem_cons.1 h
    have hnone : file.targets.find? (path.same ·) = none :=
      List.find?_eq_none.2 fun q hq => by simp [hfirst q hq]
    rw [told, List.foldl_cons, hnone]
    exact ih hrest

/-- What is left to a file behind others with a target of the destination is that one of these
targets has failed, at the stage of the failure. -/
theorem exists_told {earlier : List PreparedFile}
    (h : ∃ file ∈ earlier, ∃ q ∈ file.targets, path.same q = true) :
    ∃ file ∈ earlier, ∃ q ∈ file.targets, path.same q = true ∧
      told path f earlier = ⟨f.stage, .sharedTarget q⟩ := by
  induction earlier generalizing f with
  | nil => simp at h
  | cons file earlier ih =>
    rw [told, List.foldl_cons]
    by_cases hrest : ∃ file ∈ earlier, ∃ q ∈ file.targets, path.same q = true
    · cases hfind : file.targets.find? (path.same ·) with
      | none =>
        obtain ⟨e, he, hmore⟩ := ih (f := f) hrest
        exact ⟨e, List.mem_cons_of_mem file he, hmore⟩
      | some q =>
        obtain ⟨e, he, hmore⟩ := ih (f := ⟨f.stage, .sharedTarget q⟩) hrest
        exact ⟨e, List.mem_cons_of_mem file he, hmore⟩
    · have hunnamed : ∀ file ∈ earlier, ∀ q ∈ file.targets, path.same q = false :=
        fun e he q hq => Bool.eq_false_iff.2 fun hsame => hrest ⟨e, he, q, hq, hsame⟩
      obtain ⟨e, he, hnamed⟩ := h
      obtain rfl := (List.mem_cons.1 he).resolve_right fun he => hrest ⟨e, he, hnamed⟩
      cases hfind : e.targets.find? (path.same ·) with
      | none =>
        obtain ⟨q, hq, hsame⟩ := hnamed
        exact absurd hsame (List.find?_eq_none.1 hfind q hq)
      | some q =>
        exact ⟨e, List.mem_cons_self, q, List.mem_of_find?_eq_some hfind,
          List.find?_some hfind, told_of_unnamed hunnamed⟩

end Tally

namespace FileOutcome

variable {merged : MergedTargets} {base : Path → Option (Attempt StageFailure TargetOutcome)}
  {path : Path} {f : StageFailure}

/-- What becomes of a file that is ready, where a destination has failed and the failure that is
left to the file is `f`. -/
structure Settled (base : Path → Option (Attempt StageFailure TargetOutcome)) (path : Path)
    (f : StageFailure) (file : PreparedFile) (state : FileState) : Prop where
  failed : (∃ q ∈ file.targets, path.same q = true) → state = .failed f
  skipped : (∀ q ∈ file.targets, path.same q = false) →
    (∃ q ∈ file.targets, ∃ a, base q = some a ∧ a.isDone = false) → state = .skipped
  done : (∀ q ∈ file.targets, path.same q = false) →
    (∀ q ∈ file.targets, ∀ a, base q = some a → a.isDone = true) → state.isDone = true

/-- One file: what becomes of it, and what is left to the next one. -/
theorem settled_state (h : Tally.found? merged = Tally.halted base path f)
    (hbase : ∀ q e, base q ≠ some (.failed e)) (file : PreparedFile) :
    Settled base path f file (file.targets.foldl Tally.add (.start merged)).state ∧
      Tally.found? (file.targets.foldl Tally.add (.start merged)).merged =
        Tally.halted base path (Tally.told path f [file]) := by
  cases hfind : file.targets.find? (path.same ·) with
  | some q =>
    obtain ⟨hfailure, hfound⟩ := Tally.foldl_add_of_named (t := .start merged) h hbase rfl hfind
    have hnamed : path.same q = true := List.find?_some hfind
    have hmem := List.mem_of_find?_eq_some hfind
    refine ⟨⟨fun _ => by rw [Tally.state, hfailure], fun hall => ?_, fun hall => ?_⟩, ?_⟩
    · exact absurd hnamed (by simp [hall q hmem])
    · exact absurd hnamed (by simp [hall q hmem])
    · rw [hfound, Tally.told, List.foldl_cons, hfind]
      rfl
  | none =>
    have hunnamed : ∀ q ∈ file.targets, path.same q = false := fun q hq =>
      Bool.eq_false_iff.2 (List.find?_eq_none.1 hfind q hq)
    obtain ⟨hfailure, hmerged, hskipped⟩ :=
      Tally.foldl_add_of_unnamed (t := .start merged) h hbase hunnamed
    have hfailure : (file.targets.foldl Tally.add (.start merged)).failure? = none := hfailure
    refine ⟨⟨?_, fun _ hsome => ?_, fun _ hall => ?_⟩, ?_⟩
    · rintro ⟨q, hq, hsame⟩
      exact absurd hsame (by simp [hunnamed q hq])
    · have hany : (file.targets.any fun q => (base q).any fun a => a.isDone == false) = true := by
        obtain ⟨q, hq, a, ha, hnot⟩ := hsome
        exact List.any_eq_true.2 ⟨q, hq, by simp [ha, hnot]⟩
      rw [hany, Bool.or_true] at hskipped
      rw [Tally.state, hfailure, hskipped]
      rfl
    · have hnone : (file.targets.any fun q => (base q).any fun a => a.isDone == false) = false := by
        refine List.any_eq_false.2 fun q hq hany => ?_
        obtain ⟨a, ha, hnot⟩ := (Option.any_eq_true _ _).1 hany
        simp [hall q hq a ha] at hnot
      rw [hnone] at hskipped
      rw [Tally.state, hfailure, hskipped]
      rfl
    · rw [hmerged, Tally.told, List.foldl_cons, hfind]
      exact h

/-- The files that are ready are settled one after the other, each with what those before it have
left of the failure. -/
theorem settle_halted {sources : List Path} {files : List PreparedFile}
    (hlength : sources.length = files.length) (h : Tally.found? merged = Tally.halted base path f)
    (hbase : ∀ q e, base q ≠ some (.failed e))
    (rest : List (Path × Attempt StageFailure PreparedFile)) :
    ∃ (states : List FileState) (merged' : MergedTargets), states.length = files.length ∧
      settle merged (sources.zip (files.map .done) ++ rest) =
        List.zipWith FileOutcome.mk sources states ++ settle merged' rest ∧
      ∀ i file, files[i]? = some file → ∃ state, states[i]? = some state ∧
        Settled base path (Tally.told path f (files.take i)) file state := by
  induction files generalizing sources merged f with
  | nil => exact ⟨[], merged, rfl, by simp, by simp⟩
  | cons file files ih =>
    cases sources with
    | nil => cases hlength
    | cons source sources =>
      obtain ⟨hstate, hfound⟩ := settled_state h hbase file
      obtain ⟨states, merged', hstates, hsettle, hall⟩ := ih (Nat.succ.inj hlength) hfound
      refine ⟨_ :: states, merged', congrArg (· + 1) hstates, congrArg (_ :: ·) hsettle,
        fun i file' hfile => ?_⟩
      cases i with
      | zero =>
        obtain rfl := Option.some.inj hfile
        exact ⟨_, rfl, hstate⟩
      | succ i => exact hall i file' hfile

/-- Where all destinations are done, the files that are ready are done. -/
theorem settle_done (h : ∀ m ∈ merged, m.2.isDone = true) (sources : List Path)
    (files : List PreparedFile) (rest : List (Path × Attempt StageFailure PreparedFile)) :
    ∃ states : List FileState, states.length = files.length ∧
      settle merged (sources.zip (files.map .done) ++ rest) =
        List.zipWith FileOutcome.mk sources states ++ settle merged rest ∧
      ∀ state ∈ states, state.isDone = true := by
  refine ⟨files.map fun file => stateOf merged (.done file), List.length_map _, ?_, ?_⟩
  · rw [settle_of_done h, settle_of_done h, List.map_append]
    refine congrArg (· ++ _) ?_
    rw [List.zip_map_right, List.map_map, List.zipWith_map_right, ← List.map_uncurry_zip_eq_zipWith]
    rfl
  · refine List.forall_mem_map.2 fun file _ => ?_
    rfl

/-- Files that are not ready are settled as they are. -/
theorem settle_undone (merged : MergedTargets) (source : Path) (f : StageFailure)
    (behind : List Path) :
    settle merged ((source, .failed f) :: behind.map fun s => (s, .skipped)) =
      ⟨source, .failed f⟩ :: behind.map fun s => ⟨s, .skipped⟩ := by
  rw [settle]
  refine congrArg (_ :: ·) ?_
  induction behind with
  | nil => rfl
  | cons s behind ih => exact congrArg (_ :: ·) ih

end FileOutcome

/-! ### The report of a run -/

/-- One of the targets of a file names the destination. -/
def Destination.IsTargetOf (d : Destination) (file : PreparedFile) : Prop :=
  ∃ target ∈ file.targets, d.path.same target = true

/-- All targets of a file are named by destinations of a list. -/
def Destination.Cover (ds : List Destination) (file : PreparedFile) : Prop :=
  ∀ target ∈ file.targets, ∃ d ∈ ds, d.path.same target = true

/-- What the report says of a file that is ready and has the files `earlier` before it, where the
destinations `before` are merged and `q` fails with `f`. -/
structure Verdict (before : List Destination) (q : Destination) (f : StageFailure)
    (earlier : List PreparedFile) (file : PreparedFile) (state : FileState) : Prop where
  failed : (∃ e, state = .failed e) ↔ q.IsTargetOf file
  done : state.isDone = true ↔ Destination.Cover before file
  skipped : state = .skipped ↔ ¬ q.IsTargetOf file ∧ ¬ Destination.Cover before file
  /-- The first file with the destination among its targets has the failure itself. -/
  first : q.IsTargetOf file → (∀ e ∈ earlier, ¬ q.IsTargetOf e) → state = .failed f
  /-- The others say that the destination has failed, as the one before them spells its path. -/
  later : q.IsTargetOf file → (∃ e ∈ earlier, q.IsTargetOf e) →
    ∃ e ∈ earlier, ∃ path ∈ e.targets, q.path.same path = true ∧
      state = .failed ⟨f.stage, .sharedTarget path⟩

namespace Generator

variable {g : Generator} {p : Plan} {t : FileTree}

/-- The destinations of a plan are merged up to one that fails: those before it are done, and the
run leaves the tree that it leaves, so that nothing is done to those behind it. -/
structure HaltsAt (g : Generator) (p : Plan) (t : FileTree) (before : List Destination)
    (q : Destination) (after : List Destination) (f : StageFailure) : Prop where
  destinations : p.destinations t = before ++ q :: after
  merged : ∃ (os : List TargetOutcome) (t₁ : FileTree),
    Attempt.eachWith (Destination.mergeAll g.appenders p.job.request) before t =
        (t₁, os.map .done) ∧
      Destination.mergeAll g.appenders p.job.request q t₁ = ((g.run p t).1, .error f) ∧
      (g.merged p t).2 = os.map .done ++ .failed f :: after.map fun _ => .skipped

variable {before after : List Destination} {q : Destination} {f : StageFailure}

/-- A run merges all destinations, or halts at one. -/
theorem merged_cases (g : Generator) (p : Plan) (t : FileTree) :
    (∃ os : List TargetOutcome, (g.merged p t).2 = os.map .done) ∨
      ∃ before q after f, HaltsAt g p t before q after f := by
  obtain ⟨front, os, t₁, hfront, hlength, hall | ⟨q, after, t₂, f, hall, hfails, hmerged⟩⟩ :=
    Attempt.eachWith_cases (Destination.mergeAll g.appenders p.job.request) (p.destinations t) t
  · left
    rw [merged, hall, hfront]
    exact ⟨os, rfl⟩
  · refine .inr ⟨front, q, after, f, hall, os, t₁, hfront, ?_, congrArg Prod.snd hmerged⟩
    rw [run_eq, merged, hmerged]
    exact hfails

/-- What became of the destinations of a run that halts. -/
theorem HaltsAt.outcomes_eq (h : HaltsAt g p t before q after f) : ∃ os : List TargetOutcome,
    g.outcomes p t = before.zip (os.map .done) ++ (q, .failed f) :: after.map (·, .skipped) := by
  obtain ⟨os, t₁, hfront, -, hmerged⟩ := h.merged
  have hlength : before.length =
      (os.map .done : List (Attempt StageFailure TargetOutcome)).length := by
    have hitems := Attempt.length_eachWith (Destination.mergeAll g.appenders p.job.request) before t
    rw [hfront] at hitems
    exact hitems.symm
  refine ⟨os, ?_⟩
  rw [outcomes, h.destinations, hmerged, List.zip_append hlength, List.zip_cons_cons,
    Attempt.zip_skipped]

theorem HaltsAt.of_mem_outcomes (h : HaltsAt g p t before q after f)
    {m : Destination × Attempt StageFailure TargetOutcome} (hm : m ∈ g.outcomes p t) :
    m.1 ∈ before ∧ m.2.isDone = true ∨ m = (q, .failed f) ∨ m.1 ∈ after ∧ m.2 = .skipped := by
  obtain ⟨os, houtcomes⟩ := h.outcomes_eq
  rw [houtcomes, List.mem_append, List.mem_cons] at hm
  rcases hm with hm | rfl | hm
  · obtain ⟨hbefore, hdone⟩ := List.of_mem_zip hm
    obtain ⟨o, -, ho⟩ := List.mem_map.1 hdone
    exact .inl ⟨hbefore, ho ▸ rfl⟩
  · exact .inr (.inl rfl)
  · obtain ⟨d, hd, rfl⟩ := List.mem_map.1 hm
    exact .inr (.inr ⟨hd, rfl⟩)

/-- What is found for a path where a run halts, if it does not name the destination that fails. -/
def others (g : Generator) (p : Plan) (t : FileTree) (q : Destination) (path : Path) :
    Option (Attempt StageFailure TargetOutcome) :=
  if q.path.same path then none else Tally.found? (g.settled p t) path

theorem HaltsAt.different (h : HaltsAt g p t before q after f) :
    ∀ d ∈ before, ∀ e ∈ q :: after, d.path.same e.path = false := by
  have hdifferent := (g.inOrder p t).different_destinations
  rw [inOrder_destinations, h.destinations] at hdifferent
  exact (List.pairwise_append.1 hdifferent).2.2

theorem HaltsAt.found?_settled (h : HaltsAt g p t before q after f) :
    Tally.found? (g.settled p t) = Tally.halted (others g p t q) q.path f := by
  funext path
  rw [Tally.halted, others]
  cases hsame : q.path.same path with
  | true =>
    obtain ⟨os, houtcomes⟩ := h.outcomes_eq
    exact Generator.found?_settled.2 ⟨(q, .failed f), by simp [houtcomes], hsame, rfl⟩
  | false => rfl

theorem HaltsAt.others_ne_failed (h : HaltsAt g p t before q after f) (path : Path)
    (e : StageFailure) : others g p t q path ≠ some (.failed e) := by
  rw [others]
  cases hsame : q.path.same path with
  | true => simp
  | false =>
    intro hfound
    obtain ⟨m, hm, hpath, hfailed⟩ := Generator.found?_settled.1 hfound
    rcases h.of_mem_outcomes hm with ⟨-, hdone⟩ | rfl | ⟨-, hskipped⟩
    · rw [hfailed] at hdone
      cases hdone
    · rw [hsame] at hpath
      cases hpath
    · cases hskipped.symm.trans hfailed

/-- What is found for a path that names a destination before the one that fails is done. -/
theorem HaltsAt.others_before (h : HaltsAt g p t before q after f) {d : Destination} {path : Path}
    (hd : d ∈ before) (hpath : d.path.same path = true)
    {a : Attempt StageFailure TargetOutcome} (ha : others g p t q path = some a) :
    a.isDone = true := by
  rw [others] at ha
  split at ha
  · cases ha
  · obtain ⟨m, hm, hsame, rfl⟩ := Generator.found?_settled.1 ha
    have hother : m.1 ∉ q :: after := fun hmem => by
      have hapart := h.different d hd m.1 hmem
      rw [Path.same_of_same hpath hsame] at hapart
      cases hapart
    rcases h.of_mem_outcomes hm with ⟨-, hdone⟩ | rfl | ⟨hafter, -⟩
    · exact hdone
    · exact absurd List.mem_cons_self hother
    · exact absurd (List.mem_cons_of_mem q hafter) hother

/-- What is found for a path that names a destination behind the one that fails is skipped. -/
theorem HaltsAt.others_after (h : HaltsAt g p t before q after f) {d : Destination} {path : Path}
    (hd : d ∈ after) (hpath : d.path.same path = true) (hq : q.path.same path = false) :
    others g p t q path = some .skipped := by
  obtain ⟨os, houtcomes⟩ := h.outcomes_eq
  rw [others, hq]
  exact Generator.found?_settled.2 ⟨(d, .skipped), by simp [houtcomes, hd], hpath, rfl⟩

/-- A target of a file that is ready is named by a destination. -/
theorem exists_destination {file : PreparedFile} (hfile : file ∈ p.files t) {target : Path}
    (htarget : target ∈ file.targets) : ∃ d ∈ p.destinations t, d.path.same target = true := by
  obtain ⟨i, hi⟩ := List.mem_iff_getElem?.1 (Plan.mem_files.1 hfile)
  exact (Destination.covers_group _).found i file target
    ⟨by rw [List.getElem?_map, hi]; rfl, htarget⟩

/-- A file that is ready has the destination that fails among its targets, or only such that are
done, or others one of which is skipped. -/
theorem HaltsAt.cases_of_settled (h : HaltsAt g p t before q after f) {file : PreparedFile}
    (hfile : file ∈ p.files t) {e : StageFailure} {state : FileState}
    (hstate : FileOutcome.Settled (others g p t q) q.path e file state) :
    q.IsTargetOf file ∧ ¬ Destination.Cover before file ∧ state = .failed e ∨
      ¬ q.IsTargetOf file ∧ Destination.Cover before file ∧ state.isDone = true ∨
      ¬ q.IsTargetOf file ∧ ¬ Destination.Cover before file ∧ state = .skipped := by
  by_cases hq : q.IsTargetOf file
  · refine .inl ⟨hq, fun hcover => ?_, hstate.failed hq⟩
    obtain ⟨target, htarget, hsame⟩ := hq
    obtain ⟨d, hd, hother⟩ := hcover target htarget
    have hapart := h.different d hd q List.mem_cons_self
    rw [Path.same_of_same hother hsame] at hapart
    cases hapart
  · have hunnamed : ∀ target ∈ file.targets, q.path.same target = false :=
      fun target htarget => Bool.eq_false_iff.2 fun hsame => hq ⟨target, htarget, hsame⟩
    by_cases hcover : Destination.Cover before file
    · refine .inr (.inl ⟨hq, hcover, hstate.done hunnamed fun target htarget a ha => ?_⟩)
      obtain ⟨d, hd, hpath⟩ := hcover target htarget
      exact h.others_before hd hpath ha
    · refine .inr (.inr ⟨hq, hcover, hstate.skipped hunnamed ?_⟩)
      obtain ⟨target, htarget, hnone⟩ : ∃ target ∈ file.targets,
          ∀ d ∈ before, d.path.same target = false := by
        simpa [Destination.Cover] using hcover
      obtain ⟨d, hd, hpath⟩ := exists_destination hfile htarget
      rw [h.destinations, List.mem_append, List.mem_cons] at hd
      rcases hd with hd | rfl | hd
      · exact absurd hpath (by simp [hnone d hd])
      · exact absurd hpath (by simp [hunnamed target htarget])
      · exact ⟨target, htarget, .skipped, h.others_after hd hpath (hunnamed target htarget), rfl⟩

theorem HaltsAt.verdict (h : HaltsAt g p t before q after f) {file : PreparedFile}
    (hfile : file ∈ p.files t) {earlier : List PreparedFile} {state : FileState}
    (hstate :
      FileOutcome.Settled (others g p t q) q.path (Tally.told q.path f earlier) file state) :
    Verdict before q f earlier file state := by
  have hcases := h.cases_of_settled hfile hstate
  refine ⟨?_, ?_, ?_, fun hq hfirst => ?_, fun hq hlater => ?_⟩
  · rcases hcases with ⟨hq, -, rfl⟩ | ⟨hq, -, hdone⟩ | ⟨hq, -, rfl⟩
    · simp [hq]
    · obtain ⟨os, rfl⟩ := Attempt.isDone_iff.1 hdone
      simp [hq]
    · simp [hq]
  · rcases hcases with ⟨-, hcover, rfl⟩ | ⟨-, hcover, hdone⟩ | ⟨-, hcover, rfl⟩
    · simp [hcover, Attempt.isDone, Attempt.result?]
    · simp [hcover, hdone]
    · simp [hcover, Attempt.isDone, Attempt.result?]
  · rcases hcases with ⟨hq, -, rfl⟩ | ⟨hq, hcover, hdone⟩ | ⟨hq, hcover, rfl⟩
    · simp [hq]
    · obtain ⟨os, rfl⟩ := Attempt.isDone_iff.1 hdone
      simp [hcover]
    · simp [hq, hcover]
  · rw [hstate.failed hq, Tally.told_of_unnamed fun e he path hpath =>
      Bool.eq_false_iff.2 fun hsame => hfirst e he ⟨path, hpath, hsame⟩]
  · obtain ⟨e, he, path, hpath, hsame, htold⟩ := Tally.exists_told (f := f) hlater
    exact ⟨e, he, path, hpath, hsame, by rw [hstate.failed hq, htold]⟩

theorem done_of_merged {os : List TargetOutcome} (h : (g.merged p t).2 = os.map .done) :
    ∀ m ∈ g.settled p t, m.2.isDone = true := by
  intro m hm
  obtain ⟨o, ho, rfl⟩ := List.mem_map.1 hm
  have hmem := List.mem_map_of_mem (f := Prod.snd) ho
  rw [map_snd_outcomes, h] at hmem
  obtain ⟨outcome, -, heq⟩ := List.mem_map.1 hmem
  exact heq ▸ rfl

/-- The source files of a plan: those that are ready come first, then one that fails, if there is
one, and those behind it are skipped, whatever becomes of the destinations. -/
theorem sources_cases (p : Plan) (t : FileTree) :
    ∃ (front : List Path) (tail : List (Path × Attempt StageFailure PreparedFile))
      (rest : List FileOutcome),
      List.Forall₂ (fun source file => p.job.prepare t source = .ok file) front (p.files t) ∧
      (p.sources = front ∧ rest = [] ∨ ∃ source behind f, p.sources = front ++ source :: behind ∧
        p.job.prepare t source = .error f ∧
        rest = ⟨source, .failed f⟩ :: behind.map fun s => ⟨s, .skipped⟩) ∧
      p.sources.zip (p.prepared t) = front.zip ((p.files t).map .done) ++ tail ∧
      ∀ merged, FileOutcome.settle merged tail = rest := by
  obtain ⟨front, files, hfront, ⟨hsources, hprepared⟩ |
    ⟨source, behind, f, hsources, hfails, hprepared⟩⟩ :=
      Attempt.each_cases (p.job.prepare t) p.sources
  · have hfiles : p.files t = files := by
      rw [Plan.files, Plan.prepared, hprepared, Attempt.filterMap_done]
    refine ⟨front, [], [], hfiles ▸ hfront, .inl ⟨hsources, rfl⟩, ?_, fun _ => rfl⟩
    rw [Plan.prepared, hprepared, hsources, hfiles, List.append_nil]
  · have hfiles : p.files t = files := by
      rw [Plan.files, Plan.prepared, hprepared, List.filterMap_append, Attempt.filterMap_done,
        List.filterMap_cons_none rfl, Attempt.filterMap_skipped, List.append_nil]
    refine ⟨front, (source, .failed f) :: behind.map (·, .skipped), _, hfiles ▸ hfront,
      .inr ⟨source, behind, f, hsources, hfails, rfl⟩, ?_,
      fun merged => FileOutcome.settle_undone merged source f behind⟩
    rw [Plan.prepared, hprepared, hsources, hfiles, List.zip_append (by simp [hfront.length_eq]),
      List.zip_cons_cons, Attempt.zip_skipped]

/-- **The report tells every failure once and says of every file what became of it.** The source
files up to one that cannot be prepared are ready; that one is failed with its failure, and those
behind it are skipped. The destinations stand in the order in which their paths first appear among
the targets of the files that are ready. Either all of them are merged, and all these files are
done, or the run halts at one, and each file is failed, done or skipped by where the destinations of
its targets stand (`Verdict`). -/
theorem run_attributes (g : Generator) (p : Plan) (t : FileTree) :
    ∃ (front : List Path) (states : List FileState) (rest : List FileOutcome),
      (g.run p t).2 = List.zipWith FileOutcome.mk front states ++ rest ∧
      List.Forall₂ (fun source file => p.job.prepare t source = .ok file) front (p.files t) ∧
      states.length = (p.files t).length ∧
      (p.sources = front ∧ rest = [] ∨ ∃ source behind f, p.sources = front ++ source :: behind ∧
        p.job.prepare t source = .error f ∧
        rest = ⟨source, .failed f⟩ :: behind.map fun s => ⟨s, .skipped⟩) ∧
      (p.destinations t).map (·.path) =
        ((p.files t).flatMap (·.targets)).foldl Destination.noted [] ∧
      ((∃ os : List TargetOutcome, (g.merged p t).2 = os.map .done) ∧
          (∀ state ∈ states, state.isDone = true) ∨
        ∃ before q after f, HaltsAt g p t before q after f ∧
          ∀ i file, (p.files t)[i]? = some file → ∃ state, states[i]? = some state ∧
            Verdict before q f ((p.files t).take i) file state) := by
  obtain ⟨front, tail, rest, hfront, hsources, hzip, htail⟩ := sources_cases p t
  have hlength : front.length = (p.files t).length := hfront.length_eq
  have hrun : (g.run p t).2 = FileOutcome.settle (g.settled p t)
      (front.zip ((p.files t).map .done) ++ tail) := by rw [run_eq, hzip]
  rcases merged_cases g p t with ⟨os, hdone⟩ | ⟨before, q, after, f, hhalts⟩
  · obtain ⟨states, hstates, hsettle, hall⟩ := FileOutcome.settle_done (done_of_merged hdone) front
      (p.files t) tail
    exact ⟨front, states, rest, by rw [hrun, hsettle, htail], hfront, hstates, hsources,
      p.paths_destinations t, .inl ⟨⟨os, hdone⟩, hall⟩⟩
  · obtain ⟨states, merged', hstates, hsettle, hall⟩ := FileOutcome.settle_halted hlength
      hhalts.found?_settled hhalts.others_ne_failed tail
    refine ⟨front, states, rest, by rw [hrun, hsettle, htail], hfront, hstates, hsources,
      p.paths_destinations t, .inr ⟨before, q, after, f, hhalts, fun i file hfile => ?_⟩⟩
    obtain ⟨state, hstate, hsettled⟩ := hall i file hfile
    exact ⟨state, hstate, hhalts.verdict (List.mem_of_getElem? hfile) hsettled⟩

end Generator

end Scaffold
