import Scaffold.Proofs.Apply.Attribution

/-!
# Source files by their destinations

Source files are taken in the order of their numbers, and a file that has several targets with one
destination goes into it once. A destination looks only at the last file that went into it, which is
enough since the numbers of its files ascend (`ascends_group`). So the grouping loses nothing and
repeats nothing: the destinations are the different targets in the order in which they first appear,
and each takes in the files with that target in their order (`group_regroups`).
-/

namespace Scaffold.Destination

variable {d : Destination} {ds : List Destination} {a b index : Nat}

/-! ### The order of the files of a destination -/

/-- The files stand in the order of their numbers, all of which lie below a bound. -/
structure Ascends (bound : Nat) (d : Destination) : Prop where
  increasing : d.contributors.Pairwise fun c c' => c.1 < c'.1
  below : ∀ c ∈ d.contributors, c.1 < bound

theorem Ascends.mono (h : d.Ascends a) (hab : a ≤ b) : d.Ascends b :=
  ⟨h.increasing, fun c hc => Nat.lt_of_lt_of_le (h.below c hc) hab⟩

/-- If the last file is another one than the file with the highest number, so are all. -/
theorem Ascends.below_of_last (h : d.Ascends (index + 1))
    (hlast : ¬ d.contributors.getLast?.any (·.1 == index) = true) :
    ∀ c ∈ d.contributors, c.1 < index := by
  obtain ⟨hincreasing, hbelow⟩ := h
  rcases List.eq_nil_or_concat d.contributors with hnone | ⟨front, last, hcontributors⟩
  · simp [hnone]
  · rw [hcontributors, List.concat_eq_append] at hlast hincreasing hbelow ⊢
    have hother : last.1 ≠ index := by simpa using hlast
    have hbound := hbelow last (by simp)
    have hlower := (List.pairwise_append.1 hincreasing).2.2
    refine List.forall_mem_append.2 ⟨fun c hc => ?_, List.forall_mem_singleton.2 (by omega)⟩
    have := hlower c hc last (List.mem_singleton_self _)
    omega

theorem Ascends.contribute (h : d.Ascends (index + 1)) (file : PreparedFile) :
    (d.contribute index file).Ascends (index + 1) := by
  rw [Destination.contribute]
  split
  · exact h
  · rename_i hlast
    have hbelow := h.below_of_last hlast
    refine ⟨List.pairwise_append.2 ⟨h.increasing, List.pairwise_singleton _ _, ?_⟩, ?_⟩
    · exact fun c hc => List.forall_mem_singleton.2 (hbelow c hc)
    · exact List.forall_mem_append.2 ⟨h.below, List.forall_mem_singleton.2 (Nat.lt_succ_self _)⟩

theorem ascends_addAll (h : ∀ d ∈ ds, d.Ascends index) (file : PreparedFile) :
    ∀ d ∈ addAll ds index file, d.Ascends (index + 1) := by
  have hnew (target : Path) : Ascends (index + 1) ⟨target, [(index, file)]⟩ :=
    ⟨List.pairwise_singleton _ _, List.forall_mem_singleton.2 (Nat.lt_succ_self _)⟩
  suffices hall : ∀ (targets : List Path) (ds : List Destination),
      (∀ d ∈ ds, d.Ascends (index + 1)) →
      ∀ d ∈ targets.foldl (fun ds target => add index file target ds) ds, d.Ascends (index + 1) from
    hall file.targets ds fun d hd => (h d hd).mono (Nat.le_succ _)
  intro targets
  induction targets with
  | nil => exact fun _ h => h
  | cons target targets ih =>
    intro ds h
    exact ih _ (forall_mem_add h (hnew target) fun d hd => hd.contribute file)

theorem ascends_groupFrom (h : ∀ d ∈ ds, d.Ascends index) (files : List (Option PreparedFile)) :
    ∀ d ∈ groupFrom ds index files, d.Ascends (index + files.length) := by
  induction files generalizing ds index with
  | nil => exact h
  | cons f? files ih =>
    have hlength : index + (f? :: files).length = index + 1 + files.length := by
      rw [List.length_cons]
      omega
    rw [hlength]
    cases f? with
    | none => exact ih fun d hd => (h d hd).mono (Nat.le_succ _)
    | some file => exact ih (ascends_addAll h file)

theorem ascends_group (files : List (Option PreparedFile)) :
    ∀ d ∈ group files, d.Ascends files.length := by
  have hall := @ascends_groupFrom [] 0 (by simp) files
  rwa [Nat.zero_add] at hall

/-! ### The order of the destinations -/

/-- Behind paths that stand already, the others follow in order of first appearance. -/
theorem foldl_noted (paths targets : List Path) : targets.foldl noted paths =
    paths ++ (targets.filter fun q => !paths.any (·.same q)).eraseDupsBy Path.same := by
  induction targets generalizing paths with
  | nil => exact (List.append_nil _).symm
  | cons q targets ih =>
    rw [List.foldl_cons, ih, noted]
    cases hq : paths.any (·.same q) with
    | true => simp [hq]
    | false =>
      have hfilter : (targets.filter fun r => !(paths ++ [q]).any (·.same r)) =
          (targets.filter fun r => !paths.any (·.same r)).filter fun r => r.same q = false := by
        rw [List.filter_filter]
        refine List.filter_congr fun r _ => ?_
        simp [Path.same_comm q r, Bool.and_comm]
      rw [if_neg Bool.false_ne_true, hfilter, List.filter_cons_of_pos (by simp [hq]),
        List.eraseDupsBy_cons, List.append_assoc]
      rfl

theorem paths_group (files : List (Option PreparedFile)) : (group files).map (·.path) =
    ((files.filterMap id).flatMap (·.targets)).eraseDupsBy Path.same := by
  rw [group, paths_groupFrom, foldl_noted]
  simp

/-! ### The regrouping -/

/-- **Source files are grouped by destination without loss**: the destinations have different paths
and stand in the order in which these first appear among the targets, a file goes into the
destination with a path if and only if it has a target with that path, and the numbers of the files
of each destination increase. -/
theorem group_regroups (files : List (Option PreparedFile)) :
    (group files).Pairwise (fun d e => d.path.same e.path = false) ∧
    (group files).map (·.path) =
      ((files.filterMap id).flatMap (·.targets)).eraseDupsBy Path.same ∧
    (∀ (p : Path) (i : Nat) (f : PreparedFile),
      (∃ d ∈ group files, d.path.same p = true ∧ (i, f) ∈ d.contributors) ↔
        files[i]? = some (some f) ∧ ∃ q ∈ f.targets, p.same q = true) ∧
    ∀ d ∈ group files, d.contributors.Pairwise fun c c' => c.1 < c'.1 := by
  have hcovers := covers_group files
  refine ⟨(grouped_group files).different, paths_group files, fun p i f => ⟨?_, ?_⟩,
    fun d hd => (ascends_group files d hd).increasing⟩
  · rintro ⟨d, hd, hp, hmem⟩
    obtain ⟨q, ⟨hfile, hq⟩, hsame⟩ := (hcovers.mem d hd i f).1 hmem
    refine ⟨hfile, q, hq, ?_⟩
    rw [← Path.same_congr hp]
    exact hsame
  · rintro ⟨hfile, q, hq, hp⟩
    obtain ⟨d, hd, hsame⟩ := hcovers.found i f q ⟨hfile, hq⟩
    exact ⟨d, hd, Path.same_of_same hsame hp, (hcovers.mem d hd i f).2 ⟨q, ⟨hfile, hq⟩, hsame⟩⟩

/-- A file that has one of its targets twice, a file that is not ready, and one with a target of the
first. -/
def sharingFiles : List (Option PreparedFile) :=
  [some ⟨default, "first", [⟨"a/x.ts"⟩, ⟨"y.ts"⟩, ⟨"a//x.ts"⟩]⟩, none,
    some ⟨default, "third", [⟨"z.ts"⟩, ⟨"y.ts"⟩]⟩]

/-- The target that is there twice takes its file once, and the shared one takes both in order. -/
theorem group_regroups_of_shared_target :
    (group sharingFiles).map (·.path) = [⟨"a/x.ts"⟩, ⟨"y.ts"⟩, ⟨"z.ts"⟩] ∧
      (group sharingFiles).map (·.contributors.map (·.1)) = [[0], [0, 2], [2]] ∧
      ∀ d ∈ group sharingFiles, d.contributors.Pairwise fun c c' => c.1 < c'.1 := by
  obtain ⟨-, hpaths, -, hincreasing⟩ := group_regroups sharingFiles
  refine ⟨?_, by decide +kernel, hincreasing⟩
  rw [hpaths]
  decide +kernel

end Scaffold.Destination
