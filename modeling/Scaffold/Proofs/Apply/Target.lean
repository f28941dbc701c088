import Scaffold.Proofs.Apply.Plan
import Scaffold.Proofs.FileTree.Goal
import Scaffold.Proofs.Source

/-!
# What a target path stands for

A pattern stands for listed files of the target tree, and any other target path for one path
(`resolve_cases`). The files that a pattern stands for are found where they are listed, and
different ones lie at different places (`Matches.eq_of_goal_eq`).
-/

namespace Scaffold

namespace Target

variable {t : FileTree} {root target q r : Path} {o : Options} {paths : List Path}

/-- The target path is a pattern. -/
def IsPattern (target : Path) : Prop := isGlob (pattern target) = true

instance (target : Path) : Decidable (IsPattern target) := inferInstanceAs (Decidable (_ = true))

/-- The path is that of a file below the root that the pattern matches. -/
structure Matches (t : FileTree) (root target q : Path) : Prop where
  folder : t.isFolder root = true
  listed : ∃ tokens ps name, Glob.parse (pattern target) = .ok tokens ∧ t.list root = .ok ps ∧
    name ∈ ps ∧ isManifest name = false ∧ Glob.isMatch tokens name.text = true ∧ q = root.join name

/-- A pattern stands for the listed files that it matches, manifests aside. -/
theorem resolve_of_list (hpattern : IsPattern target) {tokens : List Glob.Token}
    (hparse : Glob.parse (pattern target) = .ok tokens) (hfolder : t.isFolder root = true)
    {ps : List Path} (hlist : t.list root = .ok ps) (o : Options) : resolve t root target o =
      .ok ((ps.filter fun p => !isManifest p && Glob.isMatch tokens p.text).map root.join) := by
  unfold resolve
  dsimp only
  rw [if_pos (show isGlob (pattern target) = true from hpattern), hparse]
  dsimp only
  rw [matching, if_pos hfolder, hlist]
  rfl

/-- What a target path stands for: the files that match it, or else the path with its names as the
options ask. -/
theorem resolve_cases (h : resolve t root target o = .ok paths) :
    IsPattern target ∧ (∀ q ∈ paths, Matches t root target q) ∨
      ¬ IsPattern target ∧ paths = [root.join (target.rename o.folderNaming o.fileNaming)] := by
  rw [resolve] at h
  split at h
  · rename_i hglob
    refine .inl ⟨hglob, ?_⟩
    split at h
    · cases h
    · rename_i tokens hparse
      rw [matching] at h
      split at h
      · rename_i hfolder
        obtain ⟨ps, hlist, h⟩ := Outcome.bind_eq_ok.1 h
        obtain rfl := Except.ok.inj h
        intro q hq
        obtain ⟨name, hname, rfl⟩ := List.mem_map.1 hq
        obtain ⟨hmem, hmatch⟩ := List.mem_filter.1 hname
        obtain ⟨hmanifest, hmatch⟩ := Bool.and_eq_true_iff.1 hmatch
        exact ⟨hfolder, tokens, ps, name, hparse, Outcome.mapError_eq_ok.1 hlist, hmem,
          by simpa using hmanifest, hmatch, rfl⟩
      · obtain rfl := Except.ok.inj h
        simp
  · rename_i hglob
    exact .inr ⟨hglob, (Except.ok.inj h).symm⟩

/-- A file that a pattern stands for is found by its path, at the names that it is listed by. -/
theorem Matches.locate (ht : t.WellFormed) (h : Matches t root target q) :
    ∃ z ns, t.locate root = .ok z ∧ q = root.join (FileTree.pathOf ns) ∧
      t.locate q = .ok (z ++ ns) := by
  obtain ⟨tokens, ps, name, -, hlist, hname, -, -, rfl⟩ := h.listed
  obtain ⟨z, hz, hentry⟩ := FileTree.isFolder_eq_true.1 h.folder
  obtain ⟨ns, rfl, hlocate⟩ := ht.locate_of_mem_list hz hentry hlist hname
  exact ⟨z, ns, hz, rfl, hlocate⟩

/-- Different files that patterns stand for lie at different places. -/
theorem Matches.eq_of_goal_eq (ht : t.WellFormed) {target' : Path} (hq : Matches t root target q)
    (hr : Matches t root target' r) (h : t.goal q = t.goal r) : q = r := by
  obtain ⟨z, ns, hz, rfl, hlocate⟩ := hq.locate ht
  obtain ⟨z', ns', hz', rfl, hlocate'⟩ := hr.locate ht
  obtain rfl := Except.ok.inj (hz.symm.trans hz')
  rw [← FileTree.goal_of_locate hlocate, ← FileTree.goal_of_locate hlocate'] at h
  rw [List.append_cancel_left h]

end Target

/-- What the targets of a file that is prepared are. -/
theorem Job.targets_cases {j : Job} {t : FileTree} {source : Path} {f : PreparedFile}
    (h : j.prepare t source = .ok f) :
    Target.IsPattern f.context.target ∧
        (∀ q ∈ f.targets, Target.Matches t j.request.targetRoot f.context.target q) ∨
      ¬ Target.IsPattern f.context.target ∧ ∃ o : Options,
        f.targets = [j.request.targetRoot.join
          (f.context.target.rename o.folderNaming o.fileNaming)] := by
  obtain ⟨text, o, body, -, -, -, htargets⟩ := Job.prepare_eq_ok.1 h
  exact (Target.resolve_cases htargets).imp_right fun h => ⟨h.1, o, h.2⟩

end Scaffold
