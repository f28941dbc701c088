import Mathlib.Data.List.Find
import Scaffold.Manifest
import Scaffold.Proofs.FileTree.Make

/-!
# Manifests in trees

What is loaded from a tree depends on the files with the names of manifests only (`load_congr`), and
a record that fails for the sake of the manifest leaves the tree as it is (`record_eq_error`). A
record changes no other file (`outside_record`). It is loaded again behind the records that were
there (`load_of_record`), and then it is not recorded twice (`record_of_contains`).
-/

namespace Scaffold

namespace Manifest

variable {t t' : FileTree} {root : Path}

/-- The files with the names of manifests below a folder say the same in both trees. -/
def Agree (root : Path) (t t' : FileTree) : Prop :=
  ∀ name ∈ fileNames, t'.content? (root.join name) = t.content? (root.join name)

/-- Where there is a manifest file there is something to read. -/
theorem exists_content_of_file? {path : Path} (h : file? t root = some path) :
    ∃ c, t.content? path = some c := by
  have hfile := List.find?_some h
  rw [FileTree.isFile_eq] at hfile
  exact Option.isSome_iff_exists.1 hfile

theorem file?_congr (h : Agree root t t') : file? t' root = file? t root := by
  refine List.find?_congr fun p hp => ?_
  obtain ⟨name, hname, rfl⟩ := List.mem_map.1 hp
  rw [FileTree.isFile_eq, FileTree.isFile_eq, h name hname]

/-- The manifest of a tree depends on the files with the names of manifests only. -/
theorem load_congr (h : Agree root t t') : load t' root = load t root := by
  rw [load, load, file?_congr h]
  cases hfile : file? t root with
  | none => rfl
  | some path =>
    obtain ⟨name, hname, rfl⟩ := List.mem_map.1 (List.mem_of_find?_eq_some hfile)
    obtain ⟨c, hc⟩ := exists_content_of_file? hfile
    dsimp only
    rw [FileTree.readOptional_of_content? hc,
      FileTree.readOptional_of_content? ((h name hname).trans hc)]

/-- A record fails for the manifest's sake only where the manifest cannot be loaded, and then the
tree stays as it is. -/
theorem record_eq_error {i : Identity} {e : Failure} (h : record t root i = (t', .error e)) :
    (t' = t ∧ load t root = .error e) ∨ ∃ fault, e = .file fault := by
  rw [record] at h
  dsimp only at h
  split at h
  · rename_i e' hload
    obtain ⟨rfl, hfailure⟩ := Prod.mk.inj h
    obtain rfl := Except.error.inj hfailure
    exact .inl ⟨rfl, hload⟩
  · split at h
    · cases h
    · split at h
      · cases h
      · rename_i fault _
        obtain ⟨-, hfailure⟩ := Prod.mk.inj h
        exact .inr ⟨fault, (Except.error.inj hfailure).symm⟩

/-! ### Where manifests stand -/

/-- The file that a record is written to. -/
def recordPath (t : FileTree) (root : Path) : Path := (file? t root).getD (root.join newFileName)

theorem plain_of_mem_fileNames : ∀ name ∈ fileNames, name.Plain ∧ name.isAbsolute = false := by
  decide

theorem isEmpty_of_mem_fileNames : ∀ name ∈ fileNames, name.text.isEmpty = false := by decide

theorem eq_of_names : ∀ a ∈ fileNames, ∀ b ∈ fileNames, a.names = b.names → a = b := by decide

theorem exists_recordPath (t : FileTree) (root : Path) :
    ∃ name ∈ fileNames, recordPath t root = root.join name := by
  rw [recordPath]
  cases hfile : file? t root with
  | none => exact ⟨newFileName, by decide, rfl⟩
  | some path =>
    obtain ⟨name, hname, rfl⟩ := List.mem_map.1 (List.mem_of_find?_eq_some hfile)
    exact ⟨name, hname, rfl⟩

/-! #### At their goals -/

/-- The names of manifests find what stands at their goals: no file stands there that cannot be
reached for want of a folder on the way. -/
def InPlace (t : FileTree) (root : Path) : Prop :=
  ∀ name ∈ fileNames, t.content? (root.join name) = t.contentAt? (t.goal (root.join name))

theorem goal_join_name {name : Path} (h : name ∈ fileNames) :
    t.goal (root.join name) = t.goal root ++ name.names := by
  obtain ⟨hplain, hrelative⟩ := plain_of_mem_fileNames name h
  exact (FileTree.goal_join hrelative).trans (FileTree.climb_of_plain hplain _)

/-- Writes elsewhere leave the manifest as it is, wherever its names lead. -/
theorem agree_of_outside {places : List Location} (h : FileTree.Outside places t t')
    (hin : InPlace t root) (hplaces : ∀ name ∈ fileNames, t.goal (root.join name) ∉ places) :
    Agree root t t' := fun name hname => h.content?_of_not_mem (hin name hname) (hplaces name hname)

/-- Where a manifest is written over another one, the single names of manifests but its own find
what they found. -/
theorem isFile_of_written {name : Path} (hname : name ∈ fileNames)
    (hfile : t.isFile (root.join name) = true)
    (h : FileTree.Outside [t.goal (root.join name)] t t') {n : String} (hn : IsName n)
    (hmem : ⟨n⟩ ∈ fileNames) (hne : name ≠ ⟨n⟩) :
    t'.isFile (root.join ⟨n⟩) = t.isFile (root.join ⟨n⟩) := by
  obtain ⟨c, hc⟩ : ∃ c, t.content? (root.join name) = some c := by
    rwa [FileTree.isFile_eq, Option.isSome_iff_exists] at hfile
  obtain ⟨y, hy⟩ := FileTree.exists_locate_of_content? hc
  obtain ⟨hplain, hrelative⟩ := plain_of_mem_fileNames name hname
  have hne' := isEmpty_of_mem_fileNames name hname
  obtain ⟨z, hz, -⟩ := (FileTree.locate_join_eq_ok hrelative hne').1 hy
  have hgoal : t.goal (root.join ⟨n⟩) ∉ [t.goal (root.join name)] := by
    rw [List.mem_singleton, goal_join_name hmem, goal_join_name hname, List.append_cancel_left_eq]
    exact fun heq => hne (eq_of_names name hname _ hmem heq.symm)
  rw [FileTree.isFile_eq, FileTree.isFile_eq, FileTree.content?_join_name hz hn,
    FileTree.content?_join_name (h.locateFolder_eq_ok hz) hn, h.goal, h.content _ hgoal]

/-- What is written as the manifest is found as the manifest. -/
theorem file?_written {s : String} (h : t.write (recordPath t root) s = (t', .ok ())) :
    file? t' root = some (recordPath t root) ∧
      t'.content? (recordPath t root) = some (.text s) := by
  obtain ⟨-, houtside, hcontent⟩ := (FileTree.put_cases h).resolve_left fun hfail => by
    obtain ⟨⟨e, he⟩, -⟩ := hfail
    cases he
  refine ⟨?_, hcontent⟩
  have hwritten : t'.isFile (recordPath t root) = true := by
    rw [FileTree.isFile_eq, hcontent]
    rfl
  cases hold : file? t root with
  | none =>
    rw [recordPath, hold, Option.getD_none] at hwritten ⊢
    exact List.find?_cons_of_pos hwritten
  | some path =>
    rw [recordPath, hold, Option.getD_some] at houtside hwritten ⊢
    obtain ⟨hfile, before, behind, hpaths, hbefore⟩ := List.find?_eq_some_iff_append.1 hold
    obtain ⟨name, hname, rfl⟩ := List.mem_map.1 (List.mem_of_find?_eq_some hold)
    refine List.find?_eq_some_iff_append.2 ⟨hwritten, before, behind, hpaths, fun q hq => ?_⟩
    -- what comes before another name is not the last one, and so it is a single name
    have hdrop : q ∈ (fileNames.map root.join).dropLast := by
      rw [hpaths, List.dropLast_append_cons]
      exact List.mem_append_left _ hq
    obtain ⟨n, hn, hmem, rfl⟩ : ∃ n, IsName n ∧ ⟨n⟩ ∈ fileNames ∧ q = root.join ⟨n⟩ := by
      rcases List.mem_pair.1 hdrop with rfl | rfl
      · exact ⟨"scf.json", by decide, by decide, rfl⟩
      · exact ⟨".scf.json", by decide, by decide, rfl⟩
    have hmissing : t.isFile (root.join ⟨n⟩) = false := by simpa using hbefore _ hq
    have hne : name ≠ ⟨n⟩ := by
      rintro rfl
      rw [hfile] at hmissing
      cases hmissing
    rw [isFile_of_written hname hfile houtside hn hmem hne, hmissing]
    rfl

/-- The text of the manifest file is what is loaded. -/
theorem load_of_file? {path : Path} {s : String} {m : Manifest} (hfile : file? t root = some path)
    (hcontent : t.content? path = some (.text s)) (hm : parse s = .ok m) :
    load t root = .ok (some m) := by
  rw [load, hfile]
  dsimp only
  rw [FileTree.readOptional_eq_some.2 hcontent]
  simp only [Except.mapError, bind, Except.bind, hm]
  rfl

theorem load_written {s : String} (h : t.write (recordPath t root) s = (t', .ok ())) {m : Manifest}
    (hm : parse s = .ok m) : load t' root = .ok (some m) := by
  obtain ⟨hfile, hcontent⟩ := file?_written h
  exact load_of_file? hfile hcontent hm

/-- A record changes no file but the manifest, whatever becomes of it. -/
theorem outside_record {i : Identity} {result : Except Failure Bool}
    (h : record t root i = (t', result)) : FileTree.Outside [t.goal (recordPath t root)] t t' := by
  rw [record] at h
  dsimp only at h
  rw [← recordPath] at h
  split at h
  · obtain ⟨rfl, -⟩ := Prod.mk.inj h
    exact .refl _ _
  · split at h
    · obtain ⟨rfl, -⟩ := Prod.mk.inj h
      exact .refl _ _
    · split at h
      all_goals
        rename_i hwrite
        obtain ⟨rfl, -⟩ := Prod.mk.inj h
        rcases FileTree.put_cases hwrite with ⟨-, houtside⟩ | ⟨-, houtside, -⟩
        · exact houtside.mono (by simp)
        · exact houtside

theorem record_of_contains {i : Identity} {m : Manifest} (h : load t root = .ok (some m))
    (hi : m.contains i = true) : record t root i = (t, .ok false) := by
  rw [record]
  dsimp only
  rw [h]
  simp [hi]

end Manifest

end Scaffold
