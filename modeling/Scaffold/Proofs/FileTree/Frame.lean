import Scaffold.Proofs.FileTree.Goal
import Scaffold.Proofs.FileTree.Write

/-!
# What writing leaves alone

A write leaves every file but the one that it writes, and every folder (`Outside`), wherever its
path leads: through `..` too, and in any tree. The file that is written stands at the goal of the
path, and the path finds it there (`put_cases`).
-/

namespace Scaffold.FileTree

/-- What the file at a place holds. -/
def contentAt? (t : FileTree) (z : Location) : Option Content :=
  match t.entry? z with
  | some (.file c) => some c
  | _ => none

section
variable {t : FileTree} {p : Path} {z : Location} {c : Content}

theorem contentAt?_eq_some : t.contentAt? z = some c ↔ t.entry? z = some (.file c) := by
  rw [contentAt?]
  split <;> simp_all

/-- A path that leads anywhere finds what stands at its goal. -/
theorem content?_of_locate (h : t.locate p = .ok z) : t.content? p = t.contentAt? (t.goal p) := by
  rw [content?, find, h, contentAt?, ← goal_of_locate h]
  simp only [bind, Except.bind]
  cases t.entry? z with
  | none => rfl
  | some e => cases e <;> rfl

theorem exists_locate_of_content? (h : t.content? p = some c) : ∃ z, t.locate p = .ok z := by
  obtain ⟨z, hz, -⟩ := Outcome.bind_eq_ok.1 (content?_eq_some.1 h)
  exact ⟨z, hz⟩

/-- A file that a path finds stands at the goal of the path. -/
theorem contentAt?_of_content? (h : t.content? p = some c) : t.contentAt? (t.goal p) = some c := by
  obtain ⟨z, hz⟩ := exists_locate_of_content? h
  rw [← content?_of_locate hz, h]

/-- Below a folder that a path leads to, a single name finds what stands at its goal. -/
theorem content?_join_name {root : Path} {n : String} (hroot : t.locateFolder root = .ok z)
    (hn : IsName n) : t.content? (root.join ⟨n⟩) = t.contentAt? (t.goal (root.join ⟨n⟩)) := by
  have hsteps : steps ⟨n⟩ = [] ++ [n.toList] := Path.steps_of_isName hn
  have hne := isEmpty_of_steps hn hsteps
  have hwalk : t.walk z (steps ⟨n⟩) = .ok (z ++ names [n.toList]) := by
    rw [Path.steps_of_isName hn]
    exact walk_of_folder (goal_of_locateFolder hroot).2 hn.ne_parent
  have hrelative := Path.isAbsolute_of_isName hn
  exact content?_of_locate ((locate_join_eq_ok hrelative hne).2 ⟨z, hroot, hwalk⟩)

end

/-! ### Frames -/

/-- All folders stay, and all files but those at some places. -/
structure Outside (places : List Location) (t t' : FileTree) : Prop where
  here : t'.here = t.here
  folder : ∀ q, t.entry? q = some .folder → t'.entry? q = some .folder
  content : ∀ q, q ∉ places → t'.contentAt? q = t.contentAt? q

namespace Outside

variable {places more : List Location} {t t' t'' : FileTree} {p : Path} {z : Location} {c : Content}

theorem refl (places : List Location) (t : FileTree) : Outside places t t :=
  ⟨rfl, fun _ h => h, fun _ _ => rfl⟩

theorem trans (h : Outside places t t') (h' : Outside places t' t'') : Outside places t t'' :=
  ⟨h'.here.trans h.here, fun q hq => h'.folder q (h.folder q hq),
    fun q hq => (h'.content q hq).trans (h.content q hq)⟩

theorem mono (h : Outside places t t') (hp : ∀ w ∈ places, w ∈ more) : Outside more t t' :=
  ⟨h.here, h.folder, fun q hq => h.content q fun hmem => hq (hp q hmem)⟩

theorem origin (h : Outside places t t') (p : Path) : t'.origin p = t.origin p := by
  rw [FileTree.origin, FileTree.origin, h.here]

theorem goal (h : Outside places t t') (p : Path) : t'.goal p = t.goal p := by
  rw [FileTree.goal, FileTree.goal, h.origin]

theorem locate_eq_ok (h : Outside places t t') (hp : t.locate p = .ok z) :
    t'.locate p = .ok z := by
  have hne := isEmpty_of_locate hp
  rw [locate_eq_walk hne] at hp ⊢
  rw [h.origin]
  exact walk_of_folders h.folder hp

theorem locateFolder_eq_ok (h : Outside places t t') (hp : t.locateFolder p = .ok z) :
    t'.locateFolder p = .ok z := by
  rw [locateFolder] at hp ⊢
  rw [h.origin]
  exact walk_of_folders h.folder hp

/-- A path that found a file finds what stands at its goal now. -/
theorem content?_eq (h : Outside places t t') (hp : t.content? p = some c) :
    t'.content? p = t'.contentAt? (t.goal p) := by
  obtain ⟨z, hz⟩ := exists_locate_of_content? hp
  rw [content?_of_locate (h.locate_eq_ok hz), h.goal]

/-- A path that found what stands at its goal finds it still, if that is not one of the places. -/
theorem content?_of_not_mem (h : Outside places t t') (hp : t.content? p = t.contentAt? (t.goal p))
    (hplace : t.goal p ∉ places) : t'.content? p = t.content? p := by
  have hcontent := h.content _ hplace
  cases hc : t.content? p with
  | some c => rw [h.content?_eq hc, hcontent, ← hp, hc]
  | none =>
    -- a file that is found now was there before
    refine Option.eq_none_iff_forall_ne_some.2 fun c hfound => ?_
    have hgoal := contentAt?_of_content? hfound
    rw [h.goal, hcontent, ← hp, hc] at hgoal
    cases hgoal

/-- A folder is made where there was nothing. -/
theorem set_folder (hne : z ≠ []) (hnone : t.entry? z = none) :
    Outside places t (t.set z .folder) := by
  refine ⟨rfl, fun q hq => entry?_set_of_folder hne (by simp [hnone]) hq, fun q _ => ?_⟩
  rw [contentAt?, contentAt?, entry?_set hne]
  by_cases hq : q = z
  · rw [if_pos hq, hq, hnone]
  · rw [if_neg hq]

/-- A file is set where there is no folder. -/
theorem set_file (hne : z ≠ []) (hnot : t.entry? z ≠ some .folder) (c : Content) :
    Outside [z] t (t.set z (.file c)) := by
  refine ⟨rfl, fun q hq => entry?_set_of_folder hne hnot hq, fun q hq => ?_⟩
  rw [contentAt?, contentAt?, entry?_set hne, if_neg (by simpa using hq)]

end Outside

/-! ### Folders -/

section
variable {places : List Location} {t t' : FileTree} {p : Path} {z : Location}

theorem outside_makeFolder (h : t.makeFolder p = .ok t') : Outside places t t' := by
  rw [makeFolder] at h
  split at h
  · cases h
  · obtain ⟨outer, -, h⟩ := Outcome.bind_eq_ok.1 h
    split at h
    · dsimp only at h
      split at h
      · cases h
      · rename_i hnone
        obtain rfl := Except.ok.inj h
        exact .set_folder (by simp) (by simpa using hnone)
    · cases h

/-- What is kept where a folder is made is kept where folders are made one after the other. -/
theorem makeFoldersFrom_preserves {P : FileTree → Prop}
    (hstep : ∀ {t t' : FileTree} {p : Path}, P t → t.makeFolder p = .ok t' → P t')
    (cs : List Component) (h : P t) : P (t.makeFoldersFrom cs).1 := by
  induction cs generalizing t with
  | nil => exact h
  | cons c outer ih =>
    rw [makeFoldersFrom]
    split
    · rename_i hmade
      exact hstep h hmade
    · have houter := ih h
      cases hmake : t.makeFoldersFrom outer with
      | mk t₁ result =>
        rw [hmake] at houter
        cases result with
        | error e => exact houter
        | ok _ =>
          dsimp only
          split
          · rename_i hmade
            exact hstep houter hmade
          · exact houter
    · exact h

theorem outside_makeFolders (p : Path) : Outside places t (t.makeFolders p).1 :=
  makeFoldersFrom_preserves (P := Outside places t)
    (fun h hmade => h.trans (outside_makeFolder hmade)) _ (.refl _ _)

/-- Folders that are made lie in folders. -/
theorem wellFormed_makeFolders (ht : t.WellFormed) (p : Path) : (t.makeFolders p).1.WellFormed := by
  refine makeFoldersFrom_preserves (P := WellFormed) (fun {t t' p} ht hmade => ?_) _ ht
  rw [makeFolder] at hmade
  split at hmade
  · cases hmade
  · rename_i last hlast
    obtain ⟨outer, houter, hmade⟩ := Outcome.bind_eq_ok.1 hmade
    split at hmade
    · rename_i name _
      dsimp only at hmade
      split at hmade
      · cases hmade
      · rename_i hnone
        obtain rfl := Except.ok.inj hmade
        obtain ⟨base, cs, hbase, hcs, hcomponents, -⟩ := p.exists_components
        have hname : IsName name := by
          have hmem := List.mem_of_getLast? hlast
          rw [hcomponents] at hmem
          rcases List.mem_append.1 hmem with hmem | hmem
          · cases hbase <;> simp at hmem
          · rcases hcs _ hmem with h | ⟨n, h, hn⟩
            · cases h
            · exact Component.normal.inj h ▸ hn
        have hfree : t.entry? (outer ++ [name]) ≠ some .folder := by
          rw [Option.not_isSome_iff_eq_none.1 hnone]
          simp
        exact ht.set hname (goal_of_locateFolder houter).2 hfree
    · cases hmade

/-! ### Files -/

/-- The last step of a path, where the last step that is not empty counts. -/
theorem exists_steps_concat {name : List Char}
    (h : ((steps p).filter (!·.isEmpty)).getLast? = some name)
    (hlast : ((steps p).getLast? == some []) = false) : ∃ init, steps p = init ++ [name] := by
  rcases List.eq_nil_or_concat (steps p) with hnil | ⟨init, last, hsteps⟩
  · rw [hnil] at h
    cases h
  · rw [List.concat_eq_append] at hsteps
    rw [hsteps, List.getLast?_concat] at hlast
    have hne : last ≠ [] := by simpa using hlast
    have hkeep : (!last.isEmpty) = true := by simpa using hne
    rw [hsteps, List.filter_append, List.filter_singleton, hkeep, cond_true,
      List.getLast?_concat] at h
    exact ⟨init, Option.some.inj h ▸ hsteps⟩

/-- A file goes to the goal of a path, which ends with a name, in a folder that is there. -/
theorem exists_of_placeFor (h : t.placeFor p = .ok z) :
    ∃ init n outer, steps p = init ++ [n.toList] ∧ IsName n ∧ t.walk (t.origin p) init = .ok outer ∧
      t.entry? outer = some .folder ∧ z = outer ++ [n] ∧ t.entry? z ≠ some .folder := by
  rw [placeFor] at h
  obtain ⟨outer, houter, h⟩ := Outcome.bind_eq_ok.1 h
  split at h
  · cases h
  · split at h
    · cases h
    · cases h
    · cases h
    · rename_i name hcurrent hparent hname
      dsimp only at h
      split at h
      · cases h
      · rename_i hlast
        obtain ⟨init, hsteps⟩ := exists_steps_concat hname (Bool.eq_false_iff.2 hlast)
        have hslash : '/' ∉ name :=
          Text.not_mem_of_mem_splitOn (hsteps ▸ List.mem_append_right _ List.mem_cons_self)
        have hn : IsName (String.ofList name) := by
          refine ⟨?_, ?_, ?_, ?_⟩ <;> rw [String.toList_ofList]
          · simpa using (List.mem_filter.1 (List.mem_of_getLast? hname)).2
          · exact fun heq => hcurrent (heq ▸ rfl)
          · exact fun heq => hparent (heq ▸ rfl)
          · exact hslash
        rw [← String.toList_ofList (l := name)] at hsteps
        obtain ⟨hfile, q, hq, hmoves, habsolute⟩ := Path.exists_parent hn hsteps
        rw [hfile, hq, Option.isSome_some, if_pos rfl, Option.getD_some, locateFolder_eq_ok_iff,
          hmoves, origin, habsolute, walk_filter_concat_empty, walk_concat_empty] at houter
        refine ⟨init, _, outer, hsteps, hn, houter.1, houter.2, ?_⟩
        split at h
        · cases h
        · rename_i hnot
          exact ⟨(Except.ok.inj h).symm, Except.ok.inj h ▸ hnot⟩

/-- What putting a file in its place takes, and what it makes of the tree. -/
theorem exists_of_putInPlace {c : Content} (h : t.putInPlace p c = (t', .ok ())) :
    ∃ init n outer, steps p = init ++ [n.toList] ∧ IsName n ∧ t.walk (t.origin p) init = .ok outer ∧
      t.entry? outer = some .folder ∧ t.goal p = outer ++ [n] ∧
      t.entry? (outer ++ [n]) ≠ some .folder ∧ t' = t.set (outer ++ [n]) (.file c) := by
  unfold putInPlace at h
  split at h
  · rename_i z hplace
    obtain ⟨init, n, outer, hsteps, hn, hwalk, hfolder, rfl, hfree⟩ := exists_of_placeFor hplace
    obtain ⟨rfl, -⟩ := Prod.mk.inj h
    refine ⟨init, n, outer, hsteps, hn, hwalk, hfolder, ?_, hfree, rfl⟩
    rw [goal, hsteps, climb_append, ← climb_of_walk hwalk]
    exact move_name outer hn
  · cases h

/-- A file that is put in its place is found there, and no other file changes. If it cannot be put
there then nothing changes. -/
theorem putInPlace_cases {c : Content} {result : Except FileFault Unit}
    (h : t.putInPlace p c = (t', result)) :
    (∃ e, result = .error e) ∧ t' = t ∨
      result = .ok () ∧ Outside [t.goal p] t t' ∧ t'.content? p = some c := by
  cases result with
  | error e =>
    unfold putInPlace at h
    split at h
    · cases h
    · exact .inl ⟨⟨e, rfl⟩, (Prod.mk.inj h).1.symm⟩
  | ok _ =>
    obtain ⟨init, n, outer, hsteps, hn, hwalk, hfolder, hgoal, hfree, rfl⟩ :=
      exists_of_putInPlace h
    have hne : outer ++ [n] ≠ [] := by simp
    have hlocate : t.locate p = .ok (outer ++ [n]) := by
      rw [locate_eq_walk (isEmpty_of_steps hn hsteps), hsteps, walk_append, hwalk]
      exact (walk_from_folder hfolder).trans (congrArg Except.ok (move_name outer hn))
    have hset : Outside [outer ++ [n]] t (t.set (outer ++ [n]) (.file c)) := .set_file hne hfree c
    have hentry := entry?_set (t := t) (e := .file c) (q := outer ++ [n]) hne
    rw [if_pos rfl] at hentry
    refine .inr ⟨rfl, hgoal ▸ hset, ?_⟩
    rw [content?_of_locate (hset.locate_eq_ok hlocate), hset.goal, hgoal,
      contentAt?_eq_some.2 hentry]

theorem outside_makeWay (p : Path) : Outside places t (t.makeWay p).1 := outside_makeFolders _

/-- **A file that is written holds what was written**, and no other file changes. If it cannot be
written then no file changes. -/
theorem put_cases {c : Content} {result : Except FileFault Unit} (h : t.put p c = (t', result)) :
    (∃ e, result = .error e) ∧ Outside [] t t' ∨
      result = .ok () ∧ Outside [t.goal p] t t' ∧ t'.content? p = some c := by
  have hmade : ∀ places, Outside places t (t.makeWay p).1 := fun _ => outside_makeWay p
  unfold put at h
  generalize t.makeWay p = made at h hmade
  obtain ⟨t₁, made⟩ := made
  cases made with
  | error e =>
    obtain ⟨rfl, rfl⟩ := Prod.mk.inj h
    exact .inl ⟨⟨e, rfl⟩, hmade _⟩
  | ok _ =>
    dsimp only at h hmade
    rcases putInPlace_cases h with ⟨hfailed, rfl⟩ | ⟨hok, houtside, hcontent⟩
    · exact .inl ⟨hfailed, hmade _⟩
    · rw [(hmade []).goal] at houtside
      exact .inr ⟨hok, (hmade _).trans houtside, hcontent⟩

end

end Scaffold.FileTree
