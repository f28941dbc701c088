import Scaffold.Proofs.FileTree.Change

/-!
# Where any path leads

A path leads along its names, and one folder up at each `..`. Where it leads to if all folders on
the way are there is its goal (`goal`), and a path that leads anywhere leads to its goal
(`goal_of_locate`). Steps that lead nowhere ask for a folder only, so a way to a folder is the way
along the other steps (`locateFolder_eq_ok_iff`), and what is read at a joined path is read from
where the first path leads to (`locate_join_eq_ok`).
-/

namespace Scaffold

open FileTree

namespace FileTree

variable {t : FileTree} {start z : Location} {step : List Char} {steps rest : List (List Char)}

/-- Where a step leads to, up or down. -/
def move (place : Location) (step : List Char) : Location :=
  if step = ['.', '.'] then place.dropLast else place ++ names [step]

/-- Where steps lead to if all folders on the way are there. -/
def climb (start : Location) (steps : List (List Char)) : Location := steps.foldl move start

@[simp] theorem climb_nil (start : Location) : climb start [] = start := rfl

theorem climb_append (start : Location) (a b : List (List Char)) :
    climb start (a ++ b) = climb (climb start a) b := List.foldl_append

theorem move_of_not_leads (h : leads step = false) : move start step = start := by
  have hstep : step ≠ ['.', '.'] := by
    rintro rfl
    cases h
  rw [move, if_neg hstep, names_of_not_leads h, List.append_nil]

theorem move_name (y : Location) {n : String} (hn : IsName n) : move y n.toList = y ++ [n] := by
  rw [move, if_neg hn.ne_parent, names_of_leads (leads_of_isName hn), String.ofList_toList]

/-- Steps that lead nowhere can be left out. -/
theorem climb_filter (start : Location) (steps : List (List Char)) :
    climb start (steps.filter leads) = climb start steps := by
  induction steps generalizing start with
  | nil => rfl
  | cons step steps ih =>
    cases h : leads step with
    | true =>
      rw [List.filter_cons_of_pos h]
      exact ih _
    | false =>
      rw [List.filter_cons_of_neg (by simp [h]), ih]
      exact congrArg (climb · steps) (move_of_not_leads h).symm

/-- From a folder a step leads on. -/
theorem walk_from_folder (h : t.entry? start = some .folder) :
    t.walk start (step :: rest) = t.walk (move start step) rest := by
  rw [move]
  split
  · rename_i hstep
    conv_lhs => unfold walk
    simp [h, hstep]
  · rename_i hstep
    exact walk_of_folder h hstep

/-- A step is made from a folder only. -/
theorem walk_cons : t.walk start (step :: rest) = .ok z ↔
    t.entry? start = some .folder ∧ t.walk (move start step) rest = .ok z := by
  cases he : t.entry? start with
  | none => simp [walk_of_none he]
  | some e =>
    cases e with
    | file c => simp [walk_of_file he]
    | folder => simp [walk_from_folder he]

theorem steps_ne_nil (p : Path) : FileTree.steps p ≠ [] := by
  rw [FileTree.steps]
  cases p.text.toList with
  | nil => exact List.cons_ne_nil _ _
  | cons c s =>
    rw [Text.splitOn]
    split
    · exact List.cons_ne_nil _ _
    · split <;> exact List.cons_ne_nil _ _

theorem climb_of_walk (h : t.walk start steps = .ok z) : z = climb start steps := by
  induction steps generalizing start with
  | nil => exact (Except.ok.inj h).symm
  | cons step steps ih => exact ih (walk_cons.1 h).2

/-- On the way to a folder the steps that lead nowhere can be left out. -/
theorem walk_filter_concat_empty :
    t.walk start (steps.filter leads ++ [[]]) = .ok z ↔ t.walk start (steps ++ [[]]) = .ok z := by
  induction steps generalizing start with
  | nil => rfl
  | cons step steps ih =>
    rw [List.cons_append, walk_cons, ← ih]
    cases h : leads step with
    | true => rw [List.filter_cons_of_pos h, List.cons_append, walk_cons]
    | false =>
      rw [List.filter_cons_of_neg (by simp [h]), move_of_not_leads h, and_iff_right_of_imp]
      -- the steps that are left ask for a folder too
      intro hwalk
      cases hrest : steps.filter leads with
      | nil =>
        rw [hrest] at hwalk
        exact (walk_cons.1 hwalk).1
      | cons first more =>
        rw [hrest] at hwalk
        exact (walk_cons.1 hwalk).1

end FileTree

/-! ### Moves -/

namespace Path

/-- The steps of a path that lead somewhere. -/
def moves (p : Path) : List (List Char) := (steps p).filter leads

variable {p q : Path}

theorem moves_join (hq : q.isAbsolute = false) : (p.join q).moves = p.moves ++ q.moves := by
  obtain ⟨before, hsteps, hbefore⟩ := exists_steps_join (p := p) hq
  rw [moves, hsteps, List.filter_append]
  rcases hbefore with rfl | hbefore
  · rfl
  · rw [moves, ← hbefore, List.filter_append]
    simp [moves, leads]

end Path

/-- The step that a component is, if it leads somewhere. -/
def Component.move? : Component → Option (List Char)
  | .normal name => some name.toList
  | .parent => some ['.', '.']
  | _ => none

namespace Path

variable {p q : Path}

/-- The moves of components are the steps that lead somewhere. -/
theorem moves_componentsOf (atStart : Bool) (pieces : List (List Char)) :
    (componentsOf atStart pieces).filterMap Component.move? = pieces.filter leads := by
  induction pieces generalizing atStart with
  | nil => rfl
  | cons piece pieces ih =>
    unfold componentsOf
    split
    · exact ih false
    · split
      · exact ih false
      · exact ih false
    · rw [List.filter_cons_of_pos (by rfl)]
      exact congrArg (['.', '.'] :: ·) (ih false)
    · rename_i hnil hcurrent _
      have hleads : leads piece = true := by simpa [leads] using ⟨hnil, hcurrent⟩
      rw [List.filter_cons_of_pos hleads]
      simp [Component.move?, ih]

/-- A step up, or down to a name. -/
def IsMove (c : Component) : Prop := c = .parent ∨ ∃ n, c = .normal n ∧ IsName n

theorem IsMove.isName {n : String} (h : IsMove (.normal n)) : IsName n := by
  rcases h with hparent | ⟨m, hm, hn⟩
  · cases hparent
  · exact Component.normal.inj hm ▸ hn

theorem isMove_componentsOf {pieces : List (List Char)} (h : ∀ piece ∈ pieces, '/' ∉ piece) :
    ∀ c ∈ componentsOf false pieces, IsMove c := by
  induction pieces with
  | nil => simp [componentsOf]
  | cons piece pieces ih =>
    obtain ⟨hpiece, hpieces⟩ := List.forall_mem_cons.1 h
    have ih := ih hpieces
    unfold componentsOf
    split
    · exact ih
    · exact ih
    · exact List.forall_mem_cons.2 ⟨.inl rfl, ih⟩
    · rename_i hnil hcurrent hparent
      refine List.forall_mem_cons.2 ⟨.inr ⟨_, rfl, ?_⟩, ih⟩
      refine ⟨?_, ?_, ?_, ?_⟩ <;> rw [String.toList_ofList]
      · exact hnil
      · exact hcurrent
      · exact hparent
      · exact hpiece

/-- The path that is put together from components makes their moves. -/
theorem moves_ofComponents {base cs : List Component} (hb : Base base) (hcs : ∀ c ∈ cs, IsMove c) :
    (ofComponents (base ++ cs)).moves = cs.filterMap Component.move? ∧
      ((ofComponents (base ++ cs)).isAbsolute = true ↔ base = [.root]) := by
  induction cs using List.reverseRecOn with
  | nil => cases hb <;> decide
  | append_singleton cs c ih =>
    obtain ⟨hinit, hlast⟩ := List.forall_mem_append.1 hcs
    obtain ⟨hmoves, habsolute⟩ := ih hinit
    have hc : isAbsolute ⟨c.text⟩ = false ∧ moves ⟨c.text⟩ = [c].filterMap Component.move? := by
      rcases hlast c List.mem_cons_self with rfl | ⟨n, rfl, hn⟩
      · decide
      · refine ⟨isAbsolute_of_isName hn, ?_⟩
        have hsteps : steps ⟨(Component.normal n).text⟩ = [n.toList] := steps_of_isName hn
        simp [moves, hsteps, leads_of_isName hn, Component.move?]
    rw [← List.append_assoc, ofComponents_append, moves_join hc.1, isAbsolute_join hc.1, hmoves,
      hc.2, List.filterMap_append]
    exact ⟨rfl, habsolute⟩

/-- The components of any path are moves, behind the root or the current folder. -/
theorem exists_components (p : Path) :
    ∃ base cs, Base base ∧ (∀ c ∈ cs, IsMove c) ∧ p.components = base ++ cs ∧
      (p.isAbsolute = true ↔ base = [.root]) := by
  have hslash : ∀ piece ∈ steps p, '/' ∉ piece := fun _ => Text.not_mem_of_mem_splitOn
  rw [components_eq]
  cases habsolute : p.isAbsolute with
  | true => exact ⟨[.root], _, .root, isMove_componentsOf hslash, rfl, by simp⟩
  | false =>
    cases hsteps : steps p with
    | nil => exact ⟨[], [], .none, by simp, rfl, by simp⟩
    | cons step rest =>
      rw [hsteps] at hslash
      by_cases hstep : step = ['.']
      · subst hstep
        exact ⟨[.current], _, .current, isMove_componentsOf (List.forall_mem_cons.1 hslash).2, rfl,
          by simp⟩
      · exact ⟨[], _, .none, isMove_componentsOf hslash, componentsOf_true hstep rest, by simp⟩

theorem isName_of_mem_components {p : Path} {n : String} (h : .normal n ∈ p.components) :
    IsName n := by
  obtain ⟨base, cs, hbase, hcs, hcomponents, -⟩ := p.exists_components
  rw [hcomponents] at h
  rcases List.mem_append.1 h with hmem | hmem
  · cases hbase <;> simp at hmem
  · exact (hcs _ hmem).isName

theorem moves_eq (p : Path) : p.moves = p.components.filterMap Component.move? := by
  rw [components_eq, List.filterMap_append, moves_componentsOf]
  cases p.isAbsolute <;> rfl

/-- The folder around a path that ends with a name is reached by all moves but the last. -/
theorem exists_parent {init : List (List Char)} {n : String} (hn : IsName n)
    (h : steps p = init ++ [n.toList]) :
    p.fileName? = some n ∧ ∃ q, p.parent? = some q ∧ q.moves = init.filter leads ∧
      q.isAbsolute = p.isAbsolute := by
  obtain ⟨base, cs, hbase, hcs, hcomponents, habsolute⟩ := p.exists_components
  have hlast : p.components.getLast? = some (.normal n) := by
    rw [components_eq, h, componentsOf_append_name hn, ← List.append_assoc, List.getLast?_concat]
  obtain ⟨cs, rfl⟩ : ∃ before, cs = before ++ [.normal n] := by
    rcases List.eq_nil_or_concat cs with rfl | ⟨before, last, rfl⟩
    · rw [hcomponents, List.append_nil] at hlast
      cases hbase <;> cases hlast
    · rw [hcomponents, List.concat_eq_append, ← List.append_assoc, List.getLast?_concat] at hlast
      exact ⟨before, by rw [List.concat_eq_append, Option.some.inj hlast]⟩
  have hparent : p.parent? = some (ofComponents (base ++ cs)) := by
    rw [parent?, hlast, hcomponents, ← List.append_assoc, List.dropLast_concat]
  obtain ⟨hmoves, habsolute'⟩ := moves_ofComponents hbase (List.forall_mem_append.1 hcs).1
  refine ⟨by rw [fileName?, hlast], _, hparent, ?_,
    Bool.eq_iff_iff.2 (habsolute'.trans habsolute.symm)⟩
  -- the base makes no moves, and the name makes the last one
  have hall := p.moves_eq
  have hnone : base.filterMap Component.move? = [] := by cases hbase <;> rfl
  rw [moves, h, List.filter_append, hcomponents, List.filterMap_append, hnone, List.nil_append,
    List.filterMap_append] at hall
  have hname : [n.toList].filter leads = [Component.normal n].filterMap Component.move? := by
    simp [leads_of_isName hn, Component.move?]
  rw [hname] at hall
  rw [hmoves, List.append_cancel_right hall]

end Path

/-! ### Goals -/

namespace FileTree

variable {t : FileTree} {p q : Path} {z y : Location}

/-- Where a path leads to if all folders on the way are there. -/
def goal (t : FileTree) (p : Path) : Location := climb (t.origin p) (steps p)

theorem goal_eq_climb_moves (t : FileTree) (p : Path) : t.goal p = climb (t.origin p) p.moves :=
  (climb_filter _ _).symm

theorem Changed.goal {places : List Location} {t' : FileTree} (h : Changed places t t') (p : Path) :
    t'.goal p = t.goal p := by
  rw [FileTree.goal, FileTree.goal, h.origin]

theorem goal_of_locate (h : t.locate p = .ok z) : z = t.goal p := by
  rw [locate_eq_walk (isEmpty_of_locate h)] at h
  exact climb_of_walk h

theorem goal_join (hq : q.isAbsolute = false) : t.goal (p.join q) = climb (t.goal p) (steps q) := by
  rw [goal_eq_climb_moves, goal_eq_climb_moves, Path.moves_join hq, climb_append, origin, origin,
    Path.isAbsolute_join hq]
  exact climb_filter _ _

theorem climb_of_plain {steps : List (List Char)} (h : ∀ step ∈ steps, step ≠ ['.', '.'])
    (start : Location) : climb start steps = start ++ names steps := by
  induction steps generalizing start with
  | nil => simp
  | cons step steps ih =>
    obtain ⟨hstep, hsteps⟩ := List.forall_mem_cons.1 h
    rw [names_cons step steps, ← List.append_assoc, ← ih hsteps]
    exact congrArg (climb · steps) (if_neg hstep)

/-- The way to a folder is the way along the moves. -/
theorem locateFolder_eq_ok_iff : t.locateFolder p = .ok z ↔
    t.walk (t.origin p) (p.moves ++ [[]]) = .ok z := walk_filter_concat_empty.symm

theorem goal_of_locateFolder (h : t.locateFolder p = .ok z) :
    z = t.goal p ∧ t.entry? z = some .folder := by
  rw [locateFolder, walk_concat_empty] at h
  exact ⟨climb_of_walk h.1, h.2⟩

/-- **A joined path is followed from the folder that the first path leads to.** -/
theorem locate_join_eq_ok (hq : q.isAbsolute = false) (hne : q.text.isEmpty = false) :
    t.locate (p.join q) = .ok y ↔
      ∃ z, t.locateFolder p = .ok z ∧ t.walk z (steps q) = .ok y := by
  obtain ⟨before, hsteps, hbefore⟩ := Path.exists_steps_join (p := p) hq
  have hfolder : ∀ z, t.locateFolder p = .ok z ↔ t.walk (t.origin p) (before ++ [[]]) = .ok z := by
    intro z
    rw [locateFolder]
    rcases hbefore with rfl | hbefore
    · rfl
    · rw [← hbefore, walk_concat_empty, walk_concat_empty, and_assoc, and_self]
  rw [locate_eq_walk (Path.isEmpty_join (.inr hne)), hsteps, walk_append, origin,
    Path.isAbsolute_join hq, Outcome.bind_eq_ok]
  refine exists_congr fun z => ?_
  rw [hfolder, walk_concat_empty, and_assoc]
  refine and_congr_right fun _ => (and_iff_right_of_imp fun h => ?_).symm
  -- the second path has a first step, which is made from a folder
  cases hs : steps q with
  | nil => exact absurd hs (steps_ne_nil q)
  | cons step rest =>
    rw [hs] at h
    exact (walk_cons.1 h).1

end FileTree

end Scaffold
