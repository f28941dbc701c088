import Scaffold.Proofs.FileTree.Goal
import Scaffold.Proofs.Naming

/-!
# Paths inside a folder

A path in its shortest form has no `.`, and no `..` behind a name (`Path.normalized`). A relative path
that never leads above where it starts (`descends`) stays inside whatever folder it is taken from
(`within_join`), and no other path does (`within_empty_iff`). Conventions for names do not change
which paths these are (`within_rename_iff`).
-/

namespace Scaffold

open FileTree

namespace Component

/-- One more component of a path that is brought into its shortest form: `..` takes back a name,
and stays where there is none to take back. -/
def advance (done : List Component) : Component → List Component
  | .root => [.root]
  | .current => done
  | .normal n => done ++ [.normal n]
  | .parent =>
    match done.getLast? with
    | some (.normal _) => done.dropLast
    | some .root => done
    | _ => done ++ [.parent]

/-- The component of a step that leads somewhere. -/
def ofMove (step : List Char) : Component :=
  if step = ['.', '.'] then .parent else .normal (String.ofList step)

theorem ofMove_of_isMove {c : Component} (h : Path.IsMove c) {step : List Char}
    (hstep : c.move? = some step) : ofMove step = c := by
  rcases h with rfl | ⟨n, rfl, hn⟩
  · obtain rfl := Option.some.inj hstep
    rfl
  · obtain rfl := Option.some.inj hstep
    rw [ofMove, if_neg hn.ne_parent, String.ofList_toList]

theorem map_ofMove {cs : List Component} (h : ∀ c ∈ cs, Path.IsMove c) :
    (cs.filterMap move?).map ofMove = cs := by
  induction cs with
  | nil => rfl
  | cons c cs ih =>
    obtain ⟨hc, hcs⟩ := List.forall_mem_cons.1 h
    obtain ⟨step, hstep⟩ : ∃ step, c.move? = some step := by
      rcases hc with rfl | ⟨n, rfl, -⟩
      · exact ⟨_, rfl⟩
      · exact ⟨_, rfl⟩
    rw [List.filterMap_cons_some hstep, List.map_cons, ofMove_of_isMove hc hstep, ih hcs]

end Component

namespace Path

open Component (advance ofMove)

variable {p q root : Path} {steps : List (List Char)}

/-- The components of the path in its shortest form. -/
def normalized (p : Path) : List Component := p.components.foldl advance []

/-- In its shortest form the path leads from the other one along names only. -/
def Within (q root : Path) : Prop :=
  ∃ ns : Location, q.normalized = root.normalized ++ ns.map .normal

/-- What the shortest form of a path begins with. -/
def base (p : Path) : List Component := if p.isAbsolute then [.root] else []

theorem normalized_eq (p : Path) : p.normalized = (p.moves.map ofMove).foldl advance p.base := by
  obtain ⟨base, cs, hbase, hcs, hcomponents, habsolute⟩ := p.exists_components
  have hnone : base.filterMap Component.move? = [] := by cases hbase <;> rfl
  have hstart : base.foldl advance [] = p.base := by
    rw [Path.base]
    cases hbase with
    | none => rw [if_neg (by simp [habsolute])]; rfl
    | root => rw [if_pos (habsolute.2 rfl)]; rfl
    | current => rw [if_neg (by simp [habsolute])]; rfl
  rw [normalized, moves_eq, hcomponents, List.filterMap_append, hnone, List.nil_append,
    Component.map_ofMove hcs, List.foldl_append, hstart]

theorem normalized_join (hq : q.isAbsolute = false) :
    (p.join q).normalized = (q.moves.map ofMove).foldl advance p.normalized := by
  rw [normalized_eq, normalized_eq, moves_join hq, base, base, isAbsolute_join hq, List.map_append,
    List.foldl_append]

/-! ### Steps that stay below -/

/-- The steps never lead above where they start, `depth` folders down. -/
def descends : Nat → List (List Char) → Bool
  | _, [] => true
  | depth, step :: rest =>
    if step = ['.', '.'] then depth != 0 && descends (depth - 1) rest
    else descends (depth + 1) rest

/-- Steps that never lead above where they start lead down along names. -/
theorem exists_names_of_descends {ns : Location} (h : descends ns.length steps = true)
    (hleads : ∀ step ∈ steps, leads step = true) : ∃ ms : Location,
      (∀ done, (steps.map ofMove).foldl advance (done ++ ns.map .normal) =
        done ++ ms.map .normal) ∧
      ∀ start, climb (start ++ ns) steps = start ++ ms := by
  induction steps generalizing ns with
  | nil => exact ⟨ns, fun _ => rfl, fun _ => rfl⟩
  | cons step steps ih =>
    obtain ⟨hstep, hsteps⟩ := List.forall_mem_cons.1 hleads
    rw [descends] at h
    split at h
    · rename_i hparent
      obtain ⟨hdepth, hrest⟩ := Bool.and_eq_true_iff.1 h
      obtain ⟨init, last, rfl⟩ : ∃ init last, ns = init ++ [last] := by
        rcases List.eq_nil_or_concat ns with rfl | ⟨init, last, rfl⟩
        · simp at hdepth
        · exact ⟨init, last, List.concat_eq_append⟩
      rw [List.length_append, List.length_singleton, Nat.add_sub_cancel] at hrest
      obtain ⟨ms, hdone, hstart⟩ := ih hrest hsteps
      refine ⟨ms, fun done => ?_, fun start => ?_⟩
      · have hback : advance (done ++ (init ++ [last]).map .normal) (ofMove step) =
            done ++ init.map .normal := by
          rw [ofMove, if_pos hparent, List.map_append, List.map_singleton, ← List.append_assoc,
            advance, List.getLast?_concat]
          exact List.dropLast_concat
        rw [List.map_cons, List.foldl_cons, hback, hdone]
      · have hback : move (start ++ (init ++ [last])) step = start ++ init := by
          rw [move, if_pos hparent, ← List.append_assoc, List.dropLast_concat]
        rw [← hstart, ← hback]
        rfl
    · rename_i hparent
      rw [← List.length_singleton, ← List.length_append] at h
      obtain ⟨ms, hdone, hstart⟩ := @ih (ns ++ [String.ofList step]) h hsteps
      refine ⟨ms, fun done => ?_, fun start => ?_⟩
      · rw [← hdone, List.map_cons, List.foldl_cons, ofMove, if_neg hparent, advance,
          List.map_append, List.append_assoc]
        rfl
      · rw [← hstart, ← List.append_assoc, ← names_of_leads hstep]
        exact congrArg (climb · steps) (if_neg hparent)

/-- What is no name is never taken back. -/
theorem exists_foldl_advance {b : Component} (hb : ∀ n, b ≠ .normal n) (rest : List Component)
    (steps : List (List Char)) :
    ∃ more, (steps.map ofMove).foldl advance (b :: rest) = b :: more := by
  induction steps generalizing rest with
  | nil => exact ⟨rest, rfl⟩
  | cons step steps ih =>
    obtain ⟨next, hnext⟩ : ∃ next, advance (b :: rest) (ofMove step) = b :: next := by
      rw [ofMove]
      split
      · rw [advance]
        split
        · rename_i n hlast
          cases rest with
          | nil => exact absurd (Option.some.inj hlast) (hb n)
          | cons c rest => exact ⟨_, rfl⟩
        · exact ⟨_, rfl⟩
        · exact ⟨_, rfl⟩
      · exact ⟨_, rfl⟩
    rw [List.map_cons, List.foldl_cons, hnext]
    exact ih next

/-- Steps that lead above where they start leave a `..` at the front. -/
theorem exists_parent_of_not_descends {ns : Location} (h : descends ns.length steps = false) :
    ∃ more, (steps.map ofMove).foldl advance (ns.map .normal) = .parent :: more := by
  induction steps generalizing ns with
  | nil => cases h
  | cons step steps ih =>
    rw [List.map_cons, List.foldl_cons, ofMove]
    rw [descends] at h
    split at h
    · rename_i hparent
      rw [if_pos hparent]
      rcases List.eq_nil_or_concat ns with rfl | ⟨init, last, rfl⟩
      · exact exists_foldl_advance (by simp) [] steps
      · rw [List.concat_eq_append] at h ⊢
        have hback : advance ((init ++ [last]).map .normal) .parent = init.map .normal := by
          rw [List.map_append, List.map_singleton, advance, List.getLast?_concat]
          exact List.dropLast_concat
        rw [hback]
        exact ih (by simpa using h)
    · rename_i hparent
      rw [if_neg hparent]
      have hnext : advance (ns.map .normal) (.normal (String.ofList step)) =
          (ns ++ [String.ofList step]).map .normal := by simp [advance]
      rw [hnext]
      exact ih (by simpa using h)

theorem leads_of_mem_moves {step : List Char} (h : step ∈ p.moves) : leads step = true :=
  (List.mem_filter.1 h).2

/-- **A path that never leads above where it starts stays inside** the folder it is taken from, and so
does where it leads to. -/
theorem within_join (hq : q.isAbsolute = false) (h : descends 0 q.moves = true) :
    (root.join q).Within root ∧ ∀ t : FileTree, t.goal root <+: t.goal (root.join q) := by
  have hleads : ∀ step ∈ q.moves, leads step = true := fun _ => leads_of_mem_moves
  obtain ⟨ms, hdone, hstart⟩ := @exists_names_of_descends _ [] h hleads
  refine ⟨⟨ms, ?_⟩, fun t => ?_⟩
  · rw [normalized_join hq, ← hdone root.normalized, List.map_nil, List.append_nil]
  · rw [goal_join hq, ← climb_filter]
    have hclimb := hstart (t.goal root)
    rw [List.append_nil] at hclimb
    rw [show (FileTree.steps q).filter leads = q.moves from rfl, hclimb]
    exact List.prefix_append _ _

/-- The paths inside the current folder are those that never lead above where they start. -/
theorem within_empty_iff : p.Within ⟨""⟩ ↔ p.isAbsolute = false ∧ descends 0 p.moves = true := by
  have hempty : normalized ⟨""⟩ = [] := by decide
  rw [Within, hempty, normalized_eq, base]
  simp only [List.nil_append]
  constructor
  · rintro ⟨ns, hns⟩
    have hrelative : p.isAbsolute = false := by
      refine Bool.eq_false_iff.2 fun habsolute => ?_
      obtain ⟨more, hmore⟩ := exists_foldl_advance (b := .root) (by simp) [] p.moves
      rw [if_pos habsolute, hmore] at hns
      cases ns <;> cases hns
    refine ⟨hrelative, by_contra fun hnot => ?_⟩
    obtain ⟨more, hmore⟩ := @exists_parent_of_not_descends _ [] (Bool.eq_false_iff.2 hnot)
    rw [hrelative, if_neg Bool.false_ne_true, show ([] : List Component) = List.map .normal [] from rfl,
      hmore] at hns
    cases ns <;> cases hns
  · rintro ⟨hrelative, hdescends⟩
    obtain ⟨ms, hdone, -⟩ :=
      @exists_names_of_descends _ [] hdescends fun _ => leads_of_mem_moves
    exact ⟨ms, by rw [hrelative, if_neg Bool.false_ne_true]; exact hdone []⟩

instance (p : Path) : Decidable (p.Within ⟨""⟩) := decidable_of_iff _ within_empty_iff.symm

/-- A path without `..` never leads above where it starts. -/
theorem descends_of_plain (hp : p.Plain) : descends 0 p.moves = true := by
  have hall : ∀ steps : List (List Char), (∀ step ∈ steps, step ≠ ['.', '.']) →
      ∀ depth, descends depth steps = true := by
    intro steps
    induction steps with
    | nil => exact fun _ _ => rfl
    | cons step steps ih =>
      intro h depth
      obtain ⟨hstep, hsteps⟩ := List.forall_mem_cons.1 h
      rw [descends, if_neg hstep]
      exact ih hsteps (depth + 1)
  exact hall p.moves (fun step hstep => hp step (List.mem_of_mem_filter hstep)) 0

/-! ### Conventions -/

theorem descends_name {n : String} (hn : IsName n) (depth : Nat) (steps : List (List Char)) :
    descends depth (n.toList :: steps) = descends (depth + 1) steps := by
  rw [descends, if_neg hn.ne_parent]

/-- The components in a convention are of the same kinds. -/
theorem renameComponents_moves (folder file : Convention) {cs : List Component}
    (h : ∀ c ∈ cs, IsMove c) :
    (∀ c ∈ Convention.renameComponents folder file cs, IsMove c) ∧
      ∀ depth, descends depth ((Convention.renameComponents folder file cs).filterMap
        Component.move?) = descends depth (cs.filterMap Component.move?) := by
  fun_induction Convention.renameComponents folder file cs with
  | case1 => exact ⟨by simp, fun _ => rfl⟩
  | case2 n =>
    have hn := (h _ List.mem_cons_self).isName
    have hn' := file.isName_applyToFile hn
    refine ⟨List.forall_mem_singleton.2 (.inr ⟨_, rfl, hn'⟩), fun depth => ?_⟩
    exact (descends_name hn' depth []).trans (descends_name hn depth []).symm
  | case3 n rest _ ih =>
    obtain ⟨hc, hrest⟩ := List.forall_mem_cons.1 h
    have hn := hc.isName
    have hn' := folder.isName_apply hn
    obtain ⟨hmoves, hsame⟩ := ih hrest
    refine ⟨List.forall_mem_cons.2 ⟨.inr ⟨_, rfl, hn'⟩, hmoves⟩, fun depth => ?_⟩
    exact (descends_name hn' depth _).trans
      ((hsame (depth + 1)).trans (descends_name hn depth _).symm)
  | case4 c rest _ hnot ih =>
    obtain ⟨hc, hrest⟩ := List.forall_mem_cons.1 h
    obtain ⟨hmoves, hsame⟩ := ih hrest
    obtain rfl : c = .parent := hc.resolve_right fun ⟨n, hn, _⟩ => hnot n hn
    refine ⟨List.forall_mem_cons.2 ⟨hc, hmoves⟩, fun depth => ?_⟩
    show descends depth (['.', '.'] :: _) = descends depth (['.', '.'] :: _)
    rw [descends, descends, if_pos rfl, if_pos rfl, hsame]

theorem rename_descends (folder file : Convention) (p : Path) :
    (p.rename folder file).isAbsolute = p.isAbsolute ∧
      ∀ depth, descends depth (p.rename folder file).moves = descends depth p.moves := by
  obtain ⟨base, cs, hbase, hcs, hcomponents, habsolute⟩ := p.exists_components
  obtain ⟨hmoves, hsame⟩ := renameComponents_moves folder file hcs
  have hrenamed : Convention.renameComponents folder file (base ++ cs) =
      base ++ Convention.renameComponents folder file cs := by
    cases hbase <;> rfl
  obtain ⟨hmoves', habsolute'⟩ := moves_ofComponents hbase hmoves
  have hnone : base.filterMap Component.move? = [] := by cases hbase <;> rfl
  rw [rename, hcomponents, hrenamed]
  refine ⟨Bool.eq_iff_iff.2 (habsolute'.trans habsolute.symm), fun depth => ?_⟩
  rw [hmoves', hsame, moves_eq, hcomponents, List.filterMap_append, hnone, List.nil_append]

/-- **Conventions for names do not lead outside**, and they do not lead inside either. -/
theorem within_rename_iff (folder file : Convention) :
    (p.rename folder file).Within ⟨""⟩ ↔ p.Within ⟨""⟩ := by
  obtain ⟨habsolute, hdescends⟩ := rename_descends folder file p
  rw [within_empty_iff, within_empty_iff, habsolute, hdescends]

end Path

end Scaffold
