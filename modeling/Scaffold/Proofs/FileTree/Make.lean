import Scaffold.Proofs.FileTree.Frame

/-!
# When a file can be written

A write makes the folders around its file from the last to the first, as far as they are missing.
This succeeds unless a file stands on the way. So a file can be written at a path if and only if the
path ends with a name, no file stands on the way to its goal, and no folder stands there (`Open`):
a path that is open can be written (`put_of_open`), and one that was written was open
(`open_of_put`). What is changed by it is the goal and the way to it.

This is said of paths that lead back by `..` only where they are in folders that are there (`Firm`).
A path that leads back out of a folder that is missing finds nothing as long as the folder is
missing, but a write makes that folder and may then find a file that was not read.
-/

namespace Scaffold

open FileTree

namespace Path

variable {p : Path}

/-! ### Paths that are put together -/

theorem componentsOf_append_leads {piece : List Char} {c : Component} (h : leads piece = true)
    (hc : componentsOf false [piece] = [c]) (atStart : Bool) (pieces : List (List Char)) :
    componentsOf atStart (pieces ++ [piece]) = componentsOf atStart pieces ++ [c] := by
  induction pieces generalizing atStart with
  | nil =>
    have hpiece : piece ≠ ['.'] := by
      rintro rfl
      cases h
    cases atStart with
    | false => exact hc
    | true => exact (componentsOf_true hpiece []).trans hc
  | cons first pieces ih =>
    rw [List.cons_append]
    unfold componentsOf
    split
    · exact ih false
    · split
      · rw [ih, List.cons_append]
      · exact ih false
    · rw [ih, List.cons_append]
    · rw [ih, List.cons_append]

/-- A move is one step, which leads somewhere. -/
theorem IsMove.steps {c : Component} (h : IsMove c) :
    isAbsolute ⟨c.text⟩ = false ∧ FileTree.steps ⟨c.text⟩ = [c.text.toList] ∧
      leads c.text.toList = true ∧ componentsOf false [c.text.toList] = [c] := by
  rcases h with rfl | ⟨n, rfl, hn⟩
  · decide
  · exact ⟨isAbsolute_of_isName hn, steps_of_isName hn, leads_of_isName hn,
      componentsOf_name hn false []⟩

/-- A move that is joined to a path is one more component. -/
theorem components_join_move {c : Component} (h : IsMove c) :
    (p.join ⟨c.text⟩).components = p.components ++ [c] := by
  obtain ⟨hrelative, hstep, hleads, hcomponent⟩ := h.steps
  obtain ⟨before, hsteps, hbefore⟩ := exists_steps_join (p := p) hrelative
  rw [components_eq, components_eq, isAbsolute_join hrelative, hsteps, hstep,
    componentsOf_append_leads hleads hcomponent, List.append_assoc]
  rcases hbefore with rfl | hbefore
  · rfl
  · rw [← hbefore, componentsOf_append_empty]

variable {base cs : List Component}

/-- The path that is put together from moves has these components. -/
theorem components_ofMoves (hb : Base base) (hcs : ∀ c ∈ cs, IsMove c) :
    (ofComponents (base ++ cs)).components = base ++ cs := by
  induction cs using List.reverseRecOn with
  | nil => cases hb <;> decide
  | append_singleton cs c ih =>
    obtain ⟨hcs, hc⟩ := List.forall_mem_append.1 hcs
    rw [← List.append_assoc, ofComponents_append, components_join_move (hc c List.mem_cons_self),
      ih hcs]

theorem isEmpty_of_components (h : p.components ≠ []) : p.text.isEmpty = false := by
  rw [Bool.eq_false_iff, Ne, String.isEmpty_iff]
  intro hempty
  refine h ?_
  rw [components, isAbsolute, hempty]
  rfl

theorem parent?_ofMoves (hb : Base base) {c : Component} (hcs : ∀ c' ∈ cs ++ [c], IsMove c') :
    (ofComponents (base ++ (cs ++ [c]))).parent? = some (ofComponents (base ++ cs)) := by
  have hcomponents := components_ofMoves hb hcs
  rw [← List.append_assoc] at hcomponents ⊢
  rw [parent?, hcomponents, List.getLast?_concat, List.dropLast_concat]
  rcases hcs c (List.mem_append_right _ List.mem_cons_self) with rfl | ⟨n, rfl, -⟩ <;> rfl

end Path

namespace FileTree

variable {t t' : FileTree} {p : Path} {start z : Location}

/-! ### Ways -/

/-- A way ends where it finds nothing, or at a file that stands on it. -/
theorem walk_eq_error {steps : List (List Char)} {e : FileFault}
    (h : t.walk start steps = .error e) : e = .notFound ∨
      ∃ before after c, steps = before ++ after ∧
        t.entry? (climb start before) = some (.file c) := by
  induction steps generalizing start with
  | nil => cases h
  | cons step steps ih =>
    cases he : t.entry? start with
    | none =>
      rw [walk_of_none he] at h
      exact .inl (Except.error.inj h).symm
    | some entry =>
      cases entry with
      | file c => exact .inr ⟨[], step :: steps, c, rfl, he⟩
      | folder =>
        rw [walk_from_folder he] at h
        rcases ih h with hnone | ⟨before, after, c, rfl, hc⟩
        · exact .inl hnone
        · exact .inr ⟨step :: before, after, c, rfl, hc⟩

/-- The way to a folder leads through folders. -/
theorem entry?_of_prefix_walk {steps before : List (List Char)}
    (h : t.walk start (steps ++ [[]]) = .ok z) (hb : before <+: steps) :
    t.entry? (climb start before) = some .folder := by
  obtain ⟨after, rfl⟩ := hb
  rw [List.append_assoc, walk_append, Outcome.bind_eq_ok] at h
  obtain ⟨y, hy, hz⟩ := h
  rw [← climb_of_walk hy]
  cases after with
  | nil => exact (walk_cons.1 hz).1
  | cons step after => exact (walk_cons.1 hz).1

theorem isFolder_of_locateFolder (hne : p.text.isEmpty = false) (h : t.locateFolder p = .ok z) :
    t.isFolder p = true := by
  rw [locateFolder, walk_concat_empty] at h
  rw [isFolder, find, locate_eq_walk hne, h.1]
  simp only [bind, Except.bind, h.2]

/-- A plain way to a folder that is there leads through folders. -/
theorem walk_names_from_folder (ht : t.WellFormed) {steps : List (List Char)}
    (hs : ∀ step ∈ steps, step ≠ ['.', '.'])
    (h : t.entry? (start ++ names steps) = some .folder) :
    t.walk start steps = .ok (start ++ names steps) := by
  refine walk_of_visited hs fun v hv => ?_
  by_cases heq : v = start ++ names steps
  · rw [heq, h]
  · exact ht.folder (by rw [h]; rfl) (of_mem_visited v hv).2 heq

/-! ### Making folders -/

section
variable {base cs : List Component} {ns : Location} {n : String}

theorem origin_ofMoves (hb : Path.Base base) (hcs : ∀ c ∈ cs, Path.IsMove c) :
    t.origin (Path.ofComponents (base ++ cs)) = t.origin (Path.ofComponents base) := by
  obtain ⟨-, habsolute⟩ := Path.moves_ofComponents hb hcs
  obtain ⟨-, habsolute'⟩ := Path.moves_ofComponents hb (List.forall_mem_nil Path.IsMove)
  rw [List.append_nil] at habsolute'
  rw [origin, origin, Bool.eq_iff_iff.2 (habsolute.trans habsolute'.symm)]

/-- Where a path leads to that is put together from moves. -/
theorem locateFolder_ofMoves (hb : Path.Base base) (hcs : ∀ c ∈ cs, Path.IsMove c) :
    t.locateFolder (Path.ofComponents (base ++ cs)) = .ok z ↔
      t.walk (t.origin (Path.ofComponents base)) (cs.filterMap Component.move? ++ [[]]) =
        .ok z := by
  rw [locateFolder_eq_ok_iff, (Path.moves_ofComponents hb hcs).1, origin_ofMoves hb hcs]

/-- The folder around a folder that is there. -/
theorem exists_outer (hb : Path.Base base) {c : Component} (hcs : ∀ c' ∈ cs ++ [c], Path.IsMove c')
    (h : t.locateFolder (Path.ofComponents (base ++ (cs ++ [c]))) = .ok z) :
    ∃ y m, t.locateFolder (Path.ofComponents (base ++ cs)) = .ok y ∧ c.move? = some m ∧
      z = move y m ∧ t.entry? z = some .folder := by
  have hmove : ∃ m, c.move? = some m := by
    rcases hcs c (List.mem_append_right _ List.mem_cons_self) with rfl | ⟨n, rfl, -⟩
    · exact ⟨_, rfl⟩
    · exact ⟨_, rfl⟩
  obtain ⟨m, hm⟩ := hmove
  have hsingle : [c].filterMap Component.move? = [m] := by simp [hm]
  rw [locateFolder_ofMoves hb hcs, List.filterMap_append, hsingle, List.append_assoc, walk_append,
    Outcome.bind_eq_ok] at h
  obtain ⟨y, hy, hz⟩ := h
  obtain ⟨hfolder, hz⟩ := walk_cons.1 hz
  obtain ⟨hfolder', hz⟩ := walk_cons.1 hz
  obtain rfl := Except.ok.inj hz
  have hcs' : ∀ c' ∈ cs, Path.IsMove c' := fun c' hc' => hcs c' (List.mem_append_left _ hc')
  refine ⟨y, m, (locateFolder_ofMoves hb hcs').2 (walk_concat_empty.2 ⟨hy, hfolder⟩), hm, ?_, ?_⟩
  · exact (move_of_not_leads rfl)
  · rwa [move_of_not_leads rfl]

theorem not_concat_prefix (z : Location) (n : String) : ¬ z ++ [n] <+: z := by
  intro h
  have hlength := h.length_le
  rw [List.length_append, List.length_singleton] at hlength
  omega

/-- A folder that is there is not made. -/
theorem makeFolder_of_exists (hb : Path.Base base) (hcs : ∀ c ∈ cs, Path.IsMove c)
    (hne : base ++ cs ≠ []) (h : t.locateFolder (Path.ofComponents (base ++ cs)) = .ok z) :
    t.makeFolder (Path.ofComponents (base ++ cs)) = .error .exists := by
  have hcomponents := Path.components_ofMoves hb hcs
  rcases List.eq_nil_or_concat cs with rfl | ⟨before, c, rfl⟩
  · cases hb with
    | none => exact absurd rfl hne
    | root =>
      have hparent : (Path.ofComponents ([.root] ++ [])).parent? = none := by decide
      rw [makeFolder, hcomponents, hparent, Option.getD_none, h]
      rfl
    | current =>
      have hparent : (Path.ofComponents ([.current] ++ [])).parent? =
          some (Path.ofComponents ([] ++ [])) := by decide
      have houter : t.locateFolder (Path.ofComponents ([] ++ [])) = .ok z :=
        (locateFolder_ofMoves .none (by simp)).2 ((locateFolder_ofMoves .current (by simp)).1 h)
      rw [makeFolder, hcomponents, hparent, Option.getD_some, houter]
      rfl
  · rw [List.concat_eq_append] at hcs h hcomponents ⊢
    obtain ⟨y, m, houter, hm, rfl, hfolder⟩ := exists_outer hb hcs h
    have hlast : (base ++ (before ++ [c])).getLast? = some c := by
      rw [← List.append_assoc, List.getLast?_concat]
    rw [makeFolder, hcomponents, hlast, Path.parent?_ofMoves hb hcs, Option.getD_some, houter]
    rcases hcs c (List.mem_append_right _ List.mem_cons_self) with rfl | ⟨n, rfl, hn⟩
    · rfl
    · obtain rfl : n.toList = m := Option.some.inj hm
      rw [move_name y hn] at hfolder
      simp [bind, Except.bind, hfolder]

/-- A folder with a name is made in the folder around it, unless something stands there. -/
theorem makeFolder_name (hb : Path.Base base) (hcs : ∀ c ∈ cs, Path.IsMove c) (hn : IsName n) :
    t.makeFolder (Path.ofComponents (base ++ (cs ++ [.normal n]))) =
      (t.locateFolder (Path.ofComponents (base ++ cs))).bind fun z =>
        if (t.entry? (z ++ [n])).isSome then .error .exists
        else .ok (t.set (z ++ [n]) .folder) := by
  have hall : ∀ c ∈ cs ++ [Component.normal n], Path.IsMove c :=
    List.forall_mem_append.2 ⟨hcs, List.forall_mem_singleton.2 (.inr ⟨n, rfl, hn⟩)⟩
  have hlast : (base ++ (cs ++ [Component.normal n])).getLast? = some (.normal n) := by
    rw [← List.append_assoc, List.getLast?_concat]
  rw [makeFolder, Path.components_ofMoves hb hall, hlast, Path.parent?_ofMoves hb hall,
    Option.getD_some]
  rfl

/-- A folder is made, or is there already. -/
inductive Settles (t : FileTree) (p : Path) : FileTree → Prop where
  | made {t' : FileTree} (h : t.makeFolder p = .ok t') : Settles t p t'
  | there (h : t.makeFolder p = .error .exists) (hp : t.isFolder p = true) : Settles t p t

/-- In a folder that is there, the folder with a name is made or is there, unless a file is. -/
theorem exists_settles (hb : Path.Base base) (hcs : ∀ c ∈ cs, Path.IsMove c) (hn : IsName n)
    (h : t.locateFolder (Path.ofComponents (base ++ cs)) = .ok z)
    (hfree : ∀ c, t.entry? (z ++ [n]) ≠ some (.file c)) :
    ∃ t', Settles t (Path.ofComponents (base ++ (cs ++ [.normal n]))) t' ∧
      (∀ w, z ++ [n] <+: w → Changed [w] t t') ∧ t'.entry? (z ++ [n]) = some .folder := by
  have hall : ∀ c ∈ cs ++ [Component.normal n], Path.IsMove c :=
    List.forall_mem_append.2 ⟨hcs, List.forall_mem_singleton.2 (.inr ⟨n, rfl, hn⟩)⟩
  have hmake := makeFolder_name (t := t) hb hcs hn
  rw [h, Except.bind] at hmake
  have hfolder := (goal_of_locateFolder h).2
  cases he : t.entry? (z ++ [n]) with
  | none =>
    rw [he] at hmake
    refine ⟨_, .made hmake, fun w hw => ?_, ?_⟩
    · exact .set hn hfolder (.inl ⟨he, rfl, hw⟩)
    · rw [entry?_set (by simp), if_pos rfl]
  | some e =>
    cases e with
    | file c => exact absurd he (hfree c)
    | folder =>
      rw [he] at hmake
      have hne : (Path.ofComponents (base ++ (cs ++ [.normal n]))).text.isEmpty = false :=
        Path.isEmpty_of_components (by rw [Path.components_ofMoves hb hall]; simp)
      have hthere : t.locateFolder (Path.ofComponents (base ++ (cs ++ [.normal n]))) =
          .ok (z ++ [n]) := by
        rw [locateFolder_ofMoves hb hcs, walk_concat_empty] at h
        rw [locateFolder_ofMoves hb hall, walk_concat_empty, List.filterMap_append, walk_append,
          h.1]
        refine ⟨?_, he⟩
        show t.walk z [n.toList] = .ok (z ++ [n])
        rw [walk_from_folder h.2, move_name z hn]
        rfl
      exact ⟨t, .there hmake (isFolder_of_locateFolder hne hthere), fun w _ => .refl _ _, he⟩

theorem filterMap_normal (ns : Location) :
    (ns.map Component.normal).filterMap Component.move? = ns.map String.toList := by
  induction ns with
  | nil => rfl
  | cons n ns ih => simp [Component.move?, ih]

theorem isMove_normal (hns : ∀ n ∈ ns, IsName n) :
    ∀ c ∈ ns.map Component.normal, Path.IsMove c := by
  intro c hc
  obtain ⟨n, hn, rfl⟩ := List.mem_map.1 hc
  exact .inr ⟨n, rfl, hns n hn⟩

/-- Names lead down one by one. -/
theorem climb_names (z : Location) (hns : ∀ n ∈ ns, IsName n) :
    climb z (ns.map String.toList) = z ++ ns := by
  induction ns generalizing z with
  | nil => simp
  | cons n ns ih =>
    obtain ⟨hn, hns⟩ := List.forall_mem_cons.1 hns
    rw [List.map_cons, climb, List.foldl_cons, move_name z hn]
    have hrest := ih (z ++ [n]) hns
    rw [climb] at hrest
    rw [hrest, List.append_assoc, List.singleton_append]

/-- Where no file stands on the way, a folder that is missing is not found. -/
theorem locateFolder_of_missing (hb : Path.Base base) (hcs : ∀ c ∈ cs, Path.IsMove c)
    (hns : ∀ n ∈ ns, IsName n) (hz : t.locateFolder (Path.ofComponents (base ++ cs)) = .ok z)
    (hfree : ∀ v c, v <+: z ++ ns → t.entry? v ≠ some (.file c))
    (hnone : t.entry? (z ++ ns) = none) :
    t.locateFolder (Path.ofComponents (base ++ (cs ++ ns.map .normal))) = .error .notFound := by
  have hall : ∀ c ∈ cs ++ ns.map Component.normal, Path.IsMove c :=
    List.forall_mem_append.2 ⟨hcs, isMove_normal hns⟩
  have hz' := (locateFolder_ofMoves hb hcs).1 hz
  have hsolid : climb (t.origin (Path.ofComponents base)) (cs.filterMap Component.move?) = z :=
    (climb_of_walk (walk_concat_empty.1 hz').1).symm
  obtain ⟨hmoves, -⟩ := Path.moves_ofComponents hb hall
  rw [List.filterMap_append, filterMap_normal] at hmoves
  cases hwalk : t.locateFolder (Path.ofComponents (base ++ (cs ++ ns.map .normal))) with
  | ok y =>
    -- what is found is the folder itself
    rw [locateFolder_ofMoves hb hall, List.filterMap_append, filterMap_normal,
      walk_concat_empty] at hwalk
    have hy := climb_of_walk hwalk.1
    rw [climb_append, hsolid, climb_names z hns] at hy
    rw [← hy, hwalk.2] at hnone
    cases hnone
  | error e =>
    rcases walk_eq_error hwalk with rfl | ⟨before, after, c, hsplit, hfile⟩
    · rfl
    exfalso
    rw [origin_ofMoves hb hall, ← climb_filter] at hfile
    have hprefix :
        before.filter leads <+: cs.filterMap Component.move? ++ ns.map String.toList := by
      refine ⟨after.filter leads, ?_⟩
      rw [← List.filter_append, ← hsplit, List.filter_append, ← hmoves, Path.moves]
      exact List.append_nil _
    rcases List.prefix_or_prefix_of_prefix hprefix (List.prefix_append _ _) with hlow | hhigh
    · rw [entry?_of_prefix_walk hz' hlow] at hfile
      cases hfile
    · obtain ⟨more, hmore⟩ := hhigh
      rw [← hmore, List.prefix_append_right_inj] at hprefix
      have htake := List.prefix_iff_eq_take.1 hprefix
      rw [← List.map_take] at htake
      rw [← hmore, climb_append, hsolid, htake,
        climb_names z fun n hn => hns n (List.mem_of_mem_take hn)] at hfile
      refine hfree _ c ?_ hfile
      exact (List.prefix_append_right_inj _).2 (List.take_prefix _ _)

/-- A folder that is there is found behind folders. -/
theorem locateFolder_of_there (ht : t.WellFormed) (hb : Path.Base base)
    (hcs : ∀ c ∈ cs, Path.IsMove c) (hns : ∀ n ∈ ns, IsName n)
    (hz : t.locateFolder (Path.ofComponents (base ++ cs)) = .ok z)
    (hfolder : t.entry? (z ++ ns) = some .folder) :
    t.locateFolder (Path.ofComponents (base ++ (cs ++ ns.map .normal))) = .ok (z ++ ns) := by
  have hall : ∀ c ∈ cs ++ ns.map Component.normal, Path.IsMove c :=
    List.forall_mem_append.2 ⟨hcs, isMove_normal hns⟩
  rw [locateFolder_ofMoves hb hcs, walk_concat_empty] at hz
  rw [locateFolder_ofMoves hb hall, walk_concat_empty, List.filterMap_append, filterMap_normal,
    walk_append, hz.1]
  refine ⟨?_, hfolder⟩
  have hplain : ∀ step ∈ ns.map String.toList, step ≠ ['.', '.'] := by
    intro step hstep
    obtain ⟨n, hn, rfl⟩ := List.mem_map.1 hstep
    exact (hns n hn).ne_parent
  rw [← names_map_toList hns] at hfolder
  have hwalk := walk_names_from_folder ht hplain hfolder
  rwa [names_map_toList hns] at hwalk

/-! ### Making the folders around a folder -/

theorem makeFoldersFrom_of_settles {cs : List Component} {c : Component}
    (h : Settles t (Path.ofComponents (cs ++ [c])) t') :
    t.makeFoldersFrom (cs ++ [c]).reverse = (t', .ok ()) := by
  rw [List.reverse_append, List.reverse_singleton, List.singleton_append, makeFoldersFrom,
    List.reverse_cons, List.reverse_reverse]
  cases h with
  | made h => rw [h]
  | there h hp =>
    rw [h]
    simp only [settled, hp, if_true]

theorem makeFoldersFrom_of_missing {t₁ : FileTree} {cs : List Component} {c : Component}
    (h : t.makeFolder (Path.ofComponents (cs ++ [c])) = .error .notFound)
    (houter : t.makeFoldersFrom cs.reverse = (t₁, .ok ()))
    (hlast : Settles t₁ (Path.ofComponents (cs ++ [c])) t') :
    t.makeFoldersFrom (cs ++ [c]).reverse = (t', .ok ()) := by
  rw [List.reverse_append, List.reverse_singleton, List.singleton_append, makeFoldersFrom,
    List.reverse_cons, List.reverse_reverse, h]
  simp only [houter]
  cases hlast with
  | made h => rw [h]
  | there h hp =>
    rw [h]
    simp only [settled, hp, if_true]

/-- A folder that is there is left as it is. -/
theorem makeFoldersFrom_of_exists (hb : Path.Base base) (hcs : ∀ c ∈ cs, Path.IsMove c)
    (h : t.locateFolder (Path.ofComponents (base ++ cs)) = .ok z) :
    t.makeFoldersFrom (base ++ cs).reverse = (t, .ok ()) := by
  rcases List.eq_nil_or_concat (base ++ cs) with hnil | ⟨before, c, hsplit⟩
  · rw [hnil]
    rfl
  · have hne : base ++ cs ≠ [] := by simp [hsplit]
    have hmake := makeFolder_of_exists hb hcs hne h
    have hfolder : t.isFolder (Path.ofComponents (base ++ cs)) = true := by
      refine isFolder_of_locateFolder (Path.isEmpty_of_components ?_) h
      rwa [Path.components_ofMoves hb hcs]
    rw [List.concat_eq_append] at hsplit
    rw [hsplit] at hmake hfolder ⊢
    exact makeFoldersFrom_of_settles (.there hmake hfolder)

/-- **Folders are made along names** behind a folder that is there, unless a file stands on the
way. -/
theorem exists_makeFoldersFrom (ht : t.WellFormed) (hb : Path.Base base)
    (hcs : ∀ c ∈ cs, Path.IsMove c) (hns : ∀ n ∈ ns, IsName n)
    (hz : t.locateFolder (Path.ofComponents (base ++ cs)) = .ok z)
    (hfree : ∀ v c, v <+: z ++ ns → t.entry? v ≠ some (.file c)) :
    ∃ t', t.makeFoldersFrom (base ++ (cs ++ ns.map Component.normal)).reverse = (t', .ok ()) ∧
      (∀ w, z ++ ns <+: w → Changed [w] t t') ∧ t'.entry? (z ++ ns) = some .folder := by
  induction ns using List.reverseRecOn with
  | nil =>
    rw [List.map_nil, List.append_nil, List.append_nil]
    exact ⟨t, makeFoldersFrom_of_exists hb hcs hz, fun w _ => .refl _ _,
      (goal_of_locateFolder hz).2⟩
  | append_singleton ns n ih =>
    obtain ⟨hns, hn⟩ := List.forall_mem_append.1 hns
    have hn := hn n List.mem_cons_self
    have hall : ∀ c ∈ cs ++ ns.map Component.normal, Path.IsMove c :=
      List.forall_mem_append.2 ⟨hcs, isMove_normal hns⟩
    have hpart : z ++ ns <+: z ++ ns ++ [n] := List.prefix_append _ _
    have hlast : base ++ (cs ++ (ns ++ [n]).map Component.normal) =
        base ++ (cs ++ ns.map .normal) ++ [.normal n] := by simp
    have hassoc : base ++ (cs ++ ns.map Component.normal) ++ [Component.normal n] =
        base ++ (cs ++ ns.map Component.normal ++ [Component.normal n]) := List.append_assoc _ _ _
    rw [← List.append_assoc z] at hfree ⊢
    rw [hlast]
    cases he : t.entry? (z ++ ns) with
    | some e =>
      cases e with
      | file c => exact absurd he (hfree _ c hpart)
      | folder =>
        -- the folder around is there
        have houter := locateFolder_of_there ht hb hcs hns hz he
        obtain ⟨t', hsettles, hchanged, hfolder⟩ :=
          exists_settles hb hall hn houter fun c => hfree _ c List.prefix_rfl
        rw [← hassoc] at hsettles
        exact ⟨t', makeFoldersFrom_of_settles hsettles, hchanged, hfolder⟩
    | none =>
      -- the folder around is made first
      obtain ⟨t₁, hmade, hchanged₁, hfolder₁⟩ := ih hns fun v c hv => hfree v c (hv.trans hpart)
      have hmissing := locateFolder_of_missing hb hcs hns hz
        (fun v c hv => hfree v c (hv.trans hpart)) he
      have hfirst := makeFolder_name (t := t) hb hall hn
      rw [hmissing, ← hassoc] at hfirst
      have hhere := hchanged₁ _ List.prefix_rfl
      have hz₁ : t₁.locateFolder (Path.ofComponents (base ++ cs)) = .ok z := by
        rw [locateFolder] at hz ⊢
        rw [hhere.origin]
        exact hhere.walk_eq_ok hz
      have hnone : t₁.entry? (z ++ ns ++ [n]) = none := by
        by_contra hsome
        have hbelow := ht.none_below he hpart
        obtain ⟨w, hw, hprefix⟩ := hhere.grown _ hbelow (Option.isSome_iff_ne_none.2 hsome)
        obtain rfl := List.mem_singleton.1 hw
        exact not_concat_prefix _ n hprefix
      have hfree₁ : ∀ c, t₁.entry? (z ++ ns ++ [n]) ≠ some (.file c) := fun c hc => by
        rw [hnone] at hc
        cases hc
      have houter₁ := locateFolder_of_there (hhere.wellFormed ht) hb hcs hns hz₁ hfolder₁
      obtain ⟨t', hsettles, hchanged, hfolder⟩ := exists_settles hb hall hn houter₁ hfree₁
      rw [← hassoc] at hsettles
      refine ⟨t', makeFoldersFrom_of_missing hfirst hmade hsettles, fun w hw => ?_, hfolder⟩
      exact (hchanged₁ w (hpart.trans hw)).trans (hchanged w hw)

end

/-! ### Paths that lead down behind a folder -/

/-- The path leads to a folder that is there, and along names behind it. -/
def Firm (t : FileTree) (p : Path) : Prop :=
  ∃ solid tail z, steps p = solid ++ tail ∧ t.walk (t.origin p) (solid ++ [[]]) = .ok z ∧
    ∀ step ∈ tail, step ≠ ['.', '.']

/-- A path without `..` is such a path, if it starts at a folder. -/
theorem firm_of_plain (hp : p.Plain) (h : t.entry? (t.origin p) = some .folder) : t.Firm p :=
  ⟨[], steps p, t.origin p, rfl, walk_cons.2 ⟨h, congrArg Except.ok (move_of_not_leads rfl)⟩, hp⟩

theorem Firm.of_folders (h : t.Firm p) (hhere : t'.here = t.here)
    (hfolders : ∀ q, t.entry? q = some .folder → t'.entry? q = some .folder) : t'.Firm p := by
  obtain ⟨solid, tail, z, hsteps, hwalk, hplain⟩ := h
  refine ⟨solid, tail, z, hsteps, ?_, hplain⟩
  rw [origin, hhere]
  exact walk_of_folders hfolders hwalk

theorem Firm.of_changed {places : List Location} (h : t.Firm p) (hc : Changed places t t') :
    t'.Firm p := h.of_folders hc.here fun _ => hc.folder

theorem Firm.of_outside {places : List Location} (h : t.Firm p) (hc : Outside places t t') :
    t'.Firm p := h.of_folders hc.here hc.folder

/-- Names behind such a path make another one. -/
theorem Firm.join {q : Path} (h : t.Firm p) (hq : q.Plain) (hrelative : q.isAbsolute = false) :
    t.Firm (p.join q) := by
  obtain ⟨solid, tail, z, hsteps, hwalk, hplain⟩ := h
  obtain ⟨before, hjoin, hbefore⟩ := Path.exists_steps_join (p := p) hrelative
  have horigin : t.origin (p.join q) = t.origin p := by
    rw [origin, origin, Path.isAbsolute_join hrelative]
  rw [Firm, horigin, hjoin]
  rcases hbefore with rfl | hbefore
  · rw [hsteps, List.append_assoc]
    exact ⟨solid, tail ++ steps q, z, rfl, hwalk, List.forall_mem_append.2 ⟨hplain, hq⟩⟩
  · rw [hsteps] at hbefore
    rcases List.eq_nil_or_concat tail with rfl | ⟨tail, last, rfl⟩
    · -- the path ends with a slash behind the folder
      rw [List.append_nil] at hbefore
      rw [← hbefore] at hwalk
      exact ⟨before, steps q, z, rfl, (walk_concat_empty.1 hwalk).1, hq⟩
    · rw [List.concat_eq_append, ← List.append_assoc] at hbefore
      rw [List.concat_eq_append] at hplain
      rw [(List.append_inj' hbefore rfl).1, List.append_assoc]
      exact ⟨solid, tail ++ steps q, z, rfl, hwalk,
        List.forall_mem_append.2 ⟨(List.forall_mem_append.1 hplain).1, hq⟩⟩

/-- The goal of such a path lies below the folder. -/
theorem goal_of_firm {solid tail : List (List Char)} (hsteps : steps p = solid ++ tail)
    (hwalk : t.walk (t.origin p) (solid ++ [[]]) = .ok z)
    (hplain : ∀ step ∈ tail, step ≠ ['.', '.']) :
    t.goal p = z ++ names tail := by
  rw [goal, hsteps, climb_append, ← climb_of_walk (walk_concat_empty.1 hwalk).1,
    climb_of_plain hplain]

/-- What is read there is what was read, if nothing is written at, above or below the goal. -/
theorem Firm.readOptional_eq (hp : t.Firm p) (ht : t.WellFormed) {places : List Location}
    (h : Changed places t t') (hapart : ∀ w ∈ places, Apart (t.goal p) w) :
    t'.readOptional p = t.readOptional p := by
  obtain ⟨solid, tail, z, hsteps, hwalk, hplain⟩ := hp
  rw [goal_of_firm hsteps hwalk hplain] at hapart
  have hfind := h.find_eq ht hsteps (walk_concat_empty.1 hwalk).1 hplain hapart
  rw [readOptional, readOptional, read, read, hfind]

/-! ### Files -/

/-- A file can be put at the goal of the path: the path ends with a name, no file stands on the way,
and no folder at the goal. -/
structure Open (t : FileTree) (p : Path) : Prop where
  name : ∃ init n, steps p = init ++ [n.toList] ∧ IsName n
  way : ∀ v, v <+: t.goal p → v ≠ t.goal p → ∀ c, t.entry? v ≠ some (.file c)
  goal : t.entry? (t.goal p) ≠ some .folder

theorem placeFor_of_folder {init : List (List Char)} {n : String} {outer : Location}
    (hsteps : steps p = init ++ [n.toList]) (hn : IsName n)
    (hwalk : t.walk (t.origin p) (init ++ [[]]) = .ok outer)
    (hfree : t.entry? (outer ++ [n]) ≠ some .folder) : t.placeFor p = .ok (outer ++ [n]) := by
  obtain ⟨hfile, q, hq, hmoves, habsolute⟩ := Path.exists_parent hn hsteps
  have houter : t.locateFolder q = .ok outer := by
    rw [locateFolder_eq_ok_iff, hmoves, origin, habsolute, walk_filter_concat_empty]
    exact hwalk
  have hne := isEmpty_of_steps hn hsteps
  have hlast : ((steps p).filter (!·.isEmpty)).getLast? = some n.toList := by
    have hkeep : (!n.toList.isEmpty) = true := by simpa using hn.ne_nil
    rw [hsteps, List.filter_append, List.filter_singleton, hkeep, cond_true, List.getLast?_concat]
  have hend : ((steps p).getLast? == some []) = false := by
    rw [hsteps, List.getLast?_concat]
    simpa using hn.ne_nil
  rw [placeFor, hfile, hq, Option.isSome_some, if_pos rfl, Option.getD_some, houter, hne, hlast,
    hend]
  simp only [bind, Except.bind, Bool.false_eq_true, if_false]
  split
  · rename_i hname
    cases hname
  · rename_i hname
    exact absurd (Option.some.inj hname) hn.ne_current
  · rename_i hname
    exact absurd (Option.some.inj hname) hn.ne_parent
  · rename_i name _ _ hname
    obtain rfl : n.toList = name := Option.some.inj hname
    rw [String.ofList_toList]
    split
    · exact absurd ‹_› hfree
    · rfl

/-- Moves that do not lead up are names. -/
theorem eq_map_normal {cs : List Component} {steps : List (List Char)}
    (hcs : ∀ c ∈ cs, Path.IsMove c) (h : cs.filterMap Component.move? = steps)
    (hs : ∀ step ∈ steps, step ≠ ['.', '.']) :
    cs = (steps.map String.ofList).map .normal ∧ ∀ n ∈ steps.map String.ofList, IsName n := by
  induction cs generalizing steps with
  | nil =>
    subst h
    exact ⟨rfl, by simp⟩
  | cons c cs ih =>
    obtain ⟨hc, hrest⟩ := List.forall_mem_cons.1 hcs
    rcases hc with rfl | ⟨n, rfl, hn⟩
    · subst h
      exact absurd rfl (hs ['.', '.'] List.mem_cons_self)
    · subst h
      obtain ⟨-, hs⟩ := List.forall_mem_cons.1 hs
      obtain ⟨htail, hnames⟩ := ih hrest rfl hs
      have hhead : String.ofList n.toList = n := String.ofList_toList
      refine ⟨?_, List.forall_mem_cons.2 ⟨hhead.symm ▸ hn, hnames⟩⟩
      simp only [List.filterMap_cons, Component.move?, List.map_cons, hhead]
      exact congrArg (Component.normal n :: ·) htail

/-- The components of a path that leads to a folder and along names behind it. -/
theorem exists_components_of_firm {q : Path} {solid tail : List (List Char)}
    (hmoves : q.moves = (solid ++ tail).filter leads) (hplain : ∀ step ∈ tail, step ≠ ['.', '.'])
    (hwalk : t.walk (t.origin q) (solid ++ [[]]) = .ok z) :
    ∃ base cs, Path.Base base ∧ (∀ c ∈ cs, Path.IsMove c) ∧ (∀ n ∈ names tail, IsName n) ∧
      q.components = base ++ (cs ++ (names tail).map .normal) ∧
      t.locateFolder (Path.ofComponents (base ++ cs)) = .ok z := by
  obtain ⟨base, cs, hbase, hcs, hcomponents, habsolute⟩ := q.exists_components
  have hnone : base.filterMap Component.move? = [] := by cases hbase <;> rfl
  rw [Path.moves_eq, hcomponents, List.filterMap_append, hnone, List.nil_append,
    List.filter_append, List.filterMap_eq_append_iff] at hmoves
  obtain ⟨before, after, rfl, hbefore, hafter⟩ := hmoves
  obtain ⟨hcs, hcs'⟩ := List.forall_mem_append.1 hcs
  obtain ⟨hnormal, hnames⟩ :=
    eq_map_normal hcs' hafter fun step hstep => hplain step (List.mem_filter.1 hstep).1
  refine ⟨base, before, hbase, hcs, hnames, ?_, ?_⟩
  · rw [hcomponents, hnormal]
    rfl
  · obtain ⟨-, habsolute'⟩ := Path.moves_ofComponents hbase (List.forall_mem_nil Path.IsMove)
    rw [List.append_nil] at habsolute'
    have horigin : t.origin (Path.ofComponents base) = t.origin q := by
      rw [origin, origin, Bool.eq_iff_iff.2 (habsolute'.trans habsolute.symm)]
    rw [locateFolder_ofMoves hbase hcs, hbefore, horigin, walk_filter_concat_empty]
    exact hwalk

/-- A path is open as long as nothing is written at, above or below its goal. -/
theorem Changed.open_iff {places : List Location} (h : Changed places t t')
    (hapart : ∀ w ∈ places, Apart (t.goal p) w) : t'.Open p ↔ t.Open p := by
  have hgoal : t'.goal p = t.goal p := h.goal p
  have hfile : ∀ v, v <+: t.goal p → ∀ c,
      t'.entry? v = some (.file c) ↔ t.entry? v = some (.file c) := by
    intro v hv c
    have hnot : v ∉ places := fun hmem => (hapart v hmem).2 hv
    exact ⟨fun hc => h.files v c hc hnot, fun hc => h.kept v _ hc (.inl hnot)⟩
  have hentry := h.entry?_apart hapart
  constructor
  · intro ho
    refine ⟨ho.name, fun v hv hne c hc => ?_, fun hfolder => ho.goal ?_⟩
    · exact ho.way v (hgoal ▸ hv) (hgoal ▸ hne) c ((hfile v hv c).2 hc)
    · rw [hgoal, hentry, hfolder]
  · intro ho
    refine ⟨ho.name, fun v hv hne c hc => ?_, fun hfolder => ho.goal ?_⟩
    · rw [hgoal] at hv hne
      exact ho.way v hv hne c ((hfile v hv c).1 hc)
    · rw [hgoal, hentry] at hfolder
      exact hfolder

/-- The name of an open path stands behind the folder, as do all names before it. -/
theorem Open.exists_tail (ho : t.Open p) (hp : t.Firm p) :
    ∃ solid tail z n, IsName n ∧ steps p = solid ++ tail ++ [n.toList] ∧
      t.walk (t.origin p) (solid ++ [[]]) = .ok z ∧ (∀ step ∈ tail, step ≠ ['.', '.']) ∧
      t.goal p = z ++ names tail ++ [n] := by
  obtain ⟨init, n, hlast, hn⟩ := ho.name
  obtain ⟨solid, tail, z, hsteps, hwalk, hplain⟩ := hp
  have hgoal := goal_of_firm hsteps hwalk hplain
  rcases List.eq_nil_or_concat tail with rfl | ⟨tail, last, rfl⟩
  · -- the path would lead to the folder itself
    rw [names_nil, List.append_nil] at hgoal
    exact absurd (hgoal ▸ (walk_concat_empty.1 hwalk).2) ho.goal
  · rw [List.concat_eq_append] at hsteps hplain hgoal
    rw [← List.append_assoc] at hsteps
    obtain rfl : n.toList = last :=
      List.singleton_inj.1 (List.append_inj' (hlast.symm.trans hsteps) rfl).2
    rw [names_append, names_of_leads (leads_of_isName hn), String.ofList_toList,
      ← List.append_assoc] at hgoal
    exact ⟨solid, tail, z, n, hn, hsteps, hwalk, (List.forall_mem_append.1 hplain).1, hgoal⟩

/-- The folders around an open path can be made, and nothing changes but the way to its goal. -/
theorem exists_makeWay (ht : t.WellFormed) (hp : t.Firm p) (ho : t.Open p) :
    ∃ t', t.makeWay p = (t', .ok ()) ∧ Changed [t.goal p] t t' ∧
      ∀ c, ∃ t'', t'.putInPlace p c = (t'', .ok ()) := by
  obtain ⟨solid, tail, z, n, hn, hsteps, hwalk, hplain, hgoal⟩ := ho.exists_tail hp
  obtain ⟨-, q, hq, hmoves, habsolute⟩ := Path.exists_parent hn hsteps
  have horigin : t.origin q = t.origin p := by rw [origin, origin, habsolute]
  obtain ⟨base, cs, hbase, hcs, hnames, hcomponents, houter⟩ :=
    exists_components_of_firm hmoves hplain (horigin ▸ hwalk)
  have hfree : ∀ v c, v <+: z ++ names tail → t.entry? v ≠ some (.file c) := by
    intro v c hv
    refine ho.way v ?_ ?_ c
    · rw [hgoal]
      exact hv.trans (List.prefix_append _ _)
    · rintro rfl
      exact not_concat_prefix _ n (hgoal ▸ hv)
  obtain ⟨t₁, hmade, hchanged, hfolder⟩ :=
    exists_makeFoldersFrom ht hbase hcs hnames houter hfree
  rw [← hcomponents] at hmade
  have hhere := hchanged _ List.prefix_rfl
  -- the file can go into the last of the folders
  have hwalk₁ : t₁.walk (t₁.origin p) (solid ++ tail ++ [[]]) = .ok (z ++ names tail) := by
    rw [hhere.origin, walk_concat_empty, walk_append,
      hhere.walk_eq_ok (walk_concat_empty.1 hwalk).1]
    exact ⟨walk_names_from_folder (hhere.wellFormed ht) hplain hfolder, hfolder⟩
  have hgoal₁ : t₁.entry? (z ++ names tail ++ [n]) = t.entry? (t.goal p) := by
    rw [hgoal]
    refine hhere.entry?_below (z := z ++ names tail ++ [n]) ?_ List.prefix_rfl
    intro w hw hprefix
    obtain rfl := List.mem_singleton.1 hw
    exact not_concat_prefix _ n hprefix
  have hplace := placeFor_of_folder hsteps hn hwalk₁ (hgoal₁ ▸ ho.goal)
  have hway : z ++ names tail <+: t.goal p := hgoal ▸ List.prefix_append _ _
  refine ⟨t₁, ?_, hchanged _ hway, fun c => ⟨t₁.set (z ++ names tail ++ [n]) (.file c), ?_⟩⟩
  · unfold makeWay makeFolders
    simp only [hq, Option.getD_some, hmade]
  · unfold putInPlace
    simp only [hplace]

/-- A file that is put in its place changes nothing but its goal. -/
theorem changed_putInPlace {c : Content} (h : t.putInPlace p c = (t', .ok ())) :
    Changed [t.goal p] t t' ∧ t'.entry? (t.goal p) = some (.file c) := by
  obtain ⟨init, n, outer, -, hn, -, hfolder, hgoal, hfree, rfl⟩ := exists_of_putInPlace h
  rw [hgoal]
  exact ⟨.set hn hfolder (.inr ⟨hfree, rfl⟩), by rw [entry?_set (by simp), if_pos rfl]⟩

/-- **A file can be written at an open path**, and nothing changes but its goal and the way to
it. -/
theorem put_of_open (ht : t.WellFormed) (hp : t.Firm p) (ho : t.Open p) (c : Content) :
    ∃ t', t.put p c = (t', .ok ()) ∧ Changed [t.goal p] t t' ∧
      t'.entry? (t.goal p) = some (.file c) := by
  obtain ⟨t₁, hmade, hchanged, hput⟩ := exists_makeWay ht hp ho
  obtain ⟨t', hput⟩ := hput c
  obtain ⟨hset, hfile⟩ := changed_putInPlace hput
  have hgoal : t₁.goal p = t.goal p := hchanged.goal p
  rw [hgoal] at hset hfile
  refine ⟨t', ?_, hchanged.trans hset, hfile⟩
  unfold put
  rw [hmade]
  exact hput

/-- A path at which a file was put in its place was open. -/
theorem open_of_putInPlace (ht : t.WellFormed) {c : Content}
    (h : t.putInPlace p c = (t', .ok ())) : t.Open p := by
  obtain ⟨init, n, outer, hsteps, hn, -, hfolder, hgoal, hfree, -⟩ := exists_of_putInPlace h
  refine ⟨⟨init, n, hsteps, hn⟩, fun v hv hne c hc => ?_, hgoal ▸ hfree⟩
  rw [hgoal] at hv hne
  have hv := (List.prefix_concat_iff.1 hv).resolve_left hne
  by_cases heq : v = outer
  · rw [heq, hfolder] at hc
    cases hc
  · rw [ht.folder (by rw [hfolder]; rfl) hv heq] at hc
    cases hc

/-- A path that is open was open before files were written elsewhere. -/
theorem Open.of_outside {places : List Location} (ho : t'.Open p) (h : Outside places t t')
    (hapart : ∀ w ∈ places, Apart (t.goal p) w) : t.Open p := by
  refine ⟨ho.name, fun v hv hne c hc => ?_, fun hfolder => ho.goal ?_⟩
  · -- a file on the way would have stayed
    have hplace : v ∉ places := fun hmem => (hapart v hmem).2 hv
    have hfile : t'.contentAt? v = some c := by
      rw [h.content v hplace, contentAt?_eq_some, hc]
    exact ho.way v (h.goal p ▸ hv) (h.goal p ▸ hne) c (contentAt?_eq_some.1 hfile)
  · rw [h.goal]
    exact h.folder _ hfolder

/-- **A path at which a file was written was open.** -/
theorem open_of_put (ht : t.WellFormed) {c : Content} (h : t.put p c = (t', .ok ())) :
    t.Open p := by
  have hmade : Outside [] t (t.makeWay p).1 := outside_makeWay p
  have ht₁ : (t.makeWay p).1.WellFormed := wellFormed_makeFolders ht _
  unfold put at h
  generalize t.makeWay p = made at h hmade ht₁
  obtain ⟨t₁, result⟩ := made
  cases result with
  | error e => cases h
  | ok _ => exact (open_of_putInPlace ht₁ h).of_outside hmade (by simp)

end FileTree

end Scaffold
