import Scaffold.Proofs.Outcome
import Scaffold.Proofs.Path

/-!
# Where plain paths lead

A path without `..` leads from its origin along its names, through folders only (`walk_of_visited`,
`folder_of_walk`). In a tree whose entries all lie in folders, what a folder lists lies along names
below it (`WellFormed.exists_names_of_mem_list`).
-/

namespace Scaffold.FileTree

/-- Every entry has names on its way, and lies in a folder. -/
def WellFormed (t : FileTree) : Prop :=
  ∀ entry ∈ t.entries, (∀ n ∈ entry.1, IsName n) ∧ t.entry? entry.1.dropLast = some .folder

instance (t : FileTree) : Decidable t.WellFormed :=
  inferInstanceAs (Decidable (∀ entry ∈ t.entries, _))

variable {t : FileTree} {start z : Location}

theorem eq_of_entries {t' : FileTree} (hhere : t.here = t'.here)
    (hentries : t.entries = t'.entries) : t = t' := by
  cases t
  exact congrArg₂ mk hhere hentries

theorem entry?_of_ne_nil (h : start ≠ []) : t.entry? start = t.entries.lookup start := by
  unfold entry?
  simp [h]

theorem mem_of_lookup {α β : Type} [BEq α] [LawfulBEq α] {k : α} {v : β} {l : List (α × β)}
    (h : l.lookup k = some v) : (k, v) ∈ l := by
  induction l with
  | nil => cases h
  | cons e l ih =>
    obtain ⟨k', v'⟩ := e
    rw [List.lookup_cons] at h
    split at h
    · rename_i hk
      obtain rfl := Option.some.inj h
      obtain rfl := eq_of_beq hk
      exact List.mem_cons_self
    · exact List.mem_cons_of_mem _ (ih h)

/-- The folder around something. -/
theorem WellFormed.parent (h : t.WellFormed) {n : String}
    (he : (t.entry? (start ++ [n])).isSome) : t.entry? start = some .folder := by
  obtain ⟨e, he⟩ := Option.isSome_iff_exists.1 he
  rw [entry?_of_ne_nil (by simp)] at he
  have := (h _ (mem_of_lookup he)).2
  rwa [List.dropLast_concat] at this

theorem WellFormed.isName (h : t.WellFormed) (he : (t.entry? z).isSome) : ∀ n ∈ z, IsName n := by
  by_cases hz : z = []
  · simp [hz]
  · obtain ⟨e, he⟩ := Option.isSome_iff_exists.1 he
    rw [entry?_of_ne_nil hz] at he
    exact (h _ (mem_of_lookup he)).1

/-- Whatever is around something is a folder. -/
theorem WellFormed.folder (h : t.WellFormed) {v : Location} (he : (t.entry? z).isSome)
    (hv : v <+: z) (hne : v ≠ z) : t.entry? v = some .folder := by
  obtain ⟨rest, rfl⟩ := hv
  induction rest using List.reverseRecOn with
  | nil => exact absurd (List.append_nil v).symm hne
  | append_singleton rest n ih =>
    rw [← List.append_assoc] at he
    have hparent := h.parent he
    by_cases hrest : rest = []
    · rwa [hrest, List.append_nil] at hparent
    · exact ih (by rw [hparent]; rfl) (by simpa using hrest)

/-- Below nothing there is nothing. -/
theorem WellFormed.none_below (h : t.WellFormed) {v : Location} (hv : t.entry? v = none)
    (hz : v <+: z) : t.entry? z = none := by
  by_contra hne
  by_cases heq : v = z
  · exact hne (heq ▸ hv)
  · rw [h.folder (Option.isSome_iff_ne_none.2 hne) hz heq] at hv
    cases hv

/-! ### Walking -/

/-- The places that have to be folders on the way along steps. -/
def visited : Location → List (List Char) → List Location
  | _, [] => []
  | start, step :: rest => start :: visited (start ++ names [step]) rest

theorem of_mem_visited {steps : List (List Char)} :
    ∀ v ∈ visited start steps, start <+: v ∧ v <+: start ++ names steps := by
  induction steps generalizing start with
  | nil => simp [visited]
  | cons step steps ih =>
    intro v hv
    rw [names_cons, ← List.append_assoc]
    rcases List.mem_cons.1 hv with rfl | hv
    · exact ⟨List.prefix_rfl, (List.prefix_append _ _).trans (List.prefix_append _ _)⟩
    · obtain ⟨hlow, hhigh⟩ := ih v hv
      exact ⟨(List.prefix_append _ _).trans hlow, hhigh⟩

/-- The last step of all is not followed by another one. -/
theorem prefix_of_mem_visited_concat {init : List (List Char)} {last : List Char} :
    ∀ v ∈ visited start (init ++ [last]), v <+: start ++ names init := by
  induction init generalizing start with
  | nil => simp [visited]
  | cons step init ih =>
    rw [List.cons_append, visited, names_cons step init, ← List.append_assoc]
    refine List.forall_mem_cons.2 ⟨?_, ih⟩
    exact (List.prefix_append _ _).trans (List.prefix_append _ _)

/-- What stands where steps lead to. -/
def look (t : FileTree) (start : Location) (steps : List (List Char)) : Except FileFault Entry := do
  match t.entry? (← t.walk start steps) with
  | some e => .ok e
  | none => .error .notFound

theorem find_eq_look {p : Path} (h : p.text.isEmpty = false) :
    t.find p = t.look (t.origin p) (steps p) := by
  rw [find, locate, h]
  rfl

theorem find_of_isEmpty {p : Path} (h : p.text.isEmpty = true) : t.find p = .error .notFound := by
  rw [find, locate, if_pos h]
  rfl

variable {step : List Char} {rest : List (List Char)}

theorem walk_of_none (h : t.entry? start = none) :
    t.walk start (step :: rest) = .error .notFound := by
  unfold walk
  rw [h]

/-- Nothing is found from where there is nothing. -/
theorem look_of_none (h : t.entry? start = none) (steps : List (List Char)) :
    t.look start steps = .error .notFound := by
  cases steps with
  | nil => simp [look, walk, bind, Except.bind, h]
  | cons step rest => simp [look, walk_of_none h, bind, Except.bind]

theorem walk_of_file {c : Content} (h : t.entry? start = some (.file c)) :
    t.walk start (step :: rest) = .error .notDirectory := by
  unfold walk
  rw [h]

theorem walk_of_folder (h : t.entry? start = some .folder) (hs : step ≠ ['.', '.']) :
    t.walk start (step :: rest) = t.walk (start ++ names [step]) rest := by
  conv_lhs => unfold walk
  rw [h]
  dsimp only
  split
  · rw [names_of_not_leads (by rfl), List.append_nil]
  · rw [names_of_not_leads (by rfl), List.append_nil]
  · exact absurd rfl hs
  · rename_i hnil hcurrent _
    have hleads : leads step = true := by simpa [leads] using ⟨hnil, hcurrent⟩
    rw [names_of_leads hleads]

theorem walk_append (start : Location) (a b : List (List Char)) :
    t.walk start (a ++ b) = t.walk start a >>= fun z => t.walk z b := by
  induction a generalizing start with
  | nil => rfl
  | cons step a ih =>
    rw [List.cons_append, walk.eq_def t start (step :: (a ++ b)), walk.eq_def t start (step :: a)]
    dsimp only
    split
    · rfl
    · rfl
    · split <;> exact ih _

/-- A step that leads nowhere asks for a folder. -/
theorem walk_concat_empty {a : List (List Char)} :
    t.walk start (a ++ [[]]) = .ok z ↔ t.walk start a = .ok z ∧ t.entry? z = some .folder := by
  rw [walk_append, Outcome.bind_eq_ok]
  constructor
  · rintro ⟨y, hy, hz⟩
    unfold walk at hz
    split at hz
    · cases hz
    · cases hz
    · rename_i hfolder
      obtain rfl := Except.ok.inj hz
      exact ⟨hy, hfolder⟩
  · rintro ⟨hz, hfolder⟩
    refine ⟨z, hz, ?_⟩
    unfold walk
    rw [hfolder]
    rfl

/-- Through folders every plain way leads to its place. -/
theorem walk_of_visited {steps : List (List Char)} (hs : ∀ step ∈ steps, step ≠ ['.', '.'])
    (h : ∀ v ∈ visited start steps, t.entry? v = some .folder) :
    t.walk start steps = .ok (start ++ names steps) := by
  induction steps generalizing start with
  | nil => rw [walk, names_nil, List.append_nil]
  | cons step steps ih =>
    obtain ⟨hstep, hs⟩ := List.forall_mem_cons.1 hs
    obtain ⟨hfolder, h⟩ := List.forall_mem_cons.1 h
    rw [walk_of_folder hfolder hstep, ih hs h, names_cons step steps, List.append_assoc]

theorem isEmpty_of_locate {p : Path} (h : t.locate p = .ok z) : p.text.isEmpty = false := by
  rw [locate] at h
  split at h
  · cases h
  · exact Bool.eq_false_iff.2 ‹_›

theorem locate_eq_walk {p : Path} (hp : p.text.isEmpty = false) :
    t.locate p = t.walk (t.origin p) (steps p) := by
  rw [locate, if_neg (by simp [hp])]

/-- The way along a joined path, an empty step behind the first path aside. -/
theorem exists_locate_join {p q : Path} (hp : p.text.isEmpty = false) (hq : q.isAbsolute = false) :
    ∃ before, t.locate (p.join q) = t.walk (t.origin p) before >>= (fun z => t.walk z (steps q)) ∧
      (before = steps p ∨ before ++ [[]] = steps p) := by
  obtain ⟨before, hsteps, hbefore⟩ := Path.exists_steps_join (p := p) hq
  refine ⟨before, ?_, hbefore⟩
  rw [locate_eq_walk (Path.isEmpty_join (.inl hp)), hsteps, walk_append, origin,
    Path.isAbsolute_join hq]
  rfl

/-- A joined path is followed from where the first path leads to. -/
theorem locate_join {p q : Path} (hq : q.isAbsolute = false) (h : t.locate p = .ok z) :
    t.locate (p.join q) = t.walk z (steps q) := by
  have hp := isEmpty_of_locate h
  rw [locate_eq_walk hp] at h
  obtain ⟨before, hjoin, hbefore⟩ := exists_locate_join (t := t) hp hq
  have hwalk : t.walk (t.origin p) before = .ok z := by
    rcases hbefore with rfl | hbefore
    · exact h
    · rw [← hbefore, walk_concat_empty] at h
      exact h.1
  rw [hjoin, hwalk]
  rfl

theorem isEmpty_of_steps {p : Path} {init : List (List Char)} {n : String} (hn : IsName n)
    (hsteps : steps p = init ++ [n.toList]) : p.text.isEmpty = false := by
  rw [Bool.eq_false_iff, Ne, String.isEmpty_iff]
  intro hempty
  have hlast := congrArg List.getLast? hsteps
  rw [List.getLast?_concat, steps, hempty] at hlast
  exact hn.ne_nil (Option.some.inj hlast).symm

/-! ### Listed files -/

theorem toList_pathOf_cons (n m : String) (ns : List String) :
    (pathOf (n :: m :: ns)).text.toList = n.toList ++ '/' :: (pathOf (m :: ns)).text.toList := by
  rw [pathOf, String.intercalate_cons_cons, String.toList_append, String.toList_append,
    List.append_assoc]
  rfl

theorem steps_pathOf {n : String} {ns : List String} (hn : IsName n) (h : ∀ n ∈ ns, IsName n) :
    steps (pathOf (n :: ns)) = (n :: ns).map String.toList := by
  induction ns generalizing n with
  | nil => exact Path.steps_of_isName hn
  | cons m ns ih =>
    obtain ⟨hm, hns⟩ := List.forall_mem_cons.1 h
    rw [steps, toList_pathOf_cons, Text.splitOn_append, Text.splitOn_of_not_mem hn.slash_not_mem]
    exact congrArg (n.toList :: ·) (ih hm hns)

theorem isAbsolute_pathOf {n : String} (hn : IsName n) (ns : List String) :
    (pathOf (n :: ns)).isAbsolute = false := by
  cases ns with
  | nil => exact Path.isAbsolute_of_isName hn
  | cons m ns =>
    have hname := Path.isAbsolute_of_isName hn
    rw [Path.isAbsolute_eq] at hname ⊢
    rwa [toList_pathOf_cons, List.head?_append_of_ne_nil _ hn.ne_nil]

/-- Files that stand in the order of their paths are listed as they stand. -/
theorem list_of_pairwise {p : Path} (hz : t.locate p = .ok z) (he : (t.entry? z).isSome)
    (h : (((t.below z).filter isListed).map pathOf).Pairwise fun a b => Path.le a b = true) :
    t.list p = .ok (((t.below z).filter isListed).map pathOf) := by
  obtain ⟨e, he⟩ := Option.isSome_iff_exists.1 he
  rw [list, hz]
  simp only [bind, Except.bind, he, List.mergeSort_of_pairwise h]
  rfl

theorem steps_pathOf_eq {ns : List String} (hne : ns ≠ []) (h : ∀ n ∈ ns, IsName n) :
    steps (pathOf ns) = ns.map String.toList := by
  obtain ⟨n, ns, rfl⟩ := List.exists_cons_of_ne_nil hne
  obtain ⟨hn, hns⟩ := List.forall_mem_cons.1 h
  exact steps_pathOf hn hns

theorem names_map_toList {ns : List String} (h : ∀ n ∈ ns, IsName n) :
    names (ns.map String.toList) = ns := by
  induction ns with
  | nil => rfl
  | cons n ns ih =>
    obtain ⟨hn, hns⟩ := List.forall_mem_cons.1 h
    rw [List.map_cons, names_cons, ih hns, names_of_leads (leads_of_isName hn),
      String.ofList_toList]
    rfl

/-- The files below a folder are listed by their names, and lie in folders. -/
theorem WellFormed.exists_names_of_mem_list (h : t.WellFormed) {p q : Path} {ps : List Path}
    (hlist : t.list p = .ok ps) (hq : q ∈ ps) : ∃ z ns, t.locate p = .ok z ∧ q = pathOf ns ∧
      (∀ n ∈ ns, IsName n) ∧ t.entry? (z ++ ns).dropLast = some .folder := by
  rw [list] at hlist
  obtain ⟨z, hz, hlist⟩ := Outcome.bind_eq_ok.1 hlist
  split at hlist
  · cases hlist
  · obtain rfl := Except.ok.inj hlist
    obtain ⟨ns, hns, rfl⟩ := List.mem_map.1 (List.mem_mergeSort.1 hq)
    obtain ⟨⟨other, e⟩, hentry, hdrop⟩ := List.mem_filterMap.1 (List.mem_filter.1 hns).1
    cases e with
    | folder => cases hdrop
    | file c =>
      simp only at hdrop
      split at hdrop
      · rename_i hprefix
        obtain ⟨ns', rfl⟩ := List.isPrefixOf_iff_prefix.1 hprefix
        rw [List.drop_left] at hdrop
        obtain rfl := Option.some.inj hdrop
        obtain ⟨hnames, hfolder⟩ := h _ hentry
        exact ⟨z, _, hz, rfl, fun n hn => hnames n (List.mem_append_right _ hn), hfolder⟩
      · cases hdrop

/-- The files below a folder are listed by paths that lead down to them. -/
theorem WellFormed.plain_of_mem_list (h : t.WellFormed) {p q : Path} {ps : List Path}
    (hlist : t.list p = .ok ps) (hq : q ∈ ps) : q.Plain ∧ q.isAbsolute = false := by
  obtain ⟨z, ns, -, rfl, hnames, -⟩ := h.exists_names_of_mem_list hlist hq
  cases ns with
  | nil => exact ⟨by decide, by decide⟩
  | cons n ns =>
    obtain ⟨hn, hns⟩ := List.forall_mem_cons.1 hnames
    refine ⟨fun step hstep => ?_, isAbsolute_pathOf hn ns⟩
    rw [steps_pathOf hn hns] at hstep
    obtain ⟨m, hm, rfl⟩ := List.mem_map.1 hstep
    exact (hnames m hm).ne_parent

/-- A listed file is found from the folder by its names. -/
theorem WellFormed.locate_of_mem_list (h : t.WellFormed) {p q : Path} {ps : List Path}
    (hz : t.locate p = .ok z) (hfolder : t.entry? z = some .folder) (hlist : t.list p = .ok ps)
    (hq : q ∈ ps) : ∃ ns, q = pathOf ns ∧ t.locate (p.join q) = .ok (z ++ ns) := by
  obtain ⟨hplain, hrelative⟩ := h.plain_of_mem_list hlist hq
  obtain ⟨_, ns, hz', rfl, hnames, houter⟩ := h.exists_names_of_mem_list hlist hq
  obtain rfl := Except.ok.inj (hz.symm.trans hz')
  refine ⟨ns, rfl, ?_⟩
  rw [locate_join hrelative hz]
  rcases List.eq_nil_or_concat ns with rfl | ⟨init, last, rfl⟩
  · exact walk_of_folder hfolder (by simp)
  · rw [List.concat_eq_append] at hnames houter hplain ⊢
    have hsteps := steps_pathOf_eq (by simp : init ++ [last] ≠ []) hnames
    have hwalk : t.walk z (steps (pathOf (init ++ [last]))) =
        .ok (z ++ names (steps (pathOf (init ++ [last])))) := by
      refine walk_of_visited hplain fun v hv => ?_
      rw [hsteps, List.map_append, List.map_singleton] at hv
      have hprefix := prefix_of_mem_visited_concat v hv
      rw [names_map_toList (List.forall_mem_append.1 hnames).1] at hprefix
      rw [← List.append_assoc, List.dropLast_concat] at houter
      by_cases heq : v = z ++ init
      · rw [heq, houter]
      · exact h.folder (by rw [houter]; rfl) hprefix heq
    rw [hwalk, hsteps, names_map_toList hnames]

end Scaffold.FileTree
