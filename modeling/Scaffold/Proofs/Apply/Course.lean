import Scaffold.Apply
import Scaffold.Proofs.Apply.Contributors
import Scaffold.Proofs.Apply.Merging

/-!
# What workers make of a plan

The source files are prepared from the tree as it was, and some may be skipped if one has failed.
The destinations of those that are ready are merged by acts that interleave (`Course.Made`). What is
proved here holds of every such course: no file changes but those of the destinations that are
written (`Made.outside`), and a path finds what it found if and only if no merge has written it
(`Made.content?_eq_iff`). A destination is merged with all files with that target that are ready
(`mem_contributors`), and where all files are done in the end everything is done
(`Made.done_of_files`).
-/

namespace Scaffold

open FileTree (Outside)

/-- Destinations and what became of them. -/
abbrev MergedDestinations := List (Destination × Attempt StageFailure TargetOutcome)

/-! ### Destinations that were written -/

/-- The places of the destinations that were written. -/
def writtenPlaces (t : FileTree) (merged : MergedDestinations) : List Location :=
  (merged.filter (·.2.isWritten)).map fun m => t.goal m.1.path

theorem mem_writtenPlaces {t : FileTree} {merged : MergedDestinations} {z : Location} :
    z ∈ writtenPlaces t merged ↔ ∃ m ∈ merged, m.2.isWritten = true ∧ t.goal m.1.path = z := by
  simp [writtenPlaces, and_assoc]

/-- Of destinations with different paths, what is found for a target is what became of the one that
it names. -/
theorem Tally.found?_of_different {merged : MergedDestinations}
    (h : merged.Pairwise fun m m' => m.1.path.same m'.1.path = false) {q : Path}
    {a : Attempt StageFailure TargetOutcome} :
    found? (merged.map fun m => (m.1.path, m.2)) q = some a ↔
      ∃ m ∈ merged, m.1.path.same q = true ∧ m.2 = a := by
  rw [found?_eq_some (by rwa [List.pairwise_map])]
  constructor
  · rintro ⟨path, hmem, hpath⟩
    obtain ⟨m, hm, heq⟩ := List.mem_map.1 hmem
    obtain ⟨rfl, rfl⟩ := Prod.mk.inj heq
    exact ⟨m, hm, hpath, rfl⟩
  · rintro ⟨m, hm, hpath, rfl⟩
    exact ⟨m.1.path, List.mem_map_of_mem hm, hpath⟩

namespace Course

variable {c : Course} {d : Destination} {f : PreparedFile}

/-- The source files that are ready to be merged. -/
def ready (c : Course) : List PreparedFile := c.prepared.filterMap Attempt.result?

/-- The destinations and what became of them. -/
def outcomes (c : Course) : MergedDestinations := c.destinations.zip c.merged

/-- What the files are settled by. -/
def settled (c : Course) : MergedTargets := c.outcomes.map fun m => (m.1.path, m.2)

theorem files_eq (c : Course) (sources : List Path) :
    c.files sources = FileOutcome.settle c.settled (sources.zip c.prepared) := by
  rw [files, settled, outcomes, List.zip_map_left]
  rfl

theorem mem_ready : f ∈ c.ready ↔ .done f ∈ c.prepared := by
  simp [ready, Attempt.result?_eq_some]

theorem different_destinations (c : Course) :
    c.destinations.Pairwise fun d e => d.path.same e.path = false :=
  (Destination.grouped_group _).different

/-- A destination is a target of a file that is ready. -/
theorem exists_target (h : d ∈ c.destinations) : ∃ f ∈ c.ready, d.path ∈ f.targets := by
  obtain ⟨-, f, -, -, hf, htarget⟩ :=
    (Destination.grouped_group (c.prepared.map Attempt.result?)).founded d h
  obtain ⟨a, ha, hresult⟩ := List.mem_map.1 hf
  exact ⟨f, mem_ready.2 (Attempt.result?_eq_some.1 hresult ▸ ha), htarget⟩

/-- **A destination is merged with all files with that target that are ready**, and with no other
file. -/
theorem mem_contributors (hd : d ∈ c.destinations) {i : Nat} :
    (i, f) ∈ d.contributors ↔ c.prepared[i]? = some (.done f) ∧
      ∃ target ∈ f.targets, d.path.same target = true := by
  have hready : ∀ q, Destination.HasTarget (c.prepared.map Attempt.result?) i f q ↔
      c.prepared[i]? = some (.done f) ∧ q ∈ f.targets := by
    simp [Destination.HasTarget, Attempt.result?_eq_some]
  simp only [(Destination.covers_group _).mem d hd, hready, and_assoc, exists_and_left]

/-- What workers can make of a plan, with the acts of the merges. -/
structure Made (g : Generator) (p : Plan) (t : FileTree) (c : Course) (log : List (Act FileTree)) :
    Prop where
  prepared : Attempt.Tried (p.job.prepare t) p.sources c.prepared
  merged : Interleaving (c.destinations.map (Destination.merging g.appenders p.job.request)) t
    c.merged c.tree log

namespace Made

variable {g : Generator} {p : Plan} {t : FileTree} {log : List (Act FileTree)} {act : Act FileTree}
  {m : Destination × Attempt StageFailure TargetOutcome} {n : Nat} {q : Path}
  (h : c.Made g p t log)

include h

theorem length_merged : c.merged.length = c.destinations.length := by simpa using h.merged.length

theorem map_fst_outcomes : c.outcomes.map Prod.fst = c.destinations :=
  List.map_fst_zip h.length_merged.ge

theorem map_snd_outcomes : c.outcomes.map Prod.snd = c.merged :=
  List.map_snd_zip h.length_merged.le

theorem different_outcomes :
    c.outcomes.Pairwise fun m m' => m.1.path.same m'.1.path = false := by
  have hdifferent := c.different_destinations
  rwa [← h.map_fst_outcomes, List.pairwise_map] at hdifferent

/-- What is found for a target is what became of the destination that it names. -/
theorem found?_settled {a : Attempt StageFailure TargetOutcome} :
    Tally.found? c.settled q = some a ↔ ∃ m ∈ c.outcomes, m.1.path.same q = true ∧ m.2 = a :=
  Tally.found?_of_different h.different_outcomes

/-! ### Files -/

/-- A file that is ready was prepared from the tree as it was. -/
theorem exists_source (hf : f ∈ c.ready) : ∃ source ∈ p.sources, p.job.prepare t source = .ok f :=
  h.prepared.exists_of_mem (mem_ready.1 hf)

/-- A file that is prepared is settled with its source. -/
theorem exists_mem_zip {a : Attempt StageFailure PreparedFile} (ha : a ∈ c.prepared) :
    ∃ source, (source, a) ∈ p.sources.zip c.prepared := by
  rw [← List.map_snd_zip h.prepared.length.le] at ha
  obtain ⟨⟨source, _⟩, hmem, rfl⟩ := List.mem_map.1 ha
  exact ⟨source, hmem⟩

/-- Where all files are done, all of them were prepared and all destinations are done. -/
theorem done_of_files (hdone : ∀ o ∈ c.files p.sources, o.state.isDone = true) :
    (∀ a ∈ c.prepared, a.isDone = true) ∧ ∀ a ∈ c.merged, a.isDone = true := by
  rw [files_eq] at hdone
  have hsettled := FileOutcome.done_of_settle hdone
  refine ⟨fun a ha => ?_, fun a ha => ?_⟩
  · obtain ⟨source, hmem⟩ := h.exists_mem_zip ha
    exact (hsettled _ hmem).1
  · rw [← h.map_snd_outcomes] at ha
    obtain ⟨m, hm, rfl⟩ := List.mem_map.1 ha
    obtain ⟨f, hf, htarget⟩ := exists_target (List.of_mem_zip hm).1
    obtain ⟨source, hmem⟩ := h.exists_mem_zip (mem_ready.1 hf)
    exact (hsettled _ hmem).2 f rfl m.1.path htarget m.2
      (h.found?_settled.2 ⟨m, hm, Path.same_refl _, rfl⟩)

/-! ### Acts -/

theorem exists_outcome (hd : c.destinations[n]? = some d) :
    ∃ a, c.outcomes[n]? = some (d, a) := by
  have hlt : n < c.merged.length := h.length_merged ▸ (List.getElem?_eq_some_iff.1 hd).1
  exact ⟨c.merged[n], List.getElem?_zip_eq_some.2 ⟨hd, List.getElem?_eq_getElem hlt⟩⟩

/-- The acts of a destination are those of its merge. -/
theorem merges (hm : c.outcomes[n]? = some m) :
    m.1.Merges g.appenders p.job.request (actsOf n log) m.2 := by
  obtain ⟨hd, ha⟩ := List.getElem?_zip_eq_some.1 hm
  obtain ⟨a, ha', hends⟩ := h.merged.items n _ (by rw [List.getElem?_map, hd, Option.map_some])
  obtain rfl := Option.some.inj (ha.symm.trans ha')
  exact Destination.merges_of_ends hends

theorem exists_outcome_of_act (hact : act ∈ log) : ∃ m, c.outcomes[act.index]? = some m := by
  have hlt : act.index < c.destinations.length := by simpa using h.merged.index act hact
  obtain ⟨a, ha⟩ := h.exists_outcome (List.getElem?_eq_getElem hlt)
  exact ⟨_, ha⟩

/-- Paths lead to the same goals all the time. -/
theorem goal_before (hact : act ∈ log) (q : Path) : act.before.goal q = t.goal q := by
  refine (h.merged.history.keeps (P := fun t' => ∀ q, t'.goal q = t.goal q) (fun _ => rfl)
    fun act hact hgoal q => ?_).1 act hact q
  obtain ⟨m, hm⟩ := h.exists_outcome_of_act hact
  have houtside :
      Outside ((actsOf act.index log).map (·.before.goal m.1.path)) act.before act.behind :=
    (h.merges hm).outside (fun _ act' hact' => List.mem_map_of_mem hact') act
      (mem_actsOf.2 ⟨hact, rfl⟩)
  rw [houtside.goal, hgoal]

theorem wellFormed_before (ht : t.WellFormed) :
    (∀ act ∈ log, act.before.WellFormed) ∧ c.tree.WellFormed := by
  refine h.merged.history.keeps ht fun act hact => ?_
  obtain ⟨m, hm⟩ := h.exists_outcome_of_act hact
  exact (h.merges hm).wellFormed act (mem_actsOf.2 ⟨hact, rfl⟩)

/-- An act changes no file but that of its destination, if it is written. -/
theorem outside_act (hact : act ∈ log) {places : List Location}
    (hplaces : ∀ m, c.outcomes[act.index]? = some m → m.2.isWritten = true →
      t.goal m.1.path ∈ places) : Outside places act.before act.behind := by
  obtain ⟨m, hm⟩ := h.exists_outcome_of_act hact
  refine (h.merges hm).outside (fun hwritten act' hact' => ?_) act (mem_actsOf.2 ⟨hact, rfl⟩)
  rw [h.goal_before (mem_actsOf.1 hact').1]
  exact hplaces m hm hwritten

/-- **No file changes but those of the destinations that are written**, whatever the schedule. -/
theorem outside : Outside (writtenPlaces t c.outcomes) t c.tree := by
  refine h.merged.history.relates (.refl _) .trans fun act hact => ?_
  exact h.outside_act hact fun m hm hwritten =>
    mem_writtenPlaces.2 ⟨m, List.mem_of_getElem? hm, hwritten, rfl⟩

/-- Between the acts of a destination no file changes but those of the others that are written. -/
theorem around_outside {places : List Location}
    (hplaces : ∀ j m, c.outcomes[j]? = some m → j ≠ n → m.2.isWritten = true →
      t.goal m.1.path ∈ places) : Around (Outside places) t (actsOf n log) c.tree := by
  refine h.merged.history.around (.refl _) .trans fun act hact hother => ?_
  exact h.outside_act hact fun m hm => hplaces act.index m hm hother

/-! ### What paths find -/

/-- **What a path found before is found behind the merges if and only if none of them writes it**,
where no other spelling of the path is a destination. -/
theorem content?_eq_iff (hspelling : ∀ d ∈ c.destinations, t.goal d.path = t.goal q → d.path = q)
    (hfound : t.content? q = t.contentAt? (t.goal q)) :
    c.tree.content? q = t.content? q ↔
      ∀ m ∈ c.outcomes, m.1.path = q → m.2.isWritten = false := by
  constructor
  · intro hkept m hm hpath
    refine Bool.eq_false_iff.2 fun hwritten => ?_
    obtain ⟨n, hn⟩ := List.mem_iff_getElem?.1 hm
    subst hpath
    -- the other destinations lie elsewhere
    have haround : Around (Outside ((writtenPlaces t c.outcomes).filter (· ≠ t.goal m.1.path))) t
        (actsOf n log) c.tree := by
      refine h.around_outside fun j m' hm' hother hwritten' => ?_
      have hmem' := List.mem_of_getElem? hm'
      refine List.mem_filter.2 ⟨mem_writtenPlaces.2 ⟨m', hmem', hwritten', rfl⟩, ?_⟩
      refine decide_eq_true fun hgoal => hother ?_
      have hpath := hspelling m'.1 (List.of_mem_zip hmem').1 hgoal
      exact Path.index_eq_of_same h.different_outcomes hm' hn (hpath ▸ Path.same_refl _)
    have hplace : t.goal m.1.path ∉ (writtenPlaces t c.outcomes).filter (· ≠ t.goal m.1.path) := by
      simp
    obtain ⟨look, make, put, next, hacts, -, hold, hnew⟩ :=
      (h.merges hn).exists_of_isWritten hwritten
    have hput : put ∈ actsOf n log := by simp [hacts]
    have hput := (mem_actsOf.1 hput).1
    have hgoal : put.behind.goal m.1.path = t.goal m.1.path := by
      rw [(h.outside_act hput fun m hm hw =>
        mem_writtenPlaces.2 ⟨m, List.mem_of_getElem? hm, hw, rfl⟩).goal, h.goal_before hput]
    rw [hacts] at haround
    obtain ⟨hlook, -, -, hbehind⟩ := haround
    rw [hlook.content?_of_not_mem hfound hplace] at hold
    rw [hbehind.content?_eq hnew, hbehind.content _ (hgoal ▸ hplace),
      FileTree.contentAt?_of_content? hnew] at hkept
    exact hold hkept.symm
  · intro hunwritten
    refine h.outside.content?_of_not_mem hfound fun hmem => ?_
    obtain ⟨m, hm, hwritten, hgoal⟩ := mem_writtenPlaces.1 hmem
    rw [hunwritten m hm (hspelling m.1 (List.of_mem_zip hm).1 hgoal)] at hwritten
    cases hwritten

end Made

end Course

end Scaffold
