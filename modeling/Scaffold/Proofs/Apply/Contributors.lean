import Scaffold.Proofs.Apply.Report

/-!
# Who contributes to a destination

The files that go into a destination are those with a target that names it, each of them once and
under its number, and every target is named by a destination (`covers_group`). So a destination of a
plan is merged with the contents of all files with that target that are ready, and of no other file
(`mem_contributors`).
-/

namespace Scaffold

namespace Destination

variable {has has' : Nat → PreparedFile → Path → Prop} {ds : List Destination} {index : Nat}
  {file : PreparedFile} {target : Path} {targets : List Path}

/-- Where `has` says which numbered file has which target: the destinations take all of these files
in, and no other. -/
structure Covers (has : Nat → PreparedFile → Path → Prop) (ds : List Destination) : Prop where
  mem : ∀ d ∈ ds, ∀ i f, (i, f) ∈ d.contributors ↔ ∃ q, has i f q ∧ d.path.same q = true
  found : ∀ i f q, has i f q → ∃ d ∈ ds, d.path.same q = true

theorem Covers.congr (h : Covers has ds) (hiff : ∀ i f q, has' i f q ↔ has i f q) :
    Covers has' ds := by
  have heq : has' = has := by
    funext i f q
    exact propext (hiff i f q)
  exact heq ▸ h

/-- A file that goes into a destination again is the last one that went into it. -/
theorem mem_contribute {d : Destination} (hone : ∀ f, (index, f) ∈ d.contributors → f = file)
    {i : Nat} {f : PreparedFile} : (i, f) ∈ (d.contribute index file).contributors ↔
      (i, f) ∈ d.contributors ∨ i = index ∧ f = file := by
  rw [contribute]
  split
  · rename_i hlast
    obtain ⟨⟨j, last⟩, hj, hindex⟩ := (Option.any_eq_true _ _).1 hlast
    obtain rfl : j = index := beq_iff_eq.1 hindex
    have hmem := List.mem_of_getLast? hj
    obtain rfl := hone last hmem
    refine ⟨.inl, ?_⟩
    rintro (h | ⟨rfl, rfl⟩)
    · exact h
    · exact hmem
  · simp

/-- What a file with one more target does to destinations with different paths. -/
theorem mem_add (hdifferent : ds.Pairwise fun d e => d.path.same e.path = false) {d' : Destination}
    (h : d' ∈ add index file target ds) :
    (d' ∈ ds ∧ d'.path.same target = false) ∨
      (∃ d ∈ ds, d.path.same target = true ∧ d' = d.contribute index file) ∨
        d' = ⟨target, [(index, file)]⟩ ∧ ∀ d ∈ ds, d.path.same target = false := by
  induction ds with
  | nil => exact .inr (.inr ⟨List.mem_singleton.1 h, by simp⟩)
  | cons d ds ih =>
    obtain ⟨hfirst, hrest⟩ := List.pairwise_cons.1 hdifferent
    rw [add] at h
    by_cases hsame : d.path.same target = true
    · rw [if_pos hsame] at h
      rcases List.mem_cons.1 h with rfl | h
      · exact .inr (.inl ⟨d, List.mem_cons_self, hsame, rfl⟩)
      · refine .inl ⟨List.mem_cons_of_mem _ h, Bool.eq_false_iff.2 fun hother => ?_⟩
        have hapart := hfirst d' h
        rw [Path.same_of_same hsame hother] at hapart
        cases hapart
    · rw [if_neg hsame] at h
      have hsame := Bool.eq_false_iff.2 hsame
      rcases List.mem_cons.1 h with rfl | h
      · exact .inl ⟨List.mem_cons_self, hsame⟩
      · rcases ih hrest h with ⟨hmem, hother⟩ | ⟨e, he, hother, heq⟩ | ⟨heq, hall⟩
        · exact .inl ⟨List.mem_cons_of_mem _ hmem, hother⟩
        · exact .inr (.inl ⟨e, List.mem_cons_of_mem _ he, hother, heq⟩)
        · exact .inr (.inr ⟨heq, List.forall_mem_cons.2 ⟨hsame, hall⟩⟩)

/-- The target is named by a destination then, and what destinations named they name still. -/
theorem exists_mem_add (q : Path) (h : q = target ∨ ∃ d ∈ ds, d.path.same q = true) :
    ∃ d ∈ add index file target ds, d.path.same q = true := by
  induction ds with
  | nil =>
    obtain rfl := h.resolve_right (by simp)
    exact ⟨_, List.mem_singleton_self _, Path.same_refl _⟩
  | cons d ds ih =>
    rw [add]
    by_cases hsame : d.path.same target = true
    · rw [if_pos hsame]
      rcases h with rfl | ⟨e, he, heq⟩
      · exact ⟨_, List.mem_cons_self, path_contribute d _ _ ▸ hsame⟩
      · rcases List.mem_cons.1 he with rfl | he
        · exact ⟨_, List.mem_cons_self, path_contribute e _ _ ▸ heq⟩
        · exact ⟨e, List.mem_cons_of_mem _ he, heq⟩
    · rw [if_neg hsame]
      rcases h with hq | ⟨e, he, heq⟩
      · obtain ⟨d', hd', heq⟩ := ih (.inl hq)
        exact ⟨d', List.mem_cons_of_mem _ hd', heq⟩
      · rcases List.mem_cons.1 he with rfl | he
        · exact ⟨e, List.mem_cons_self, heq⟩
        · obtain ⟨d', hd', heq⟩ := ih (.inr ⟨e, he, heq⟩)
          exact ⟨d', List.mem_cons_of_mem _ hd', heq⟩

/-- One more target of a file. -/
theorem Covers.add (h : Covers has ds)
    (hdifferent : ds.Pairwise fun d e => d.path.same e.path = false)
    (hone : ∀ f q, has index f q → f = file) (target : Path) :
    Covers (fun i f q => has i f q ∨ (i = index ∧ f = file) ∧ q = target)
      (Destination.add index file target ds) := by
  refine ⟨fun d' hd' i f => ?_, fun i f q hq => exists_mem_add q ?_⟩
  · rcases mem_add hdifferent hd' with ⟨hmem, hother⟩ | ⟨d, hd, hsame, rfl⟩ | ⟨rfl, hall⟩
    · rw [h.mem d' hmem]
      constructor
      · rintro ⟨q, hq, heq⟩
        exact ⟨q, .inl hq, heq⟩
      · rintro ⟨q, hq | ⟨-, rfl⟩, heq⟩
        · exact ⟨q, hq, heq⟩
        · rw [hother] at heq
          cases heq
    · have hcontributors : ∀ f, (index, f) ∈ d.contributors → f = file := fun f hf => by
        obtain ⟨q, hq, -⟩ := (h.mem d hd _ _).1 hf
        exact hone f q hq
      rw [mem_contribute hcontributors, h.mem d hd, path_contribute]
      constructor
      · rintro (⟨q, hq, heq⟩ | hnew)
        · exact ⟨q, .inl hq, heq⟩
        · exact ⟨target, .inr ⟨hnew, rfl⟩, hsame⟩
      · rintro ⟨q, hq | ⟨hnew, -⟩, heq⟩
        · exact .inl ⟨q, hq, heq⟩
        · exact .inr hnew
    · constructor
      · intro hmem
        obtain ⟨rfl, rfl⟩ := Prod.mk.inj (List.mem_singleton.1 hmem)
        exact ⟨target, .inr ⟨⟨rfl, rfl⟩, rfl⟩, Path.same_refl _⟩
      · rintro ⟨q, hq | ⟨⟨rfl, rfl⟩, -⟩, heq⟩
        · -- a file that had the target before would have made a destination of it
          obtain ⟨d, hd, hsame⟩ := h.found i f q hq
          have hother := hall d hd
          rw [Path.same_of_same hsame heq] at hother
          cases hother
        · exact List.mem_singleton_self _
  · rcases hq with hq | ⟨-, rfl⟩
    · exact .inr (h.found i f q hq)
    · exact .inl rfl

/-- All targets of a file. -/
theorem Covers.foldl_add {files : List (Option PreparedFile)} (h : Covers has ds)
    (hgrouped : Grouped files ds) (hfile : some file ∈ files)
    (hone : ∀ f q, has index f q → f = file) (htargets : ∀ q ∈ targets, q ∈ file.targets) :
    Covers (fun i f q => has i f q ∨ (i = index ∧ f = file) ∧ q ∈ targets)
      (targets.foldl (fun ds target => Destination.add index file target ds) ds) := by
  induction targets generalizing has ds with
  | nil => exact h.congr (by simp)
  | cons target targets ih =>
    obtain ⟨htarget, hrest⟩ := List.forall_mem_cons.1 htargets
    have hadd := ih (h.add hgrouped.different hone target) (hgrouped.add hfile htarget)
      (fun f q hq => hq.elim (hone f q) fun hnew => hnew.1.2) hrest
    refine hadd.congr fun i f q => ?_
    rw [List.mem_cons, or_assoc, ← and_or_left]

/-- The targets of files, by their numbers. -/
def HasTarget (files : List (Option PreparedFile)) (i : Nat) (f : PreparedFile) (q : Path) : Prop :=
  files[i]? = some (some f) ∧ q ∈ f.targets

theorem hasTarget_concat {files : List (Option PreparedFile)} {f? : Option PreparedFile} {i : Nat}
    {f : PreparedFile} {q : Path} : HasTarget (files ++ [f?]) i f q ↔
      HasTarget files i f q ∨ (i = files.length ∧ f? = some f) ∧ q ∈ f.targets := by
  rw [HasTarget, HasTarget, ← or_and_right]
  refine and_congr_left fun _ => ?_
  rcases Nat.lt_trichotomy i files.length with hlt | rfl | hgt
  · simp [List.getElem?_append_left hlt, Nat.ne_of_lt hlt]
  · simp
  · have hbefore : files[i]? = none := List.getElem?_eq_none (Nat.le_of_lt hgt)
    have hbehind : (files ++ [f?])[i]? = none :=
      List.getElem?_eq_none (by rw [List.length_append, List.length_singleton]; omega)
    simp [hbefore, hbehind, Nat.ne_of_gt hgt]

/-- **The destinations of files take in exactly the files with their targets.** -/
theorem covers_group (files : List (Option PreparedFile)) :
    Covers (HasTarget files) (group files) := by
  suffices hall : ∀ (rest before : List (Option PreparedFile)) (ds : List Destination),
      before ++ rest = files → Grouped files ds → Covers (HasTarget before) ds →
        Covers (HasTarget files) (groupFrom ds before.length rest) from
    hall files [] [] rfl ⟨by simp, .nil⟩ ⟨by simp, by simp [HasTarget]⟩
  intro rest
  induction rest with
  | nil =>
    intro before ds hfiles _ h
    rw [List.append_nil] at hfiles
    exact hfiles ▸ h
  | cons f? rest ih =>
    intro before ds hfiles hgrouped h
    have hbehind : before ++ [f?] ++ rest = files := by rw [List.append_assoc, ← hfiles]; rfl
    have hmem : f? ∈ files := hfiles ▸ List.mem_append_right _ List.mem_cons_self
    have hlength : (before ++ [f?]).length = before.length + 1 := List.length_append
    cases f? with
    | none =>
      have hrest := ih (before ++ [none]) ds hbehind hgrouped (h.congr fun i f q => by
        simp [hasTarget_concat])
      rwa [hlength] at hrest
    | some file =>
      have hone : ∀ f q, HasTarget before before.length f q → f = file := by
        simp [HasTarget]
      have hadd := h.foldl_add hgrouped hmem hone (fun _ hq => hq)
      have hnext : ∀ i f q, HasTarget (before ++ [some file]) i f q ↔
          HasTarget before i f q ∨ (i = before.length ∧ f = file) ∧ q ∈ file.targets := by
        intro i f q
        rw [hasTarget_concat]
        refine or_congr_right ⟨?_, ?_⟩
        · rintro ⟨⟨hi, heq⟩, hq⟩
          obtain rfl := Option.some.inj heq
          exact ⟨⟨hi, rfl⟩, hq⟩
        · rintro ⟨⟨hi, rfl⟩, hq⟩
          exact ⟨⟨hi, rfl⟩, hq⟩
      have hrest := ih (before ++ [some file]) _ hbehind (hgrouped.addAll hmem) (hadd.congr hnext)
      rwa [hlength] at hrest

end Destination

end Scaffold
