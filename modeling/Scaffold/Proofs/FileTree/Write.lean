import Scaffold.Proofs.FileTree.Change

/-!
# Setting entries

A write makes the folders around its file that are missing and sets the file. Each of these steps
sets one entry in a folder that is there, which changes nothing but the place that is written and the
way to it (`Changed.set`).
-/

namespace Scaffold.FileTree

section
variable {t : FileTree} {place q : Location} {e : Entry}

theorem lookup_cons_eq (entries : List (Location × Entry)) :
    ((place, e) :: entries).lookup q = if q = place then some e else entries.lookup q := by
  rw [List.lookup_cons]
  by_cases h : q = place
  · rw [if_pos h, beq_iff_eq.2 h]
  · rw [if_neg h, beq_eq_false_iff_ne.2 h]

theorem lookup_setEntry (entries : List (Location × Entry)) :
    (setEntry place e entries).lookup q = if q = place then some e else entries.lookup q := by
  induction entries with
  | nil => exact lookup_cons_eq []
  | cons entry entries ih =>
    obtain ⟨other, old⟩ := entry
    rw [setEntry]
    split
    · rename_i hother
      rw [lookup_cons_eq, lookup_cons_eq, hother]
      split <;> rfl
    · rename_i hother
      rw [lookup_cons_eq, lookup_cons_eq, ih]
      split
      · rename_i hq
        rw [if_neg (hq ▸ hother)]
      · rfl

theorem entry?_set (h : place ≠ []) :
    entry? (t.set place e) q = if q = place then some e else t.entry? q := by
  by_cases hq : q = []
  · rw [hq, if_neg (Ne.symm h)]
    rfl
  · rw [entry?_of_ne_nil hq, entry?_of_ne_nil hq, set, lookup_setEntry]

theorem mem_setEntry {entries : List (Location × Entry)} {entry : Location × Entry}
    (h : entry ∈ setEntry place e entries) : entry = (place, e) ∨ entry ∈ entries := by
  induction entries with
  | nil => exact .inl (by simpa [setEntry] using h)
  | cons first entries ih =>
    obtain ⟨other, old⟩ := first
    rw [setEntry] at h
    split at h
    · rcases List.mem_cons.1 h with h | h
      · exact .inl h
      · exact .inr (List.mem_cons_of_mem _ h)
    · rcases List.mem_cons.1 h with h | h
      · exact .inr (h ▸ List.mem_cons_self)
      · exact (ih h).imp_right (List.mem_cons_of_mem _)

/-- The files below a folder stay where a folder is made or something is set elsewhere. -/
theorem below_set {folder : Location} (hne : place ≠ [])
    (h : e = .folder ∧ t.entry? place = none ∨ ¬ folder <+: place) :
    (t.set place e).below folder = t.below folder := by
  rw [entry?_of_ne_nil hne] at h
  obtain ⟨here, entries⟩ := t
  simp only [set, below] at h ⊢
  induction entries with
  | nil =>
    rcases h with ⟨rfl, -⟩ | h
    · rfl
    · cases e with
      | folder => rfl
      | file c => simp [setEntry, h]
  | cons entry entries ih =>
    obtain ⟨other, old⟩ := entry
    rw [lookup_cons_eq] at h
    rw [setEntry]
    split
    · rename_i hother
      rcases h with ⟨-, h⟩ | h
      · rw [if_pos hother.symm] at h
        cases h
      · cases e <;> cases old <;> simp [hother, h]
    · rename_i hother
      rw [List.filterMap_cons, List.filterMap_cons, ih]
      rw [if_neg (Ne.symm hother)] at h
      exact h

/-- What is a folder stays one where no folder is replaced. -/
theorem entry?_set_of_folder (hne : place ≠ []) (hnot : t.entry? place ≠ some .folder)
    (hq : t.entry? q = some .folder) : entry? (t.set place e) q = some .folder := by
  have hother : q ≠ place := by
    rintro rfl
    exact hnot hq
  rw [entry?_set hne, if_neg hother, hq]

/-- What is set in a folder at a name lies in a folder. -/
theorem WellFormed.set (ht : t.WellFormed) {outer : Location} {n : String} (hn : IsName n)
    (houter : t.entry? outer = some .folder) (hnot : t.entry? (outer ++ [n]) ≠ some .folder) :
    (t.set (outer ++ [n]) e).WellFormed := by
  intro entry hentry
  rcases mem_setEntry hentry with rfl | hentry
  · refine ⟨List.forall_mem_append.2 ⟨?_, List.forall_mem_singleton.2 hn⟩, ?_⟩
    · exact ht.isName (by rw [houter]; rfl)
    · rw [List.dropLast_concat]
      exact entry?_set_of_folder (by simp) hnot houter
  · obtain ⟨hnames, hdrop⟩ := ht entry hentry
    exact ⟨hnames, entry?_set_of_folder (by simp) hnot hdrop⟩

end

/-- Something is set in a folder at a name: a folder where there is nothing, or the file of the
place that is written. -/
theorem Changed.set {t : FileTree} {outer : Location} {n : String} (hn : IsName n)
    (houter : t.entry? outer = some .folder) {e : Entry} {w : Location}
    (hfree : t.entry? (outer ++ [n]) = none ∧ e = .folder ∧ outer ++ [n] <+: w ∨
      t.entry? (outer ++ [n]) ≠ some .folder ∧ outer ++ [n] = w) :
    Changed [w] t (t.set (outer ++ [n]) e) := by
  have hne : outer ++ [n] ≠ [] := by simp
  have hnot : t.entry? (outer ++ [n]) ≠ some .folder := by
    rcases hfree with ⟨hnone, -⟩ | ⟨h, -⟩
    · rw [hnone]
      simp
    · exact h
  have hw : outer ++ [n] <+: w := by
    rcases hfree with ⟨-, -, hpart⟩ | ⟨-, rfl⟩
    · exact hpart
    · exact List.prefix_rfl
  refine ⟨rfl, fun q e' he hq => ?_, fun q c hc hq => ?_, fun q hq hq' => ?_, fun place hp => ?_,
    fun ht => ht.set hn houter hnot⟩
  · have hother : q ≠ outer ++ [n] := by
      rintro rfl
      rcases hfree with ⟨hnone, -⟩ | ⟨-, rfl⟩
      · rw [hnone] at he
        cases he
      · exact hq.elim (fun h => h (List.mem_singleton_self _)) fun h => hnot (h ▸ he)
    rw [entry?_set hne, if_neg hother]
    exact he
  · rw [entry?_set hne] at hc
    split at hc
    · rename_i heq
      rcases hfree with ⟨-, rfl, -⟩ | ⟨-, rfl⟩
      · cases hc
      · exact absurd (heq ▸ List.mem_singleton_self _) hq
    · exact hc
  · rw [entry?_set hne] at hq'
    split at hq'
    · rename_i heq
      exact ⟨w, List.mem_singleton_self w, heq ▸ hw⟩
    · rw [hq] at hq'
      cases hq'
  · refine below_set hne ?_
    rcases hfree with ⟨hnone, rfl, -⟩ | ⟨-, rfl⟩
    · exact .inl ⟨rfl, hnone⟩
    · exact .inr (hp _ (List.mem_singleton_self _))

end Scaffold.FileTree
