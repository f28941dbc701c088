import Scaffold.Proofs.FileTree.Place
import Scaffold.Proofs.Outcome

/-!
# What writing changes

`Changed` says what any number of writes at given places leave as it was: the folders, the other
files, and all that is below folders without such a place. What a plain path leads to is what it was
if nothing is written there (`Changed.content?_eq`), a way on which nothing is written finds what it
found (`Changed.readOptional_eq`), and so does every way below a folder in which nothing is written
(`Changed.find_join`). If it is known what the writes have put at their places, then the tree is
known (`Wrote.same`).
-/

namespace Scaffold.FileTree

/-! ### Contents -/

/-- What the file at a path holds. -/
def content? (t : FileTree) (p : Path) : Option Content :=
  match t.find p with
  | .ok (.file c) => some c
  | _ => none

theorem content?_eq_some {t : FileTree} {p : Path} {c : Content} :
    t.content? p = some c ↔ t.find p = .ok (.file c) := by
  rw [content?]
  split
  · rename_i c' h
    simp [h]
  · rename_i h
    constructor
    · intro hc
      cases hc
    · exact fun hc => absurd hc (h c)

theorem isFile_eq (t : FileTree) (p : Path) : t.isFile p = (t.content? p).isSome := by
  rw [isFile, content?]
  cases t.find p with
  | error e => rfl
  | ok e => cases e <;> rfl

theorem readOptional_of_content? {t : FileTree} {p : Path} {c : Content}
    (h : t.content? p = some c) : t.readOptional p = c.read.map some := by
  rw [readOptional, read, content?_eq_some.1 h]
  cases c <;> rfl

theorem readOptional_eq_some {t : FileTree} {p : Path} {s : String} :
    t.readOptional p = .ok (some s) ↔ t.content? p = some (.text s) := by
  constructor
  · intro h
    rw [content?_eq_some]
    rw [readOptional, read] at h
    cases hfind : t.find p with
    | error e =>
      rw [hfind] at h
      cases e <;> simp [bind, Except.bind] at h
    | ok e =>
      rw [hfind] at h
      cases e with
      | folder => simp [bind, Except.bind] at h
      | file c =>
        cases c with
        | text s' =>
          simp only [bind, Except.bind, Content.read] at h
          rw [Option.some.inj (Except.ok.inj h)]
        | bytes b => simp [bind, Except.bind, Content.read] at h
  · intro h
    rw [readOptional_of_content? h]
    rfl

/-- Ways that lead somewhere still do where folders stay. -/
theorem walk_of_folders {t t' : FileTree}
    (hf : ∀ q, t.entry? q = some .folder → t'.entry? q = some .folder) {start z : Location}
    {steps : List (List Char)} (hw : t.walk start steps = .ok z) : t'.walk start steps = .ok z := by
  induction steps generalizing start with
  | nil => exact hw
  | cons step steps ih =>
    cases he : t.entry? start with
    | none =>
      rw [walk_of_none he] at hw
      cases hw
    | some e =>
      cases e with
      | file c =>
        rw [walk_of_file he] at hw
        cases hw
      | folder =>
        unfold walk at hw ⊢
        rw [he] at hw
        rw [hf _ he]
        dsimp only at hw ⊢
        split at hw
        · exact ih hw
        · exact ih hw
        · exact ih hw
        · exact ih hw

/-! ### Changes -/

/-- Neither place is the other one or lies on the way to it. -/
def Apart (v w : Location) : Prop := ¬ v <+: w ∧ ¬ w <+: v

instance (v w : Location) : Decidable (Apart v w) := inferInstanceAs (Decidable (_ ∧ _))

theorem Apart.symm {v w : Location} (h : Apart v w) : Apart w v := ⟨h.2, h.1⟩

theorem Apart.ne {v w : Location} (h : Apart v w) : v ≠ w := by
  rintro rfl
  exact h.1 List.prefix_rfl

/-- What writes at some places leave as it was. -/
structure Changed (places : List Location) (t t' : FileTree) : Prop where
  here : t'.here = t.here
  /-- What was there stays, unless it is a file that is written. -/
  kept : ∀ q e, t.entry? q = some e → q ∉ places ∨ e = .folder → t'.entry? q = some e
  /-- A file that is not written was there. -/
  files : ∀ q c, t'.entry? q = some (.file c) → q ∉ places → t.entry? q = some (.file c)
  /-- What is new lies on the way to a file that is written. -/
  grown : ∀ q, t.entry? q = none → (t'.entry? q).isSome → ∃ w ∈ places, q <+: w
  /-- The files below a folder are the same if none of them is written. -/
  below : ∀ place, (∀ w ∈ places, ¬ place <+: w) → t'.below place = t.below place
  wellFormed : t.WellFormed → t'.WellFormed

namespace Changed

variable {places more : List Location} {t t' t'' : FileTree}

theorem refl (places : List Location) (t : FileTree) : Changed places t t where
  here := rfl
  kept _ _ h _ := h
  files _ _ h _ := h
  grown q h h' := by
    rw [h] at h'
    cases h'
  below _ _ := rfl
  wellFormed h := h

theorem mono (h : Changed places t t') (hp : ∀ w ∈ places, w ∈ more) : Changed more t t' where
  here := h.here
  kept q e he hq := h.kept q e he (hq.imp_left fun hq hw => hq (hp q hw))
  files q c hc hq := h.files q c hc fun hw => hq (hp q hw)
  grown q hq hq' := by
    obtain ⟨w, hw, hprefix⟩ := h.grown q hq hq'
    exact ⟨w, hp w hw, hprefix⟩
  below place hplace := h.below place fun w hw => hplace w (hp w hw)
  wellFormed := h.wellFormed

theorem trans (h : Changed places t t') (h' : Changed places t' t'') : Changed places t t'' where
  here := h'.here.trans h.here
  kept q e he hq := h'.kept q e (h.kept q e he hq) hq
  files q c hc hq := h.files q c (h'.files q c hc hq) hq
  grown q hq hq' := by
    by_cases hmid : t'.entry? q = none
    · exact h'.grown q hmid hq'
    · exact h.grown q hq (Option.isSome_iff_ne_none.2 hmid)
  below place hplace := (h'.below place hplace).trans (h.below place hplace)
  wellFormed ht := h'.wellFormed (h.wellFormed ht)

theorem folder (h : Changed places t t') {q : Location} (hq : t.entry? q = some .folder) :
    t'.entry? q = some .folder := h.kept q .folder hq (.inr rfl)

theorem origin (h : Changed places t t') (p : Path) : t'.origin p = t.origin p := by
  rw [FileTree.origin, FileTree.origin, h.here]

theorem walk_eq_ok (h : Changed places t t') {start z : Location} {steps : List (List Char)}
    (hw : t.walk start steps = .ok z) : t'.walk start steps = .ok z :=
  walk_of_folders (fun _ => h.folder) hw

theorem locate_eq_ok (h : Changed places t t') {p : Path} {z : Location}
    (hp : t.locate p = .ok z) : t'.locate p = .ok z := by
  rw [locate] at hp ⊢
  split at hp
  · cases hp
  · rw [if_neg ‹_›, h.origin]
    exact h.walk_eq_ok hp

/-- At a place apart from all that is written stands what stood there. -/
theorem entry?_apart (h : Changed places t t') {v : Location} (hv : ∀ w ∈ places, Apart v w) :
    t'.entry? v = t.entry? v := by
  cases he : t.entry? v with
  | none =>
    by_contra hsome
    obtain ⟨w, hw, hprefix⟩ := h.grown v he (Option.isSome_iff_ne_none.2 hsome)
    exact (hv w hw).1 hprefix
  | some e => exact h.kept v e he (.inl fun hmem => (hv v hmem).1 List.prefix_rfl)

/-- A plain way finds what it found, if nothing is written at, above or below its place. -/
theorem look_eq (h : Changed places t t') (ht : t.WellFormed) {start : Location}
    {steps : List (List Char)} (hs : ∀ step ∈ steps, step ≠ ['.', '.'])
    (hapart : ∀ w ∈ places, Apart (start ++ names steps) w) :
    t'.look start steps = t.look start steps := by
  induction steps generalizing start with
  | nil =>
    rw [names_nil, List.append_nil] at hapart
    rw [look, look, walk, walk]
    simp only [bind, Except.bind, h.entry?_apart hapart]
  | cons step steps ih =>
    obtain ⟨hstep, hs⟩ := List.forall_mem_cons.1 hs
    have hnext : ∀ w ∈ places, Apart (start ++ names [step] ++ names steps) w := by
      intro w hw
      have := hapart w hw
      rwa [names_cons step steps, ← List.append_assoc] at this
    have hnot : start ∉ places := fun hmem => (hapart start hmem).2 (List.prefix_append _ _)
    cases he : t.entry? start with
    | none =>
      rw [look_of_none he]
      cases he' : t'.entry? start with
      | none => exact look_of_none he' _
      | some e =>
        cases e with
        | folder =>
          -- what has been made since is a folder, and nothing was below it
          have hbelow := ht.none_below he (List.prefix_append start (names [step]))
          rw [look, walk_of_folder he' hstep]
          exact (ih hs hnext).trans (look_of_none hbelow steps)
        | file c =>
          rw [h.files start c he' hnot] at he
          cases he
    | some e =>
      have he' := h.kept start e he (.inl hnot)
      cases e with
      | file c =>
        rw [look, look, walk_of_file he, walk_of_file he']
        rfl
      | folder =>
        rw [look, look, walk_of_folder he hstep, walk_of_folder he' hstep]
        exact ih hs hnext

/-- A path that leads somewhere and on along names finds what it found, if nothing is written at,
above or below its place. -/
theorem find_eq (h : Changed places t t') (ht : t.WellFormed) {p : Path}
    {solid tail : List (List Char)} (hsteps : steps p = solid ++ tail) {z : Location}
    (hwalk : t.walk (t.origin p) solid = .ok z) (hplain : ∀ step ∈ tail, step ≠ ['.', '.'])
    (hapart : ∀ w ∈ places, Apart (z ++ names tail) w) : t'.find p = t.find p := by
  cases hempty : p.text.isEmpty with
  | true => rw [find_of_isEmpty hempty, find_of_isEmpty hempty]
  | false =>
    rw [find_eq_look hempty, find_eq_look hempty, h.origin, hsteps, look, look, walk_append,
      walk_append, hwalk, h.walk_eq_ok hwalk]
    exact h.look_eq ht hplain hapart

/-! ### Below a folder in which nothing is written -/

section
variable {z q start : Location} {folder p : Path}

theorem entry?_below (h : Changed places t t') (hz : ∀ w ∈ places, ¬ z <+: w) (hq : z <+: q) :
    t'.entry? q = t.entry? q := by
  cases he : t.entry? q with
  | none =>
    by_contra hsome
    obtain ⟨w, hw, hprefix⟩ := h.grown q he (Option.isSome_iff_ne_none.2 hsome)
    exact hz w hw (hq.trans hprefix)
  | some e => exact h.kept q e he (.inl fun hmem => hz q hmem hq)

end

end Changed

/-! ### Texts that were written -/

/-- The same current folder, and the same at every place. -/
structure Same (t t' : FileTree) : Prop where
  here : t'.here = t.here
  entries : ∀ q, t'.entry? q = t.entry? q

/-- What writing texts at places makes of a tree: each of them stands at its place, and beside that
nothing is new but the folders on the way. -/
structure Wrote (writes : List (Location × String)) (t t' : FileTree) : Prop where
  changed : Changed (writes.map Prod.fst) t t'
  file : ∀ w ∈ writes, t'.entry? w.1 = some (.file (.text w.2))

namespace Wrote

variable {writes more : List (Location × String)} {t t' t'' : FileTree} {q : Location}

theorem nil (t : FileTree) : Wrote [] t t := ⟨.refl _ t, by simp⟩

/-- Writes at new places come on top of those that were made. -/
theorem append (h : Wrote writes t t') (h' : Wrote more t' t'')
    (hnew : ∀ w ∈ writes, w.1 ∉ more.map Prod.fst) : Wrote (writes ++ more) t t'' where
  changed := by
    rw [List.map_append]
    exact (h.changed.mono fun w hw => List.mem_append_left _ hw).trans
      (h'.changed.mono fun w hw => List.mem_append_right _ hw)
  file := List.forall_mem_append.2
    ⟨fun w hw => h'.changed.kept _ _ (h.file w hw) (.inl (hnew w hw)), h'.file⟩

/-- What is new on the way to a place that was written is a folder. -/
theorem folder_of_prefix (h : Wrote writes t t') (ht : t.WellFormed)
    (hq : q ∉ writes.map Prod.fst) {w : Location} (hw : w ∈ writes.map Prod.fst)
    (hway : q <+: w) : t'.entry? q = some .folder := by
  obtain ⟨⟨place, s⟩, hmem, rfl⟩ := List.mem_map.1 hw
  have hfile := h.file _ hmem
  refine (h.changed.wellFormed ht).folder (by rw [hfile]; rfl) hway ?_
  rintro rfl
  exact hq hw

/-- **What was written determines the tree.** It does not matter in which order. -/
theorem same (h : Wrote writes t t') (h' : Wrote more t t'') (ht : t.WellFormed)
    (hwrites : ∀ w, w ∈ more ↔ w ∈ writes) : Same t' t'' := by
  refine ⟨h'.changed.here.trans h.changed.here.symm, fun q => ?_⟩
  have hplaces : ∀ v, v ∈ more.map Prod.fst ↔ v ∈ writes.map Prod.fst := fun v => by
    simp only [List.mem_map, hwrites]
  by_cases hq : q ∈ writes.map Prod.fst
  · obtain ⟨w, hw, rfl⟩ := List.mem_map.1 hq
    rw [h.file w hw, h'.file w ((hwrites w).2 hw)]
  · have hq' : q ∉ more.map Prod.fst := fun hmem => hq ((hplaces q).1 hmem)
    cases he : t.entry? q with
    | some e => rw [h.changed.kept q e he (.inl hq), h'.changed.kept q e he (.inl hq')]
    | none =>
      by_cases hway : ∃ w ∈ writes.map Prod.fst, q <+: w
      · obtain ⟨w, hw, hprefix⟩ := hway
        rw [h.folder_of_prefix ht hq hw hprefix,
          h'.folder_of_prefix ht hq' ((hplaces w).2 hw) hprefix]
      · have hnone : t'.entry? q = none := by
          by_contra hsome
          exact hway (h.changed.grown q he (Option.isSome_iff_ne_none.2 hsome))
        have hnone' : t''.entry? q = none := by
          by_contra hsome
          obtain ⟨w, hw, hprefix⟩ := h'.changed.grown q he (Option.isSome_iff_ne_none.2 hsome)
          exact hway ⟨w, (hplaces w).1 hw, hprefix⟩
        rw [hnone, hnone']

end Wrote

end Scaffold.FileTree
