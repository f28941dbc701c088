import Scaffold.FileTree
import Scaffold.Proofs.Text

/-!
# Names on a path

Of the steps of a path the empty ones and those through `.` lead nowhere. The others are names, as
long as none is `..`, and the path leads from its origin along its names. Joining paths puts their
names one behind the other (`names_join`), and a path is its names again when it is put together
from its components (`components_ofComponents`).
-/

namespace Scaffold

namespace Text

variable {mark : Char} {s t : List Char}

theorem splitOn_append (mark : Char) (s t : List Char) :
    splitOn mark (s ++ mark :: t) = splitOn mark s ++ splitOn mark t := by
  induction s with
  | nil => simp [splitOn]
  | cons c s ih =>
    rw [List.cons_append, splitOn, splitOn]
    split
    · rw [ih, List.cons_append]
    · rw [ih]
      cases hs : splitOn mark s with
      | nil =>
        cases s with
        | nil => simp [splitOn] at hs
        | cons d s =>
          rw [splitOn] at hs
          split at hs
          · cases hs
          · split at hs <;> cases hs
      | cons piece pieces => rfl

theorem splitOn_of_not_mem (h : mark ∉ s) : splitOn mark s = [s] := by
  induction s with
  | nil => rfl
  | cons c s ih =>
    obtain ⟨hc, hs⟩ := not_or.1 (fun hm => h (List.mem_cons.2 hm))
    rw [splitOn, if_neg (Ne.symm hc), ih hs]

theorem not_mem_of_mem_splitOn {piece : List Char} (h : piece ∈ splitOn mark s) : mark ∉ piece := by
  induction s generalizing piece with
  | nil =>
    obtain rfl : piece = [] := by simpa [splitOn] using h
    simp
  | cons c s ih =>
    rw [splitOn] at h
    split at h
    · rcases List.mem_cons.1 h with rfl | h
      · simp
      · exact ih h
    · rename_i hc
      split at h
      · obtain rfl : piece = [c] := by simpa using h
        simpa using Ne.symm hc
      · rename_i first more hs
        rcases List.mem_cons.1 h with rfl | h
        · have := ih (hs ▸ List.mem_cons_self)
          simp [this, Ne.symm hc]
        · exact ih (hs ▸ List.mem_cons_of_mem _ h)

end Text

/-- The name of a file or folder: something without slashes that leads down one step. -/
structure IsName (n : String) : Prop where
  ne_nil : n.toList ≠ []
  ne_current : n.toList ≠ ['.']
  ne_parent : n.toList ≠ ['.', '.']
  slash_not_mem : '/' ∉ n.toList

instance (n : String) : Decidable (IsName n) :=
  decidable_of_iff (n.toList ≠ [] ∧ n.toList ≠ ['.'] ∧ n.toList ≠ ['.', '.'] ∧ '/' ∉ n.toList)
    ⟨fun ⟨a, b, c, d⟩ => ⟨a, b, c, d⟩, fun ⟨a, b, c, d⟩ => ⟨a, b, c, d⟩⟩

namespace FileTree

/-- A step that leads down to a name, if it is not the step `..`. -/
def leads (step : List Char) : Bool := !(step.isEmpty || step == ['.'])

/-- The names among steps. -/
def names (steps : List (List Char)) : Location := (steps.filter leads).map String.ofList

@[simp] theorem names_nil : names [] = [] := rfl

@[simp] theorem names_append (a b : List (List Char)) : names (a ++ b) = names a ++ names b := by
  simp [names]

theorem names_cons (step : List Char) (rest : List (List Char)) :
    names (step :: rest) = names [step] ++ names rest := names_append [step] rest

theorem names_of_not_leads {step : List Char} (h : leads step = false) : names [step] = [] := by
  simp [names, h]

theorem names_of_leads {step : List Char} (h : leads step = true) :
    names [step] = [String.ofList step] := by
  simp [names, h]

theorem leads_of_isName {n : String} (h : IsName n) : leads n.toList = true := by
  simp [leads, h.ne_nil, h.ne_current]

end FileTree

open FileTree

namespace Path

/-- No step of the path leads to the folder around. -/
def Plain (p : Path) : Prop := ∀ step ∈ steps p, step ≠ ['.', '.']

instance (p : Path) : Decidable p.Plain := inferInstanceAs (Decidable (∀ step ∈ steps p, _))

/-- The names that a path leads along. -/
def names (p : Path) : Location := FileTree.names (steps p)

/-! ### Joining -/

variable {p q : Path}

/-- The steps of a joined path, an empty step at the end of the first path aside. -/
theorem exists_steps_join (hq : q.isAbsolute = false) :
    ∃ before, steps (p.join q) = before ++ steps q ∧
      (before = steps p ∨ before ++ [[]] = steps p) := by
  rw [join, if_neg (by simp [hq])]
  by_cases hp : p.text.toList = []
  · have hempty : p.text = "" := String.toList_eq_nil_iff.1 hp
    refine ⟨[], ?_, .inr ?_⟩
    · simp [steps, hempty]
    · simp [steps, hempty, Text.splitOn]
  · have hne : p.text.isEmpty = false := by
      rw [Bool.eq_false_iff, Ne, String.isEmpty_iff]
      exact fun h => hp (by simp [h])
    by_cases hlast : p.text.toList.getLast? = some '/'
    · obtain ⟨s, hs⟩ := List.getLast?_eq_some_iff.1 hlast
      refine ⟨Text.splitOn '/' s, ?_, .inr ?_⟩
      · simp [steps, hs, Text.splitOn_append]
      · rw [steps, hs, Text.splitOn_append]
        rfl
    · refine ⟨steps p, ?_, .inl rfl⟩
      have hlast' : (p.text.toList.getLast? == some '/') = false := by simpa using hlast
      rw [hne, hlast']
      simp [steps, Text.splitOn_append]

theorem isAbsolute_eq (p : Path) : p.isAbsolute = (p.text.toList.head? == some '/') := by
  rw [isAbsolute, Text.startsWith]
  cases hs : p.text.toList with
  | nil => rfl
  | cons c s =>
    by_cases hc : c = '/'
    · simp [Text.stripStart?, hc]
    · simp [Text.stripStart?, hc, Ne.symm hc]

theorem isAbsolute_join (hq : q.isAbsolute = false) : (p.join q).isAbsolute = p.isAbsolute := by
  rw [join, if_neg (by simp [hq])]
  by_cases hp : p.text.toList = []
  · have hempty : p.text = "" := String.toList_eq_nil_iff.1 hp
    rw [isAbsolute_eq] at hq
    simp [isAbsolute_eq, hempty, hq]
  · obtain ⟨c, s, hs⟩ := List.exists_cons_of_ne_nil hp
    split <;> simp [isAbsolute_eq, hs]

theorem isEmpty_of_isAbsolute (h : p.isAbsolute = true) : p.text.isEmpty = false := by
  rw [isAbsolute_eq] at h
  rw [Bool.eq_false_iff, Ne, String.isEmpty_iff]
  intro hempty
  simp [hempty] at h

/-- A joined path is not empty unless both paths are. -/
theorem isEmpty_join (h : p.text.isEmpty = false ∨ q.text.isEmpty = false) :
    (p.join q).text.isEmpty = false := by
  by_cases hq : q.isAbsolute
  · rw [join, if_pos hq]
    exact isEmpty_of_isAbsolute hq
  · simp only [Bool.eq_false_iff, Ne, String.isEmpty_iff] at h ⊢
    rw [join, if_neg hq]
    intro hjoin
    have hlist := congrArg String.toList hjoin
    rcases h with h | h <;> split at hlist <;> simp [h] at hlist

/-- The names of joined paths stand one behind the other. -/
theorem names_join (hq : q.isAbsolute = false) : (p.join q).names = p.names ++ q.names := by
  obtain ⟨before, hsteps, hbefore⟩ := exists_steps_join (p := p) hq
  rw [names, hsteps, names_append]
  rcases hbefore with rfl | hbefore
  · rfl
  · rw [names, ← hbefore, names_append, names_of_not_leads (by rfl), List.append_nil]
    rfl

theorem Plain.join (hp : p.Plain) (hq : q.Plain) (hrelative : q.isAbsolute = false) :
    (p.join q).Plain := by
  obtain ⟨before, hsteps, hbefore⟩ := exists_steps_join (p := p) hrelative
  intro step hstep
  rw [hsteps] at hstep
  rcases List.mem_append.1 hstep with hstep | hstep
  · refine hp step ?_
    rcases hbefore with rfl | hbefore
    · exact hstep
    · exact hbefore ▸ List.mem_append_left _ hstep
  · exact hq step hstep

/-! ### Single names -/

section
variable {n : String}

theorem isAbsolute_of_isName (h : IsName n) : isAbsolute ⟨n⟩ = false := by
  rw [isAbsolute_eq]
  obtain ⟨c, s, hs⟩ := List.exists_cons_of_ne_nil h.ne_nil
  have hslash := h.slash_not_mem
  rw [hs] at hslash ⊢
  have hc : c ≠ '/' := fun hc => hslash (by simp [hc])
  simpa using hc

theorem steps_of_isName (h : IsName n) : steps ⟨n⟩ = [n.toList] :=
  Text.splitOn_of_not_mem h.slash_not_mem

theorem names_of_isName (h : IsName n) : names ⟨n⟩ = [n] := by
  rw [names, steps_of_isName h, names_of_leads (leads_of_isName h), String.ofList_toList]

theorem plain_of_isName (h : IsName n) : Plain ⟨n⟩ := by
  intro step hstep
  rw [steps_of_isName h] at hstep
  obtain rfl := List.mem_singleton.1 hstep
  exact h.ne_parent

theorem names_join_name (h : IsName n) : (p.join ⟨n⟩).names = p.names ++ [n] := by
  rw [names_join (isAbsolute_of_isName h), names_of_isName h]

/-! ### Components -/

theorem componentsOf_name (h : IsName n) (atStart : Bool) (pieces : List (List Char)) :
    componentsOf atStart (n.toList :: pieces) = .normal n :: componentsOf false pieces := by
  conv_lhs => unfold componentsOf
  split
  · exact absurd ‹_› h.ne_nil
  · exact absurd ‹_› h.ne_current
  · exact absurd ‹_› h.ne_parent
  · rw [String.ofList_toList]

theorem componentsOf_append_name (h : IsName n) (atStart : Bool) (pieces : List (List Char)) :
    componentsOf atStart (pieces ++ [n.toList]) =
      componentsOf atStart pieces ++ [.normal n] := by
  induction pieces generalizing atStart with
  | nil => exact componentsOf_name h atStart []
  | cons piece pieces ih =>
    rw [List.cons_append]
    unfold componentsOf
    split
    · exact ih false
    · split
      · rw [ih, List.cons_append]
      · exact ih false
    · rw [ih, List.cons_append]
    · rw [ih, List.cons_append]

theorem componentsOf_append_empty (atStart : Bool) (pieces : List (List Char)) :
    componentsOf atStart (pieces ++ [[]]) = componentsOf atStart pieces := by
  induction pieces generalizing atStart with
  | nil => rfl
  | cons piece pieces ih =>
    rw [List.cons_append]
    unfold componentsOf
    split <;> simp only [ih]

theorem components_eq (p : Path) : p.components =
    (if p.isAbsolute then [.root] else []) ++ componentsOf (!p.isAbsolute) (steps p) := by
  rw [components]
  split
  · rename_i h
    simp [h, steps]
  · rename_i h
    simp [h, steps]

/-- A name that is joined to a path is one more component. -/
theorem components_join_name (h : IsName n) :
    (p.join ⟨n⟩).components = p.components ++ [.normal n] := by
  have hrelative := isAbsolute_of_isName h
  obtain ⟨before, hsteps, hbefore⟩ := exists_steps_join (p := p) hrelative
  rw [components_eq, components_eq, isAbsolute_join hrelative, hsteps, steps_of_isName h,
    componentsOf_append_name h, List.append_assoc]
  rcases hbefore with rfl | hbefore
  · rfl
  · rw [← hbefore, componentsOf_append_empty]

end

/-- What components begin with: the root, the current folder written out, or a name. -/
inductive Base : List Component → Prop where
  | none : Base []
  | root : Base [.root]
  | current : Base [.current]

theorem ofComponents_append (cs : List Component) (c : Component) :
    ofComponents (cs ++ [c]) = (ofComponents cs).join ⟨c.text⟩ := by
  simp [ofComponents]

/-- The path that is put together from components has these components, and leads along their
names. -/
theorem components_ofComponents {base : List Component} (hb : Base base) {ns : Location}
    (hn : ∀ n ∈ ns, IsName n) :
    (ofComponents (base ++ ns.map .normal)).components = base ++ ns.map .normal ∧
      (ofComponents (base ++ ns.map .normal)).names = ns ∧
      (ofComponents (base ++ ns.map .normal)).Plain ∧
      ((ofComponents (base ++ ns.map .normal)).isAbsolute = true ↔ base = [.root]) := by
  induction ns using List.reverseRecOn with
  | nil => cases hb <;> decide
  | append_singleton ns n ih =>
    obtain ⟨hns, hname⟩ := List.forall_mem_append.1 hn
    have hname := hname n List.mem_cons_self
    obtain ⟨hcomponents, hnames, hplain, habsolute⟩ := ih hns
    rw [List.map_append, List.map_singleton, ← List.append_assoc, ofComponents_append]
    refine ⟨?_, ?_, ?_, ?_⟩
    · exact (components_join_name hname).trans (by rw [hcomponents])
    · exact (names_join_name hname).trans (by rw [hnames])
    · exact hplain.join (plain_of_isName hname) (isAbsolute_of_isName hname)
    · rw [← habsolute]
      exact (isAbsolute_join (isAbsolute_of_isName hname)).congr_left

theorem componentsOf_true {piece : List Char} (h : piece ≠ ['.']) (pieces : List (List Char)) :
    componentsOf true (piece :: pieces) = componentsOf false (piece :: pieces) := by
  unfold componentsOf
  split
  · rfl
  · exact absurd rfl h
  · rfl
  · rfl

end Path

end Scaffold
