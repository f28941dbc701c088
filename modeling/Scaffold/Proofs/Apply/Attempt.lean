import Mathlib.Data.List.Basic
import Scaffold.Apply.Attempt

/-!
# What becomes of items

Whoever works on a list of items, each of them comes to what the work on it comes to, or it is
skipped because another one has failed (`Tried`). So where none is skipped it is known what all of
them come to (`Tried.eq_map`).
-/

namespace Scaffold.Attempt

variable {ε α β γ σ : Type}

theorem isDone_iff {a : Attempt ε α} : a.isDone = true ↔ ∃ b, a = .done b := by
  cases a <;> simp [isDone, result?]

theorem result?_eq_some {a : Attempt ε α} {b : α} : a.result? = some b ↔ a = .done b := by
  cases a <;> simp [result?]

theorem ofResult_eq_done {result : Except ε β} {b : β} :
    ofResult result = .done b ↔ result = .ok b := by
  cases result <;> simp [ofResult]

theorem ofResult_eq_failed {result : Except ε β} {e : ε} :
    ofResult result = .failed e ↔ result = .error e := by
  cases result <;> simp [ofResult]

theorem isSome_error?_ofResult (result : Except ε β) :
    (ofResult result).error?.isSome = !result.isOk := by
  cases result <;> rfl

theorem eachWith_map (f : γ → α) (work : α → σ → σ × Except ε β) (items : List γ) (s : σ) :
    eachWith work (items.map f) s = eachWith (fun a => work (f a)) items s := by
  induction items generalizing s with
  | nil => rfl
  | cons a items ih =>
    rw [List.map_cons, eachWith, eachWith]
    split
    · rw [ih]
    · rw [List.map_map]
      rfl

/-- Work that leaves a state as it is can be done without it. -/
theorem eachWith_of_same (work : α → σ → Except ε β) (items : List α) (s : σ) :
    eachWith (fun a s => (s, work a s)) items s = (s, each (work · s) items) := by
  induction items with
  | nil => rfl
  | cons a items ih =>
    rw [eachWith, each]
    cases work a s <;> simp [ih]

/-- Work in order that succeeds on every item. -/
theorem each_of_ok {work : α → Except ε β} {items : List α} (h : ∀ a ∈ items, ∃ b, work a = .ok b) :
    each work items = items.map fun a => .ofResult (work a) := by
  induction items with
  | nil => rfl
  | cons a items ih =>
    obtain ⟨⟨b, hb⟩, hitems⟩ := List.forall_mem_cons.1 h
    rw [each, hb, List.map_cons, hb, ← ih hitems]
    rfl

/-! ### Items in any order -/

/-- What became of items: each comes to what the work on it comes to, or it is skipped, but only
where one has failed. -/
structure Tried (work : α → Except ε β) (items : List α) (attempts : List (Attempt ε β)) :
    Prop where
  length : attempts.length = items.length
  items : ∀ (i : Nat) (a : α), items[i]? = some a → ∃ attempt, attempts[i]? = some attempt ∧
    (attempt = .ofResult (work a) ∨ attempt = .skipped)
  skipped : .skipped ∈ attempts → ∃ e, .failed e ∈ attempts

namespace Tried

variable {work : α → Except ε β} {items : List α} {attempts : List (Attempt ε β)}
  {attempt : Attempt ε β} {i : Nat}

theorem exists_item (h : Tried work items attempts) (hi : attempts[i]? = some attempt) :
    ∃ a, items[i]? = some a ∧ (attempt = .ofResult (work a) ∨ attempt = .skipped) := by
  have hlt : i < items.length := h.length ▸ (List.getElem?_eq_some_iff.1 hi).1
  obtain ⟨attempt', hi', hcases⟩ := h.items i _ (List.getElem?_eq_getElem hlt)
  obtain rfl := Option.some.inj (hi.symm.trans hi')
  exact ⟨_, List.getElem?_eq_getElem hlt, hcases⟩

/-- What is done was made of the item at its place. -/
theorem exists_of_getElem? (h : Tried work items attempts) {b : β}
    (hi : attempts[i]? = some (.done b)) : ∃ a, items[i]? = some a ∧ work a = .ok b := by
  obtain ⟨a, ha, hcases⟩ := h.exists_item hi
  exact ⟨a, ha, ofResult_eq_done.1 (hcases.resolve_right (by simp)).symm⟩

theorem exists_of_mem (h : Tried work items attempts) {b : β} (hb : .done b ∈ attempts) :
    ∃ a ∈ items, work a = .ok b := by
  obtain ⟨i, hi⟩ := List.mem_iff_getElem?.1 hb
  obtain ⟨a, ha, hwork⟩ := h.exists_of_getElem? hi
  exact ⟨a, List.mem_of_getElem? ha, hwork⟩

theorem exists_of_failed (h : Tried work items attempts) {e : ε} (he : .failed e ∈ attempts) :
    ∃ a ∈ items, work a = .error e := by
  obtain ⟨i, hi⟩ := List.mem_iff_getElem?.1 he
  obtain ⟨a, ha, hcases⟩ := h.exists_item hi
  exact ⟨a, List.mem_of_getElem? ha, ofResult_eq_failed.1 (hcases.resolve_right (by simp)).symm⟩

/-- **Where no item is skipped it is known what they come to.** -/
theorem eq_map (h : Tried work items attempts) (hnot : .skipped ∉ attempts) :
    attempts = items.map fun a => .ofResult (work a) := by
  refine List.ext_getElem? fun i => ?_
  cases hi : attempts[i]? with
  | none =>
    rw [List.getElem?_eq_none_iff, h.length] at hi
    exact (List.getElem?_eq_none (by simpa using hi)).symm
  | some attempt =>
    obtain ⟨a, ha, hcases⟩ := h.exists_item hi
    obtain rfl := hcases.resolve_right fun heq => hnot (heq ▸ List.mem_of_getElem? hi)
    rw [List.getElem?_map, ha, Option.map_some]

/-- Where the work on every item succeeds, none is skipped. -/
theorem not_skipped (h : Tried work items attempts) (hok : ∀ a ∈ items, ∃ b, work a = .ok b) :
    .skipped ∉ attempts := by
  intro hskipped
  obtain ⟨e, he⟩ := h.skipped hskipped
  obtain ⟨a, ha, herror⟩ := h.exists_of_failed he
  obtain ⟨b, hb⟩ := hok a ha
  rw [hb] at herror
  cases herror

end Tried

end Scaffold.Attempt
