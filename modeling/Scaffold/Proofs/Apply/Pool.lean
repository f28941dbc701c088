import Scaffold.Proofs.Apply.Interleaving

/-!
# What workers do

Whatever the schedule, a turn of an item does one of a few things (`turn_cases`), and each of them
keeps that the acts of an item are those of its task, in order. So a run is an interleaving of the
tasks of its items, of which some are skipped if one has failed (`Run.interleaving`).
-/

namespace Scaffold

variable {σ ε β : Type}

namespace Pool

variable {workers i : Nat} {p : Pool σ ε β} {tasks : List (Task σ (Except ε β))} {s : σ}
  {schedule : List Nat}

/-! ### Turns -/

/-- What a turn of an item can do. -/
inductive Turn (workers : Nat) (p : Pool σ ε β) (i : Nat) : Pool σ ε β → Prop where
  | stays : Turn workers p i p
  | takes {task : Task σ (Except ε β)} (h : p.cells[i]? = some (.waiting task))
      (hfree : p.busy < workers) (hnext : ∀ c ∈ p.cells.take i, c.isWaiting = false) :
    Turn workers p i (p.put i (.taken task))
  | skips {task : Task σ (Except ε β)} (h : p.cells[i]? = some (.taken task))
      (hfailed : p.failed = true) : Turn workers p i (p.put i (.ended .skipped))
  | begins {task : Task σ (Except ε β)} (h : p.cells[i]? = some (.taken task))
      (hfailed : p.failed = false) : Turn workers p i (p.put i (.working task))
  | acts {change : σ → σ} {next : σ → Task σ (Except ε β)}
      (h : p.cells[i]? = some (.working (.act change next))) :
    Turn workers p i ⟨change p.state, p.failed, p.cells.set i (.working (next p.state)),
      p.log ++ [⟨i, p.state, change p.state⟩]⟩
  | ends {result : Except ε β} (h : p.cells[i]? = some (.working (.ended result))) :
    Turn workers p i ⟨p.state, p.failed || !result.isOk,
      p.cells.set i (.ended (.ofResult result)), p.log⟩

theorem turn_cases (workers : Nat) (p : Pool σ ε β) (i : Nat) :
    Turn workers p i (p.turn workers i) := by
  rw [turn]
  split
  · rename_i task h
    split
    · rename_i hnext
      exact .takes h hnext.1 (by simpa using hnext.2)
    · exact .stays
  · rename_i task h
    cases hfailed : p.failed with
    | true => exact .skips h hfailed
    | false => exact .begins h hfailed
  · exact .acts ‹_›
  · rename_i b h
    have hend : Turn workers p i _ := .ends h
    rwa [show (p.failed || !(Except.ok b : Except ε β).isOk) = p.failed from Bool.or_false _]
      at hend
  · rename_i e h
    have hend : Turn workers p i _ := .ends h
    rwa [show (p.failed || !(Except.error e : Except ε β).isOk) = true from Bool.or_true _] at hend
  · exact .stays

/-! ### What all runs have in common -/

/-- How far the task of an item has come that has done these acts. -/
inductive Reached (task : Task σ (Except ε β)) : List (Act σ) → Cell σ ε β → Prop where
  | waiting : Reached task [] (.waiting task)
  | taken : Reached task [] (.taken task)
  | working {acts : List (Act σ)} {left : Task σ (Except ε β)} (h : task.Does acts left) :
    Reached task acts (.working left)
  | ended {acts : List (Act σ)} {attempt : Attempt ε β} (h : task.Ends acts attempt) :
    Reached task acts (.ended attempt)

/-- A pool that tasks have come to, from a state. -/
structure Traced (tasks : List (Task σ (Except ε β))) (s : σ) (p : Pool σ ε β) : Prop where
  length : p.cells.length = tasks.length
  history : History s p.log p.state
  index : ∀ a ∈ p.log, a.index < tasks.length
  items : ∀ (i : Nat) (task : Task σ (Except ε β)), tasks[i]? = some task →
    ∃ c, p.cells[i]? = some c ∧ Reached task (actsOf i p.log) c

theorem traced_start (tasks : List (Task σ (Except ε β))) (s : σ) :
    Traced tasks s (start tasks s) where
  length := List.length_map _
  history := rfl
  index := by simp [start]
  items i task h := ⟨.waiting task, by simp [start, h], .waiting⟩

/-- An item goes on without an act. -/
theorem Traced.put (h : Traced tasks s p) {c c' : Cell σ ε β} (hc : p.cells[i]? = some c)
    (hgo : ∀ task acts, Reached task acts c → Reached task acts c') (failed : Bool) :
    Traced tasks s ⟨p.state, failed, p.cells.set i c', p.log⟩ where
  length := by rw [List.length_set, h.length]
  history := h.history
  index := h.index
  items j task hj := by
    obtain ⟨old, hold, hreached⟩ := h.items j task hj
    by_cases hij : i = j
    · subst hij
      obtain rfl := Option.some.inj (hc.symm.trans hold)
      exact ⟨c', by simp [List.getElem?_set_self', hc], hgo _ _ hreached⟩
    · exact ⟨old, by rwa [List.getElem?_set_ne hij], hreached⟩

/-- **What a turn keeps**: the acts follow one another, and those of each item are acts of its
task. -/
theorem Traced.turn (h : Traced tasks s p) (workers i : Nat) :
    Traced tasks s (p.turn workers i) := by
  have hturn := turn_cases workers p i
  generalize p.turn workers i = p' at hturn
  cases hturn with
  | stays => exact h
  | takes hc =>
    refine h.put hc (fun task acts hreached => ?_) _
    cases hreached with
    | waiting => exact .taken
  | skips hc =>
    refine h.put hc (fun task acts hreached => ?_) _
    cases hreached with
    | taken => exact .ended .skipped
  | begins hc =>
    refine h.put hc (fun task acts hreached => ?_) _
    cases hreached with
    | taken => exact .working (.nil _)
  | ends hc =>
    refine h.put hc (fun task acts hreached => ?_) _
    cases hreached with
    | working hdoes => exact .ended (.ended hdoes)
  | @acts change next hc =>
    have hlt : i < tasks.length := h.length ▸ (List.getElem?_eq_some_iff.1 hc).1
    refine ⟨?_, ?_, ?_, fun j task hj => ?_⟩
    · rw [List.length_set, h.length]
    · exact history_append.2 ⟨p.state, h.history, rfl, rfl⟩
    · exact List.forall_mem_append.2 ⟨h.index, List.forall_mem_singleton.2 hlt⟩
    · obtain ⟨old, hold, hreached⟩ := h.items j task hj
      rw [actsOf_concat]
      by_cases hij : i = j
      · subst hij
        obtain rfl := Option.some.inj (hc.symm.trans hold)
        rw [if_pos rfl]
        refine ⟨.working (next p.state), by simp [List.getElem?_set_self', hc], ?_⟩
        generalize actsOf i p.log = acts at hreached ⊢
        cases hreached with
        | working hdoes => exact .working (hdoes.concat rfl)
      · rw [if_neg hij, List.append_nil]
        exact ⟨old, by rwa [List.getElem?_set_ne hij], hreached⟩

theorem Traced.follow (h : Traced tasks s p) (workers : Nat) (schedule : List Nat) :
    Traced tasks s (p.follow workers schedule) := by
  induction schedule generalizing p with
  | nil => exact h
  | cons i schedule ih => exact ih (h.turn workers i)

/-! ### Items that are skipped -/

/-- That an item has failed is told only if one has, and only then items are skipped. -/
structure Honest (p : Pool σ ε β) : Prop where
  failed : p.failed = true → ∃ e, .ended (.failed e) ∈ p.cells
  skipped : .ended .skipped ∈ p.cells → p.failed = true

/-- An item that is not over goes on. -/
theorem Honest.set (h : Honest p) {c c' : Cell σ ε β} (hc : p.cells[i]? = some c)
    (hopen : c.attempt? = none) {q : Pool σ ε β} (hq : q.cells = p.cells.set i c')
    (hfailed : q.failed = true → p.failed = true ∨ ∃ e, c' = .ended (.failed e))
    (hkept : p.failed = true → q.failed = true)
    (hskipped : c' = .ended .skipped → q.failed = true) :
    Honest q := by
  obtain ⟨hlt, hget⟩ := List.getElem?_eq_some_iff.1 hc
  refine ⟨fun hfail => ?_, fun hmem => ?_⟩
  · rw [hq]
    rcases hfailed hfail with hfail | ⟨e, rfl⟩
    · obtain ⟨e, he⟩ := h.failed hfail
      obtain ⟨j, hj, hcell⟩ := List.mem_iff_getElem.1 he
      have hij : i ≠ j := by
        rintro rfl
        rw [← hget, hcell] at hopen
        cases hopen
      refine ⟨e, List.mem_iff_getElem.2 ⟨j, by simpa using hj, ?_⟩⟩
      rw [List.getElem_set_ne hij, hcell]
    · exact ⟨e, List.mem_set hlt _⟩
  · rw [hq] at hmem
    rcases List.mem_or_eq_of_mem_set hmem with hmem | heq
    · exact hkept (h.skipped hmem)
    · exact hskipped heq.symm

theorem Honest.turn (h : Honest p) (workers i : Nat) : Honest (p.turn workers i) := by
  have hturn := turn_cases workers p i
  generalize p.turn workers i = q at hturn
  cases hturn with
  | stays => exact h
  | takes hc => exact h.set hc rfl rfl .inl id nofun
  | skips hc hfailed => exact h.set hc rfl rfl .inl id fun _ => hfailed
  | begins hc => exact h.set hc rfl rfl .inl id nofun
  | acts hc => exact h.set hc rfl rfl .inl id nofun
  | @ends result hc =>
    refine h.set hc rfl rfl ?_ ?_ ?_
    · cases result with
      | ok b => exact fun hfailed => .inl (by simpa [Except.isOk, Except.toBool] using hfailed)
      | error e => exact fun _ => .inr ⟨e, rfl⟩
    · intro hfailed
      simp [hfailed]
    · cases result <;> exact nofun

/-- **Items are skipped only where one has failed.** -/
theorem Run.exists_failed_of_skipped (r : Run workers tasks s) (h : .skipped ∈ r.attempts) :
    ∃ e, .failed e ∈ r.attempts := by
  have hfollow : ∀ (schedule : List Nat) {p : Pool σ ε β}, Honest p →
      Honest (p.follow workers schedule) := by
    intro schedule
    induction schedule with
    | nil => exact fun h => h
    | cons i schedule ih => exact fun h => ih (h.turn workers i)
  have honest : Honest r.pool := hfollow r.schedule ⟨nofun, by simp [start]⟩
  obtain ⟨c, hc, hskipped⟩ := List.mem_map.1 h
  have hover := List.all_eq_true.1 r.isOver c hc
  cases c with
  | ended attempt =>
    obtain rfl : attempt = .skipped := hskipped
    obtain ⟨e, he⟩ := honest.failed (honest.skipped hc)
    exact ⟨e, List.mem_map.2 ⟨_, he, rfl⟩⟩
  | _ => cases hover

/-- **A run interleaves the tasks of its items**, whatever the schedule is. -/
theorem Run.interleaving (r : Run workers tasks s) :
    Interleaving tasks s r.attempts r.pool.state r.pool.log := by
  have h : Traced tasks s r.pool := (traced_start tasks s).follow workers r.schedule
  refine ⟨?_, h.history, h.index, fun i task hi => ?_, r.exists_failed_of_skipped⟩
  · rw [attempts, List.length_map, h.length]
  · obtain ⟨c, hc, hreached⟩ := h.items i task hi
    have hover := List.all_eq_true.1 r.isOver c (List.mem_of_getElem? hc)
    generalize actsOf i r.pool.log = acts at hreached ⊢
    cases hreached with
    | waiting => cases hover
    | taken => cases hover
    | working _ => cases hover
    | @ended acts attempt hends =>
      exact ⟨attempt, by simp [attempts, hc, Cell.attempt?], hends⟩

-- two workers: the failure of the first item does not stop the work on the second one
example :
    let tasks : List (Task Nat (Except String Nat)) :=
      [.ended (.error "e"), .doing (fun n => (n + 1, n)) fun n => .ended (.ok n)]
    let p := (start tasks 0).follow 2 [0, 1, 0, 1, 0, 1, 1]
    p.cells.map Cell.attempt? = [some (.failed "e"), some (.done 0)] ∧ p.state = 1 := by
  exact ⟨rfl, rfl⟩

end Pool
end Scaffold
