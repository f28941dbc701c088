import Scaffold.Proofs.Apply.Pool

/-!
# One item after the other

One worker can do nothing else than work on the items one after the other (`Run.eq_inOrder`), and
more workers can do so too (`exists_inOrder`): there is a run, whatever the tasks are.
-/

namespace Scaffold.Pool

variable {σ ε β : Type} {workers i : Nat} {p : Pool σ ε β} {tasks : List (Task σ (Except ε β))}
  {s : σ}

/-! ### One item after the other -/

theorem exists_ended {c : Cell σ ε β} (h : c.attempt?.isSome = true) :
    ∃ attempt, c = .ended attempt := by
  cases c with
  | ended attempt => exact ⟨attempt, rfl⟩
  | _ => cases h

/-- An item is over if it does not wait and no worker has it. -/
theorem isSome_attempt?_iff {c : Cell σ ε β} :
    c.attempt?.isSome = true ↔ c.isBusy = false ∧ c.isWaiting = false := by
  cases c <;> simp [Cell.attempt?, Cell.isBusy, Cell.isWaiting]

/-- What an item comes to if the rest of it is done without a break. -/
def finish (failed : Bool) (s : σ) : Cell σ ε β → σ × Attempt ε β
  | .ended attempt => (s, attempt)
  | .working task => ((task.run s).1, .ofResult (task.run s).2)
  | .waiting task | .taken task =>
    if failed then (s, .skipped) else ((task.run s).1, .ofResult (task.run s).2)

/-- What items come to if the rest of them is done in order. -/
def finishAll : Bool → σ → List (Cell σ ε β) → σ × List (Attempt ε β)
  | _, s, [] => (s, [])
  | failed, s, c :: cells =>
    let (s, attempt) := finish failed s c
    let (s, more) := finishAll (failed || attempt.error?.isSome) s cells
    (s, attempt :: more)

theorem finishAll_waiting (failed : Bool) (s : σ) (tasks : List (Task σ (Except ε β))) :
    finishAll failed s (tasks.map .waiting) =
      if failed then (s, tasks.map fun _ => .skipped) else Attempt.eachWith Task.run tasks s := by
  induction tasks generalizing failed s with
  | nil => cases failed <;> rfl
  | cons task tasks ih =>
    cases failed with
    | true => simp [finishAll, finish, ih]
    | false =>
      rw [List.map_cons, finishAll, finish, Attempt.eachWith]
      obtain ⟨s', result⟩ := task.run s
      cases result <;> simp [Attempt.ofResult, Attempt.error?, ih]

/-- The items that are over come first. An item that has failed is known to have. -/
def Over (failed : Bool) (c : Cell σ ε β) : Prop :=
  ∃ attempt, c = .ended attempt ∧ (attempt.error?.isSome = true → failed = true)

theorem finishAll_append_of_ended {failed : Bool} {before : List (Cell σ ε β)}
    (h : ∀ c ∈ before, Over failed c) (s : σ) (cells : List (Cell σ ε β)) :
    finishAll failed s (before ++ cells) = ((finishAll failed s cells).1,
      (before.map fun c => c.attempt?.getD .skipped) ++ (finishAll failed s cells).2) := by
  induction before with
  | nil => rfl
  | cons c before ih =>
    obtain ⟨⟨attempt, rfl, htold⟩, hbefore⟩ := List.forall_mem_cons.1 h
    have hflag : (failed || attempt.error?.isSome) = failed := by
      cases herror : attempt.error?.isSome with
      | true => rw [htold herror]; rfl
      | false => exact Bool.or_false _
    rw [List.cons_append, finishAll, finish]
    simp only [hflag, ih hbefore]
    rfl

/-- A pool in which an item was taken only when those before it were over. -/
structure InTurn (p : Pool σ ε β) : Prop where
  order : p.cells.Pairwise fun c c' => c'.isWaiting = false → c.attempt?.isSome = true
  told : ∀ attempt, .ended attempt ∈ p.cells → attempt.error?.isSome = true → p.failed = true

theorem inTurn_start (tasks : List (Task σ (Except ε β))) (s : σ) : InTurn (start tasks s) where
  order := by
    rw [start, List.pairwise_map]
    exact List.pairwise_of_forall (by simp [Cell.isWaiting])
  told := by simp [start]

theorem InTurn.over (h : InTurn p) {c : Cell σ ε β} (hc : c ∈ p.cells)
    (hended : c.attempt?.isSome = true) : Over p.failed c := by
  obtain ⟨attempt, rfl⟩ := exists_ended hended
  exact ⟨attempt, rfl, h.told attempt hc⟩

section
variable {q : Pool σ ε β} {c c' : Cell σ ε β}

/-- An item whose turn it is goes on, and the pool still comes to what it would have come to. -/
theorem InTurn.go_on (h : InTurn p) (hc : p.cells[i]? = some c) (hopen : c.attempt? = none)
    (hfirst : ∀ b ∈ p.cells.take i, b.attempt?.isSome = true) (hq : q.cells = p.cells.set i c')
    (hfailed : p.failed = true → q.failed = true)
    (htold : ∀ attempt, c' = .ended attempt → attempt.error?.isSome = true → q.failed = true)
    (hfinish : ∀ cells, finishAll q.failed q.state (c' :: cells) =
      finishAll p.failed p.state (c :: cells)) :
    InTurn q ∧ finishAll q.failed q.state q.cells = finishAll p.failed p.state p.cells := by
  obtain ⟨hlt, rfl⟩ := List.getElem?_eq_some_iff.1 hc
  have hsplit : p.cells = p.cells.take i ++ p.cells[i] :: p.cells.drop (i + 1) := by simp
  rw [List.set_eq_take_append_cons_drop, if_pos hlt] at hq
  generalize p.cells.take i = before at hsplit hq hfirst
  generalize p.cells.drop (i + 1) = after at hsplit hq
  generalize p.cells[i] = c at hsplit hopen hfinish
  have hover : ∀ b ∈ before, Over p.failed b := fun b hb =>
    h.over (hsplit ▸ List.mem_append_left _ hb) (hfirst b hb)
  obtain ⟨order, told⟩ := h
  rw [hsplit] at order told ⊢
  obtain ⟨hbefore, hafter, hacross⟩ := List.pairwise_append.1 order
  obtain ⟨hlater, hafter⟩ := List.pairwise_cons.1 hafter
  have hwaiting : ∀ d ∈ after, d.isWaiting = true := by
    intro d hd
    by_contra hnot
    have hended := hlater d hd (Bool.eq_false_iff.2 hnot)
    rw [hopen] at hended
    cases hended
  refine ⟨⟨?_, fun attempt hmem herror => ?_⟩, ?_⟩
  · rw [hq]
    refine List.pairwise_append.2 ⟨hbefore, List.pairwise_cons.2 ⟨fun d hd hnot => ?_, hafter⟩,
      fun b hb _ _ _ => hfirst b hb⟩
    rw [hwaiting d hd] at hnot
    cases hnot
  · rw [hq] at hmem
    rcases List.mem_append.1 hmem with hmem | hmem
    · exact hfailed (told attempt (List.mem_append_left _ hmem) herror)
    · rcases List.mem_cons.1 hmem with heq | hmem
      · exact htold attempt heq.symm herror
      · exact absurd (hwaiting _ hmem) (by simp [Cell.isWaiting])
  · have hover' : ∀ b ∈ before, Over q.failed b := fun b hb => by
      obtain ⟨attempt, hb, htold⟩ := hover b hb
      exact ⟨attempt, hb, fun herror => hfailed (htold herror)⟩
    rw [hq, finishAll_append_of_ended hover', finishAll_append_of_ended hover, hfinish]

end

/-- **What a turn of one worker keeps**: the items are worked on in order, and what they come to
stays the same. -/
theorem InTurn.turn (h : InTurn p) (i : Nat) : InTurn (p.turn 1 i) ∧
    finishAll (p.turn 1 i).failed (p.turn 1 i).state (p.turn 1 i).cells =
      finishAll p.failed p.state p.cells := by
  have hturn := turn_cases 1 p i
  -- the items before one that was taken are over
  have hfirst : ∀ {c}, p.cells[i]? = some c → c.isWaiting = false →
      ∀ b ∈ p.cells.take i, b.attempt?.isSome = true := by
    intro c hc hnot b hb
    obtain ⟨j, hj, rfl⟩ := List.mem_take_iff_getElem.1 hb
    obtain ⟨hi, rfl⟩ := List.getElem?_eq_some_iff.1 hc
    exact List.pairwise_iff_getElem.1 h.order j i _ hi (by omega) hnot
  generalize p.turn 1 i = q at hturn
  cases hturn with
  | stays => exact ⟨h, rfl⟩
  | takes hc hfree hnext =>
    have hidle : ∀ b ∈ p.cells, b.isBusy = false := by
      rw [busy, Nat.lt_one_iff, List.countP_eq_zero] at hfree
      exact fun b hb => Bool.eq_false_iff.2 (hfree b hb)
    refine h.go_on hc rfl (fun b hb => isSome_attempt?_iff.2 ⟨?_, hnext b hb⟩) rfl id nofun
      fun _ => rfl
    exact hidle b (List.mem_of_mem_take hb)
  | skips hc hfailed =>
    refine h.go_on hc rfl (hfirst hc rfl) rfl id (fun _ _ _ => hfailed) fun cells => ?_
    simp [put, finishAll, finish, hfailed]
  | begins hc hfailed =>
    refine h.go_on hc rfl (hfirst hc rfl) rfl id nofun fun cells => ?_
    simp [put, finishAll, finish, hfailed]
  | acts hc => exact h.go_on hc rfl (hfirst hc rfl) rfl id nofun fun _ => rfl
  | @ends result hc =>
    refine h.go_on hc rfl (hfirst hc rfl) rfl ?_ ?_ fun cells => ?_
    · intro hfailed
      simp [hfailed]
    · rintro _ heq herror
      rw [← Cell.ended.inj heq, Attempt.isSome_error?_ofResult] at herror
      simp [herror]
    · simp [finishAll, finish, Task.run, Attempt.isSome_error?_ofResult]

theorem InTurn.follow (h : InTurn p) (schedule : List Nat) : InTurn (p.follow 1 schedule) ∧
    finishAll (p.follow 1 schedule).failed (p.follow 1 schedule).state (p.follow 1 schedule).cells =
      finishAll p.failed p.state p.cells := by
  induction schedule generalizing p with
  | nil => exact ⟨h, rfl⟩
  | cons i schedule ih =>
    obtain ⟨hturn, hsame⟩ := h.turn i
    obtain ⟨hrest, hall⟩ := ih hturn
    exact ⟨hrest, hall.trans hsame⟩

/-- **One worker does one item after the other**: what it comes to is told by the tasks alone. -/
theorem Run.eq_inOrder (hone : workers = 1) (r : Run workers tasks s) :
    (r.pool.state, r.attempts) = Attempt.eachWith Task.run tasks s := by
  subst hone
  obtain ⟨hturn, hsame⟩ := (inTurn_start tasks s).follow r.schedule
  have hover : ∀ c ∈ r.pool.cells, Over r.pool.failed c := fun c hc =>
    hturn.over hc (List.all_eq_true.1 r.isOver c hc)
  have hfinish := finishAll_append_of_ended hover r.pool.state []
  rw [List.append_nil] at hfinish
  calc (r.pool.state, r.attempts)
      = finishAll r.pool.failed r.pool.state r.pool.cells := by
        rw [hfinish]
        simp [attempts, finishAll]
    _ = finishAll false s (tasks.map .waiting) := hsame
    _ = Attempt.eachWith Task.run tasks s := finishAll_waiting false s tasks

/-! ### Runs that there are -/

theorem follow_append (workers : Nat) (p : Pool σ ε β) (a b : List Nat) :
    p.follow workers (a ++ b) = (p.follow workers a).follow workers b := List.foldl_append

/-- An item that is being worked on can be brought to an end. -/
theorem exists_follow_working {task : Task σ (Except ε β)}
    (h : p.cells[i]? = some (.working task)) (workers : Nat) :
    ∃ schedule attempt, (p.follow workers schedule).cells = p.cells.set i (.ended attempt) := by
  induction task generalizing p with
  | ended result =>
    refine ⟨[i], .ofResult result, ?_⟩
    cases result <;> simp [follow, turn, h, put, Attempt.ofResult]
  | act change next ih =>
    obtain ⟨hlt, -⟩ := List.getElem?_eq_some_iff.1 h
    have hturn : (p.turn workers i).cells = p.cells.set i (.working (next p.state)) := by
      simp [turn, h]
    obtain ⟨schedule, attempt, hcells⟩ := ih p.state (p := p.turn workers i) (by simp [hturn, hlt])
    exact ⟨i :: schedule, attempt, hcells.trans (by rw [hturn, List.set_set])⟩

theorem turn_of_taken {task : Task σ (Except ε β)} (h : p.cells[i]? = some (.taken task))
    (workers : Nat) :
    p.turn workers i = p.put i (if p.failed then .ended .skipped else .working task) := by
  simp only [turn, h]

/-- The next item can be brought to an end by a worker that is free. -/
theorem exists_follow_waiting {task : Task σ (Except ε β)} (h : p.cells[i]? = some (.waiting task))
    (hfree : p.busy < workers) (hnext : (p.cells.take i).all (!·.isWaiting) = true) :
    ∃ schedule attempt, (p.follow workers schedule).cells = p.cells.set i (.ended attempt) := by
  obtain ⟨hlt, -⟩ := List.getElem?_eq_some_iff.1 h
  have htake : p.turn workers i = p.put i (.taken task) := by
    simp only [turn, h, hfree, hnext, true_and, if_true]
  have htaken : (p.put i (.taken task)).cells[i]? = some (.taken task) := by simp [put, hlt]
  have hlook := turn_of_taken htaken workers
  cases hfailed : p.failed with
  | true =>
    refine ⟨[i, i], .skipped, ?_⟩
    rw [follow, List.foldl_cons, List.foldl_cons, List.foldl_nil, htake, hlook]
    simp [put, hfailed]
  | false =>
    have hworking : ((p.put i (.taken task)).turn workers i).cells =
        p.cells.set i (.working task) := by
      rw [hlook]
      simp [put, hfailed]
    have hhere : ((p.put i (.taken task)).turn workers i).cells[i]? = some (.working task) := by
      simp [hworking, hlt]
    obtain ⟨schedule, attempt, hcells⟩ := exists_follow_working hhere workers
    refine ⟨i :: i :: schedule, attempt, ?_⟩
    rw [follow, List.foldl_cons, List.foldl_cons, htake]
    exact hcells.trans (by rw [hworking, List.set_set])

/-- One worker can bring all items to an end. -/
theorem exists_follow {before : List (Cell σ ε β)}
    (hbefore : ∀ c ∈ before, c.attempt?.isSome = true)
    (hcells : p.cells = before ++ tasks.map .waiting) :
    ∃ schedule, (p.follow 1 schedule).cells.all (·.attempt?.isSome) = true := by
  induction tasks generalizing p before with
  | nil => exact ⟨[], List.all_eq_true.2 (by simpa [follow, hcells] using hbefore)⟩
  | cons task tasks ih =>
    have hover : ∀ c ∈ before, c.isBusy = false ∧ c.isWaiting = false := fun c hc =>
      isSome_attempt?_iff.1 (hbefore c hc)
    have hfree : p.busy < 1 := by
      rw [busy, Nat.lt_one_iff, List.countP_eq_zero, hcells]
      refine List.forall_mem_append.2 ⟨fun c hc => by simp [hover c hc], ?_⟩
      exact List.forall_mem_map.2 fun _ _ => Bool.false_ne_true
    have hnext : (p.cells.take before.length).all (!·.isWaiting) = true := by
      rw [hcells, List.take_left]
      exact List.all_eq_true.2 fun c hc => by simp [hover c hc]
    have hhere : p.cells[before.length]? = some (.waiting task) := by simp [hcells]
    obtain ⟨first, attempt, hfirst⟩ := exists_follow_waiting hhere hfree hnext
    have hcells' :
        (p.follow 1 first).cells = (before ++ [.ended attempt]) ++ tasks.map .waiting := by
      rw [hfirst, hcells]
      simp
    obtain ⟨rest, hall⟩ := ih (List.forall_mem_append.2 ⟨hbefore, by simp [Cell.attempt?]⟩) hcells'
    exact ⟨first ++ rest, by rwa [follow_append]⟩

/-- Where one worker goes on, one of several can do the same. -/
theorem turn_one_cases (hw : 0 < workers) (p : Pool σ ε β) (i : Nat) :
    p.turn 1 i = p.turn workers i ∨ p.turn 1 i = p := by
  unfold turn
  split
  · split
    · rename_i hnext
      exact .inl (if_pos ⟨by omega, hnext.2⟩).symm
    · exact .inr rfl
  all_goals exact .inl rfl

/-- What one worker does can be done with any number of workers: the others take nothing. -/
theorem exists_follow_eq (hw : 0 < workers) (p : Pool σ ε β) (schedule : List Nat) :
    ∃ schedule', p.follow workers schedule' = p.follow 1 schedule := by
  induction schedule generalizing p with
  | nil => exact ⟨[], rfl⟩
  | cons i schedule ih =>
    obtain ⟨rest, hrest⟩ := ih (p.turn 1 i)
    rcases turn_one_cases hw p i with hsame | hstays
    · exact ⟨i :: rest, (congrArg (follow workers · rest) hsame.symm).trans hrest⟩
    · exact ⟨rest, (congrArg (follow workers · rest) hstays.symm).trans hrest⟩

/-- **The items can be worked on one after the other**, whatever the number of workers. -/
theorem exists_inOrder (hw : 0 < workers) (tasks : List (Task σ (Except ε β))) (s : σ) :
    ∃ r : Run workers tasks s,
      (r.pool.state, r.attempts) = Attempt.eachWith Task.run tasks s := by
  have hnothing : ∀ c ∈ ([] : List (Cell σ ε β)), c.attempt?.isSome = true := by simp
  obtain ⟨one, hone⟩ := exists_follow (p := start tasks s) hnothing rfl
  obtain ⟨schedule, hsame⟩ := exists_follow_eq hw (start tasks s) one
  exact ⟨⟨schedule, hsame ▸ hone⟩, by
    rw [← Run.eq_inOrder rfl ⟨one, hone⟩]
    simp only [Run.pool, Run.attempts, hsame]⟩

end Scaffold.Pool
