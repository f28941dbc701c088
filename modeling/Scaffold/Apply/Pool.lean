import Scaffold.Apply.Attempt

/-!
# Workers

Items are worked on by workers, each of which takes the next item when it is free. The work on an
item is done in acts, and between two acts of one worker the others may do any number of theirs. An
item that fails does not stop the work on others: only what is taken from then on is skipped. Who
goes on when is told by a schedule.
-/

namespace Scaffold

/-! ### Tasks -/

/-- Work on a state: acts, each of which is done in one go, and a result. How the work goes on is
decided by the state that an act finds. -/
inductive Task (σ ρ : Type) where
  | ended (result : ρ)
  | act (change : σ → σ) (next : σ → Task σ ρ)

namespace Task

variable {σ ρ τ : Type}

/-- An act that has an outcome, and what is to be done then. -/
def doing (f : σ → σ × τ) (next : τ → Task σ ρ) : Task σ ρ :=
  .act (fun s => (f s).1) fun s => next (f s).2

/-- The state is looked at once and left as it is. -/
def looking (f : σ → ρ) : Task σ ρ := .doing (fun s => (s, f s)) .ended

/-- All acts are done without a break. -/
def run : Task σ ρ → σ → σ × ρ
  | .ended r, s => (s, r)
  | .act change next, s => run (next s) (change s)

end Task

/-! ### Pools -/

/-- What was done for an item in one go: the state that was found, and the state that was left. -/
structure Act (σ : Type) where
  index : Nat
  before : σ
  behind : σ

/-- How far the work on an item is. -/
inductive Cell (σ ε β : Type) where
  | waiting (task : Task σ (Except ε β))
  /-- A worker has the item, and is about to look whether another one has failed. -/
  | taken (task : Task σ (Except ε β))
  | working (task : Task σ (Except ε β))
  | ended (attempt : Attempt ε β)

namespace Cell

variable {σ ε β : Type}

/-- No worker has taken the item. -/
def isWaiting : Cell σ ε β → Bool
  | .waiting _ => true
  | _ => false

/-- A worker has the item. -/
def isBusy : Cell σ ε β → Bool
  | .taken _ | .working _ => true
  | _ => false

/-- What became of the item, if the work on it is over. -/
def attempt? : Cell σ ε β → Option (Attempt ε β)
  | .ended a => some a
  | _ => none

end Cell

/-- Items in their order, and a state that they are worked on with. -/
structure Pool (σ ε β : Type) where
  state : σ
  /-- A worker has told that an item failed. -/
  failed : Bool
  cells : List (Cell σ ε β)
  /-- What has been done, in order. No worker looks at it. -/
  log : List (Act σ)

namespace Pool

variable {σ ε β : Type}

/-- All items wait. -/
def start (tasks : List (Task σ (Except ε β))) (s : σ) : Pool σ ε β :=
  ⟨s, false, tasks.map .waiting, []⟩

/-- The number of workers that have an item. -/
def busy (p : Pool σ ε β) : Nat := p.cells.countP Cell.isBusy

/-- The pool with an item that is further on. -/
def put (p : Pool σ ε β) (i : Nat) (c : Cell σ ε β) : Pool σ ε β :=
  ⟨p.state, p.failed, p.cells.set i c, p.log⟩

/-- It is the turn of an item: a free worker takes it if it is the next one, or the worker that has
it goes on. -/
def turn (workers : Nat) (p : Pool σ ε β) (i : Nat) : Pool σ ε β :=
  match p.cells[i]? with
  | some (.waiting task) =>
    if p.busy < workers ∧ (p.cells.take i).all (!·.isWaiting) then p.put i (.taken task) else p
  | some (.taken task) => p.put i (if p.failed then .ended .skipped else .working task)
  | some (.working (.act change next)) =>
    ⟨change p.state, p.failed, p.cells.set i (.working (next p.state)),
      p.log ++ [⟨i, p.state, change p.state⟩]⟩
  | some (.working (.ended (.ok b))) => p.put i (.ended (.done b))
  | some (.working (.ended (.error e))) =>
    ⟨p.state, true, p.cells.set i (.ended (.failed e)), p.log⟩
  | _ => p

/-- The items have their turns as a schedule tells. -/
def follow (workers : Nat) (p : Pool σ ε β) (schedule : List Nat) : Pool σ ε β :=
  schedule.foldl (turn workers) p

/-- A schedule under which workers bring all of their tasks to an end. -/
structure Run (workers : Nat) (tasks : List (Task σ (Except ε β))) (s : σ) where
  schedule : List Nat
  isOver : ((start tasks s).follow workers schedule).cells.all (·.attempt?.isSome) = true

namespace Run

variable {workers : Nat} {tasks : List (Task σ (Except ε β))} {s : σ}

/-- The pool at the end. -/
def pool (r : Run workers tasks s) : Pool σ ε β := (start tasks s).follow workers r.schedule

/-- What became of the items. -/
def attempts (r : Run workers tasks s) : List (Attempt ε β) :=
  r.pool.cells.map fun c => c.attempt?.getD .skipped

end Run

end Pool
end Scaffold
