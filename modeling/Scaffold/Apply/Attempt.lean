/-!
# Attempts

Work on a list of items stops at the first failure: the items before it are done, it has
failed, and the items behind it are skipped.
-/

namespace Scaffold

/-- What became of an item. -/
inductive Attempt (ε α : Type) where
  | done (result : α)
  | failed (error : ε)
  | skipped
deriving Inhabited

namespace Attempt

variable {ε α β σ : Type}

/-- The result, if there is one. -/
def result? : Attempt ε α → Option α
  | .done a => some a
  | _ => none

/-- The error, if there is one. -/
def error? : Attempt ε α → Option ε
  | .failed e => some e
  | _ => none

/-- The item is done. -/
def isDone (a : Attempt ε α) : Bool := a.result?.isSome

/-- What becomes of an item whose work has a result. -/
def ofResult : Except ε α → Attempt ε α
  | .ok a => .done a
  | .error e => .failed e

/-- Every item is worked on in order until one fails. -/
def each (work : α → Except ε β) : List α → List (Attempt ε β)
  | [] => []
  | a :: rest =>
    match work a with
    | .ok b => .done b :: each work rest
    | .error e => .failed e :: rest.map fun _ => .skipped

/-- Every item is worked on in order until one fails, and the work changes a state. -/
def eachWith (work : α → σ → σ × Except ε β) : List α → σ → σ × List (Attempt ε β)
  | [], s => (s, [])
  | a :: rest, s =>
    match work a s with
    | (s, .ok b) =>
      let (s, more) := eachWith work rest s
      (s, .done b :: more)
    | (s, .error e) => (s, .failed e :: rest.map fun _ => .skipped)

@[simp] theorem length_eachWith (work : α → σ → σ × Except ε β) (items : List α) (s : σ) :
    (eachWith work items s).2.length = items.length := by
  induction items generalizing s with
  | nil => rfl
  | cons a rest ih =>
    rw [eachWith]
    split <;> simp [ih]

end Attempt
end Scaffold
