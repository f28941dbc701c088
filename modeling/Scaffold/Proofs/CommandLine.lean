import Scaffold.CommandLine.Run
import Scaffold.Proofs.Apply.Run

/-!
# What the program may come to

Where a unit is applied by several workers the program may come to different ends. What it comes to
when the files are worked on in order is one of them (`mayRun_run`), and it is the only one where a
command asks for one file at a time or for one worker, or where the machine can run no more
(`mayRun_iff`).
-/

namespace Scaffold.CommandLine

variable {cores : Nat} {arguments : List String} {i : Invocation} {t : FileTree} {o : Outcome}

/-- The command has one worker at the most. -/
def Command.isSerial (cores : Nat) : Command → Bool
  | .apply _ _ _ _ debug workers => debug || decide ((if workers = 0 then cores else workers) ≤ 1)
  | _ => true

theorem count_le_one {debug : Bool} {workers : Nat}
    (h : (debug || decide ((if workers = 0 then cores else workers) ≤ 1)) = true) (items : Nat) :
    Workers.count ⟨debug, workers, cores⟩ items ≤ 1 := by
  rw [Workers.count]
  cases debug with
  | true => exact Nat.le_refl 1
  | false => exact Nat.le_trans (Nat.min_le_left _ _) (by simpa using h)

/-- What a command comes to is among what it may come to. -/
theorem mayCome_runCommand (cores : Nat) (i : Invocation) (t : FileTree) :
    MayCome cores i t (runCommand i t) := by
  unfold MayCome runCommand
  cases i.command? with
  | none => rfl
  | some command =>
    cases command with
    | apply unit templates parameters options debug workers =>
      exact ⟨_, Generator.applies_apply _, rfl⟩
    | regions file => rfl
    | options file? options => rfl

/-- A command with one worker comes to one thing. -/
theorem mayCome_iff
    (hserial : ∀ command, i.command? = some command → command.isSerial cores = true) :
    MayCome cores i t o ↔ o = runCommand i t := by
  refine ⟨fun h => ?_, fun h => h ▸ mayCome_runCommand cores i t⟩
  unfold MayCome at h
  split at h
  · rename_i hcommand
    obtain ⟨applied, happlies, rfl⟩ := h
    rw [(Generator.applies_iff (count_le_one (hserial _ hcommand))).1 happlies]
    unfold runCommand
    rw [hcommand]
    rfl
  · exact h

/-- **What the program comes to in order is among what it may come to.** -/
theorem mayRun_run (cores : Nat) (arguments : List String) (t : FileTree) :
    MayRun cores arguments t (run arguments t) := by
  unfold MayRun run
  cases readArguments arguments with
  | ok i => exact mayCome_runCommand cores i t
  | error stop => rfl

/-- **With one worker the program comes to one thing.** -/
theorem mayRun_iff (hserial : ∀ i command, readArguments arguments = .ok i →
      i.command? = some command → command.isSerial cores = true) :
    MayRun cores arguments t o ↔ o = run arguments t := by
  unfold MayRun run
  cases hi : readArguments arguments with
  | ok i => exact mayCome_iff fun command => hserial i command hi
  | error stop => rfl

end Scaffold.CommandLine
