import Mathlib.Data.List.Induction
import Scaffold.Apply.Pool
import Scaffold.Proofs.Apply.Attempt

/-!
# Acts of several tasks

The acts of several tasks follow one another on a state (`History`), and those of each item are acts
of its task, in order (`Interleaving`). So what is known of the acts of the others is known of what
happens to the state between the acts of an item (`History.around`). Tasks that change nothing leave
the state as it is and come to what they come to alone (`Interleaving.of_rests`).
-/

namespace Scaffold

variable {σ ρ τ ε β : Type}

/-! ### Acts of a task -/

namespace Task

variable {task left : Task σ ρ} {acts : List (Act σ)} {a : Act σ} {r : ρ}

/-- Acts of a task, which leave the rest of it to be done. -/
inductive Does : Task σ ρ → List (Act σ) → Task σ ρ → Prop where
  | nil (task : Task σ ρ) : Does task [] task
  | cons {change : σ → σ} {next : σ → Task σ ρ} {a : Act σ} {acts : List (Act σ)}
      {left : Task σ ρ} (ha : a.behind = change a.before) (h : Does (next a.before) acts left) :
    Does (.act change next) (a :: acts) left

theorem Does.concat {change : σ → σ} {next : σ → Task σ ρ} (h : task.Does acts (.act change next))
    (ha : a.behind = change a.before) : task.Does (acts ++ [a]) (next a.before) := by
  generalize hleft : Task.act change next = left at h
  induction h with
  | nil task =>
    subst hleft
    exact .cons ha (.nil _)
  | cons hfirst h ih => exact .cons hfirst (ih hleft)

theorem Does.exists_act {more : List (Act σ)} (h : task.Does (acts ++ a :: more) left) :
    ∃ change next, task.Does acts (.act change next) ∧ a.behind = change a.before := by
  generalize hall : acts ++ a :: more = all at h
  induction h generalizing acts with
  | nil task => simp at hall
  | @cons change next first rest left hfirst h ih =>
    cases acts with
    | nil =>
      obtain ⟨rfl, -⟩ := List.cons.inj hall
      exact ⟨change, next, .nil _, hfirst⟩
    | cons first' acts =>
      obtain ⟨rfl, rfl⟩ := List.cons.inj hall
      obtain ⟨change', next', hdoes, ha⟩ := ih rfl
      exact ⟨change', next', .cons hfirst hdoes, ha⟩

/-- In a state no act of the task changes anything. -/
def Rests (s : σ) : Task σ ρ → Prop
  | .ended _ => True
  | .act change next => change s = s ∧ Rests s (next s)

/-- What is left of such a task is one too, and comes to the same. -/
theorem Does.rests {s : σ} (h : task.Does acts left) (hrests : task.Rests s)
    (hacts : ∀ a ∈ acts, a.before = s) : left.Rests s ∧ left.run s = task.run s := by
  induction h with
  | nil task => exact ⟨hrests, rfl⟩
  | @cons change next a acts left ha h ih =>
    obtain ⟨hfirst, hacts⟩ := List.forall_mem_cons.1 hacts
    rw [hfirst] at h ih
    obtain ⟨hleft, hrun⟩ := ih hrests.2 hacts
    refine ⟨hleft, ?_⟩
    rw [hrun, run, hrests.1]

theorem Does.of_ended {result : ρ} (h : (ended result).Does acts left) :
    acts = [] ∧ left = .ended result := by
  cases h
  exact ⟨rfl, rfl⟩

theorem run_doing (f : σ → σ × τ) (next : τ → Task σ ρ) (s : σ) :
    (doing f next).run s = (next (f s).2).run (f s).1 := rfl

/-- The first act of a task that is brought to an end. -/
theorem exists_of_doing {f : σ → σ × τ} {next : τ → Task σ ρ}
    (h : (doing f next).Does acts (.ended r)) :
    ∃ a more, acts = a :: more ∧ a.behind = (f a.before).1 ∧
      (next (f a.before).2).Does more (.ended r) := by
  cases h with
  | cons ha h => exact ⟨_, _, rfl, ha, h⟩

end Task

/-! ### Histories -/

/-- Acts that follow one another, from a state to a state. -/
def History : σ → List (Act σ) → σ → Prop
  | s, [], s' => s = s'
  | s, a :: log, s' => a.before = s ∧ History a.behind log s'

section
variable {s s' s'' : σ} {log more : List (Act σ)} {a : Act σ}

theorem history_append :
    History s (log ++ more) s'' ↔ ∃ s', History s log s' ∧ History s' more s'' := by
  induction log generalizing s with
  | nil => exact ⟨fun h => ⟨s, rfl, h⟩, fun ⟨_, hs, h⟩ => hs ▸ h⟩
  | cons a log ih =>
    rw [List.cons_append, History, ih]
    constructor
    · rintro ⟨ha, s', hlog, hmore⟩
      exact ⟨s', ⟨ha, hlog⟩, hmore⟩
    · rintro ⟨s', ⟨ha, hlog⟩, hmore⟩
      exact ⟨ha, s', hlog, hmore⟩

/-- The acts before an act lead to the state that it finds, and the acts behind it lead on from the
state that it leaves. -/
theorem History.split (h : History s (log ++ a :: more) s') :
    History s log a.before ∧ History a.behind more s' := by
  obtain ⟨_, hlog, rfl, hmore⟩ := history_append.1 h
  exact ⟨hlog, hmore⟩

/-- What each act keeps holds before each act and behind all of them. -/
theorem History.keeps {P : σ → Prop} (hs : P s) (h : History s log s')
    (hacts : ∀ a ∈ log, P a.before → P a.behind) : (∀ a ∈ log, P a.before) ∧ P s' := by
  induction log generalizing s with
  | nil => exact ⟨by simp, h ▸ hs⟩
  | cons a log ih =>
    obtain ⟨rfl, hlog⟩ := h
    obtain ⟨ha, hacts⟩ := List.forall_mem_cons.1 hacts
    obtain ⟨hbefore, hbehind⟩ := ih (ha hs) hlog hacts
    exact ⟨List.forall_mem_cons.2 ⟨hs, hbefore⟩, hbehind⟩

/-- What relates the states around each act relates the states around all of them. -/
theorem History.relates {R : σ → σ → Prop} (hrefl : ∀ s, R s s)
    (htrans : ∀ {s s' s''}, R s s' → R s' s'' → R s s'') (h : History s log s')
    (hacts : ∀ a ∈ log, R a.before a.behind) : R s s' := by
  induction log generalizing s with
  | nil => exact h ▸ hrefl s
  | cons a log ih =>
    obtain ⟨rfl, hlog⟩ := h
    obtain ⟨ha, hacts⟩ := List.forall_mem_cons.1 hacts
    exact htrans ha (ih hlog hacts)

/-- The acts of an item. -/
def actsOf (i : Nat) (log : List (Act σ)) : List (Act σ) := log.filter (·.index == i)

theorem mem_actsOf {i : Nat} : a ∈ actsOf i log ↔ a ∈ log ∧ a.index = i := by simp [actsOf]

theorem actsOf_concat (i : Nat) (log : List (Act σ)) (a : Act σ) :
    actsOf i (log ++ [a]) = actsOf i log ++ if a.index = i then [a] else [] := by
  by_cases h : a.index = i <;> simp [actsOf, h]

end

/-- The acts of an item in a history, where what the others do between them is related. -/
def Around (R : σ → σ → Prop) : σ → List (Act σ) → σ → Prop
  | s, [], s' => R s s'
  | s, a :: acts, s' => R s a.before ∧ Around R a.behind acts s'

section
variable {R : σ → σ → Prop} {s s' s'' : σ} {log acts : List (Act σ)}

theorem Around.head (htrans : ∀ {s s' s''}, R s s' → R s' s'' → R s s'') (hR : R s s')
    (h : Around R s' acts s'') : Around R s acts s'' := by
  cases acts with
  | nil => exact htrans hR h
  | cons a acts => exact ⟨htrans hR h.1, h.2⟩

/-- **An item and the others**: what relates the states around each act of the others relates the
states between the acts of the item. -/
theorem History.around {i : Nat} (hrefl : ∀ s, R s s)
    (htrans : ∀ {s s' s''}, R s s' → R s' s'' → R s s'') (h : History s log s')
    (hothers : ∀ a ∈ log, a.index ≠ i → R a.before a.behind) : Around R s (actsOf i log) s' := by
  induction log generalizing s with
  | nil => exact h ▸ hrefl s
  | cons a log ih =>
    obtain ⟨rfl, hlog⟩ := h
    obtain ⟨ha, hothers⟩ := List.forall_mem_cons.1 hothers
    have hbehind := ih hlog hothers
    by_cases hi : a.index = i
    · rw [actsOf, List.filter_cons_of_pos (by simpa using hi)]
      exact ⟨hrefl _, hbehind⟩
    · rw [actsOf, List.filter_cons_of_neg (by simpa using hi)]
      exact hbehind.head htrans (ha hi)

end

/-! ### Interleavings -/

/-- The acts with which the work on an item has ended, if it was not skipped. -/
inductive Task.Ends (task : Task σ (Except ε β)) : List (Act σ) → Attempt ε β → Prop where
  | ended {acts : List (Act σ)} {result : Except ε β} (h : task.Does acts (.ended result)) :
    Ends task acts (.ofResult result)
  | skipped : Ends task [] .skipped

/-- What became of items, from a state to a state, by acts that interleave those of their tasks. -/
structure Interleaving (tasks : List (Task σ (Except ε β))) (s : σ)
    (attempts : List (Attempt ε β)) (s' : σ) (log : List (Act σ)) : Prop where
  length : attempts.length = tasks.length
  history : History s log s'
  index : ∀ a ∈ log, a.index < tasks.length
  items : ∀ (i : Nat) (task : Task σ (Except ε β)), tasks[i]? = some task →
    ∃ attempt, attempts[i]? = some attempt ∧ task.Ends (actsOf i log) attempt
  skipped : .skipped ∈ attempts → ∃ e, .failed e ∈ attempts

section
variable {tasks : List (Task σ (Except ε β))} {s s' : σ} {attempts : List (Attempt ε β)}
  {log : List (Act σ)}

/-- Where no task changes anything, no act does. -/
theorem Interleaving.before_eq (h : Interleaving tasks s attempts s' log)
    (hrests : ∀ task ∈ tasks, task.Rests s) : ∀ a ∈ log, a.before = s ∧ a.behind = s := by
  suffices hall : ∀ earlier later, log = earlier ++ later →
      ∀ a ∈ earlier, a.before = s ∧ a.behind = s from hall log [] (List.append_nil _).symm
  intro earlier
  induction earlier using List.reverseRecOn with
  | nil => simp
  | append_singleton earlier a ih =>
    intro later hlog
    rw [List.append_assoc, List.singleton_append] at hlog
    have hearlier := ih _ hlog
    have hbefore : a.before = s :=
      ((hlog ▸ h.history).split.1.keeps (P := (· = s)) rfl fun b hb _ => (hearlier b hb).2).2
    have ha : a ∈ log := hlog ▸ List.mem_append_right _ List.mem_cons_self
    obtain ⟨attempt, -, hends⟩ := h.items a.index _ (List.getElem?_eq_getElem (h.index a ha))
    have hacts : actsOf a.index log = actsOf a.index earlier ++ a :: actsOf a.index later := by
      rw [hlog, actsOf, List.filter_append, List.filter_cons_of_pos (by simp)]
      rfl
    rw [hacts] at hends
    generalize hpart : actsOf a.index earlier ++ a :: actsOf a.index later = acts at hends
    cases hends with
    | skipped => simp at hpart
    | ended hdoes =>
      obtain ⟨change, next, hdoes, hchange⟩ := (hpart ▸ hdoes).exists_act
      obtain ⟨⟨hsame, -⟩, -⟩ := hdoes.rests (s := s) (hrests _ (List.getElem_mem _))
        fun b hb => (hearlier b (mem_actsOf.1 hb).1).1
      refine List.forall_mem_append.2 ⟨hearlier, List.forall_mem_singleton.2 ⟨hbefore, ?_⟩⟩
      rw [hchange, hbefore, hsame]

/-- **Tasks that change nothing leave the state as it is**, and those that are not skipped come to
what they come to alone. -/
theorem Interleaving.of_rests (h : Interleaving tasks s attempts s' log)
    (hrests : ∀ task ∈ tasks, task.Rests s) :
    s' = s ∧ Attempt.Tried (fun task => (task.run s).2) tasks attempts := by
  have hsame := h.before_eq hrests
  refine ⟨(h.history.keeps (P := (· = s)) rfl fun a ha _ => (hsame a ha).2).2, h.length,
    fun i task hi => ?_, h.skipped⟩
  obtain ⟨attempt, hattempt, hends⟩ := h.items i task hi
  refine ⟨attempt, hattempt, ?_⟩
  generalize hacts : actsOf i log = acts at hends
  cases hends with
  | skipped => exact .inr rfl
  | ended hdoes =>
    obtain ⟨-, hrun⟩ := hdoes.rests (s := s) (hrests task (List.mem_of_getElem? hi)) fun a ha =>
      (hsame a (mem_actsOf.1 (hacts ▸ ha)).1).1
    rw [← hrun]
    exact .inl rfl

end

end Scaffold
