import Scaffold.Proofs.Outcome
import Scaffold.Source

/-!
# What a remembering source answers

The source that is asked may answer as it likes: it has a state of its own, the files may change
between two queries, and a failure may turn into a success. A record of what it was asked and what it
answered (`recorded`) says what is to be remembered: for each query the first success
(`firstSuccess?`). A query that had a success is answered with the first one and goes no further. Any
other query is passed on, and so no query is passed on behind a success with it (`Remembers.ask`,
`remembering_memoizes`).
-/

namespace Scaffold.Source

variable {σ : Type}

/-! ### Queries and their answers -/

/-- What a source is asked for: a template at a version, or a part. -/
inductive Query where
  | template (name version : String)
  | part (unit : UnitName)
deriving DecidableEq

/-- What is wanted with a query. -/
abbrev Query.Result : Query → Type
  | .template _ _ => TemplateConfig
  | .part _ => PartDefinition

/-- A query with the answer to it. -/
structure Exchange where
  query : Query
  answer : Except Failure query.Result

/-- A source answers a query, with files as they are then. -/
def ask (source : Source σ) : (q : Query) → FileTree → σ → Except Failure q.Result × σ
  | .template name version => source.template name version
  | .part unit => source.part unit

/-- A source answers one query after the other. -/
def serve (source : Source σ) : List (Query × FileTree) → σ → List Exchange × σ
  | [], s => ([], s)
  | (q, t) :: calls, s =>
    let (answer, s) := source.ask q t s
    let (exchanges, s) := serve source calls s
    (⟨q, answer⟩ :: exchanges, s)

/-- The source, which keeps a record of its exchanges. -/
def recorded (source : Source σ) : Source (σ × List Exchange) :=
  ⟨fun name version t s =>
      let (answer, inner) := source.template name version t s.1
      (answer, inner, s.2 ++ [⟨.template name version, answer⟩]),
    fun unit t s =>
      let (answer, inner) := source.part unit t s.1
      (answer, inner, s.2 ++ [⟨.part unit, answer⟩])⟩

/-- The result for a query, if the exchange was about that query and is no failure. -/
def Exchange.success? (e : Exchange) (q : Query) : Option q.Result :=
  if h : e.query = q then (h ▸ e.answer).toOption else none

/-- The first success with a query. -/
def firstSuccess? (record : List Exchange) (q : Query) : Option q.Result :=
  record.findSome? (·.success? q)

/-! ### The memory for one kind of query -/

namespace Memory

variable {κ α : Type} [BEq κ] {memory : Memory κ α} {key key' : κ} {ask : σ → Except Failure α × σ}
  {s : σ}

/-- The memory behind an answer. Failures are not remembered. -/
def noted (memory : Memory κ α) (key : κ) : Except Failure α → Memory κ α
  | .ok a => (key, a) :: memory
  | .error _ => memory

theorem answer_of_known {a : α} (h : memory.lookup key = some a) :
    memory.answer key ask s = (.ok a, memory, s) := by
  simp only [answer, h]

theorem answer_of_unknown (h : memory.lookup key = none) :
    memory.answer key ask s = ((ask s).1, memory.noted key (ask s).1, (ask s).2) := by
  simp only [answer, h]
  cases ask s with
  | mk answer inner => cases answer <;> rfl

variable [LawfulBEq κ]

theorem lookup_noted_self (memory : Memory κ α) (key : κ) (answer : Except Failure α) :
    (memory.noted key answer).lookup key = answer.toOption.or (memory.lookup key) := by
  cases answer <;> simp [noted, Except.toOption]

theorem lookup_noted_of_ne (h : key' ≠ key) (answer : Except Failure α) :
    (memory.noted key answer).lookup key' = memory.lookup key' := by
  cases answer with
  | error e => rfl
  | ok a => simp [noted, List.lookup_cons, beq_eq_false_iff_ne.2 h]

end Memory

/-! ### One query -/

namespace Remembered

/-- What is remembered for a query. -/
def result? (m : Remembered σ) : (q : Query) → Option q.Result
  | .template name version => m.templates.lookup (name, version)
  | .part unit => m.parts.lookup unit

/-- What is remembered behind an answer of the inner source, which leaves this state. -/
def note (m : Remembered σ) : (q : Query) → Except Failure q.Result → (inner : σ) → Remembered σ
  | .template name version, answer, inner =>
    ⟨m.templates.noted (name, version) answer, m.parts, inner⟩
  | .part unit, answer, inner => ⟨m.templates, m.parts.noted unit answer, inner⟩

end Remembered

variable {source : Source σ} {s : σ} {t : FileTree} {q q' : Query} {record : List Exchange}
  {calls : List (Query × FileTree)}

theorem ask_recorded (source : Source σ) (q : Query) (t : FileTree) (s : σ × List Exchange) :
    source.recorded.ask q t s = ((source.ask q t s.1).1, (source.ask q t s.1).2,
      s.2 ++ [⟨q, (source.ask q t s.1).1⟩]) := by
  cases q <;> rfl

/-- What is remembered is the answer, and the inner source is not asked. -/
theorem ask_remembering_of_known {m : Remembered σ} {r : q.Result} (h : m.result? q = some r) :
    (remembering source).ask q t m = (.ok r, m) := by
  cases q with
  | template name version =>
    have h : m.templates.lookup (name, version) = some r := h
    simp only [ask, remembering, Memory.answer_of_known h]
  | part unit =>
    have h : m.parts.lookup unit = some r := h
    simp only [ask, remembering, Memory.answer_of_known h]

/-- Where nothing is remembered, the inner source is asked. -/
theorem ask_remembering_of_unknown {m : Remembered σ} (h : m.result? q = none) :
    (remembering source).ask q t m = ((source.ask q t m.inner).1,
      m.note q (source.ask q t m.inner).1 (source.ask q t m.inner).2) := by
  cases q with
  | template name version =>
    have h : m.templates.lookup (name, version) = none := h
    simp only [ask, remembering, Memory.answer_of_unknown h, Remembered.note]
  | part unit =>
    have h : m.parts.lookup unit = none := h
    simp only [ask, remembering, Memory.answer_of_unknown h, Remembered.note]

@[simp] theorem inner_note (m : Remembered σ) (q : Query) (answer : Except Failure q.Result)
    (inner : σ) : (m.note q answer inner).inner = inner := by
  cases q <;> rfl

@[simp] theorem success?_self (q : Query) (answer : Except Failure q.Result) :
    (⟨q, answer⟩ : Exchange).success? q = answer.toOption := by
  simp [Exchange.success?]

theorem success?_of_ne (h : q ≠ q') (answer : Except Failure q.Result) :
    (⟨q, answer⟩ : Exchange).success? q' = none :=
  dif_neg h

/-- A success is remembered for its own query, and a failure is not remembered. -/
theorem result?_note (m : Remembered σ) (q q' : Query) (answer : Except Failure q.Result)
    (inner : σ) : (m.note q answer inner).result? q' =
      ((⟨q, answer⟩ : Exchange).success? q').or (m.result? q') := by
  by_cases h : q = q'
  · subst h
    rw [success?_self]
    cases q <;> exact Memory.lookup_noted_self _ _ answer
  · rw [success?_of_ne h, Option.none_or]
    -- queries of one kind have different keys, and those of two kinds have different memories
    cases q with
    | template name version =>
      cases q' with
      | template name' version' =>
        exact Memory.lookup_noted_of_ne (fun heq => h (by cases heq; rfl)) answer
      | part unit' => rfl
    | part unit =>
      cases q' with
      | template name' version' => rfl
      | part unit' => exact Memory.lookup_noted_of_ne (fun heq => h (by cases heq; rfl)) answer

/-! ### The record -/

theorem firstSuccess?_concat (record : List Exchange) (e : Exchange) (q : Query) :
    firstSuccess? (record ++ [e]) q = (firstSuccess? record q).or (e.success? q) := by
  simp [firstSuccess?, List.findSome?_append]

theorem firstSuccess?_eq_none : firstSuccess? record q = none ↔ ∀ e ∈ record, e.success? q = none :=
  List.findSome?_eq_none_iff

/-- What is remembered is what the record has as first successes, and behind a success with a query
the record does not have this query again. -/
structure Remembers (m : Remembered (σ × List Exchange)) : Prop where
  results : ∀ q, m.result? q = firstSuccess? m.inner.2 q
  once : m.inner.2.Pairwise fun e e' => e.success? e'.query = none

theorem remembers_start (s : σ) : Remembers (.start (s, [])) :=
  ⟨fun q => by cases q <;> rfl, .nil⟩

/-- A query that had no success is put to the inner source, and the record shows it. -/
theorem Remembers.ask_of_unknown {m : Remembered (σ × List Exchange)} (h : Remembers m)
    (hq : firstSuccess? m.inner.2 q = none) :
    (remembering source.recorded).ask q t m = ((source.ask q t m.inner.1).1,
      m.note q (source.ask q t m.inner.1).1 ((source.ask q t m.inner.1).2,
        m.inner.2 ++ [⟨q, (source.ask q t m.inner.1).1⟩])) := by
  rw [ask_remembering_of_unknown ((h.results q).trans hq), ask_recorded]

theorem Remembers.ask {m : Remembered (σ × List Exchange)} (h : Remembers m) (source : Source σ)
    (q : Query) (t : FileTree) : Remembers ((remembering source.recorded).ask q t m).2 := by
  cases hq : firstSuccess? m.inner.2 q with
  | some r =>
    rw [ask_remembering_of_known ((h.results q).trans hq)]
    exact h
  | none =>
    rw [h.ask_of_unknown hq]
    refine ⟨fun q' => ?_, ?_⟩
    · rw [result?_note, inner_note, firstSuccess?_concat, h.results]
      by_cases hsame : q = q'
      · subst hsame
        rw [hq, Option.or_none, Option.none_or]
      · rw [success?_of_ne hsame, Option.none_or, Option.or_none]
    · rw [inner_note]
      refine List.pairwise_append.2 ⟨h.once, List.pairwise_singleton _ _, fun e he => ?_⟩
      exact List.forall_mem_singleton.2 (firstSuccess?_eq_none.1 hq e he)

theorem Remembers.serve {m : Remembered (σ × List Exchange)} (h : Remembers m) (source : Source σ)
    (calls : List (Query × FileTree)) :
    Remembers ((remembering source.recorded).serve calls m).2 := by
  induction calls generalizing m with
  | nil => exact h
  | cons call calls ih => exact ih (h.ask source call.1 call.2)

/-! ### The record makes no difference -/

/-- What is remembered, without the record. -/
def Remembered.withoutRecord (m : Remembered (σ × List Exchange)) : Remembered σ :=
  ⟨m.templates, m.parts, m.inner.1⟩

theorem ask_withoutRecord (source : Source σ) (q : Query) (t : FileTree)
    (m : Remembered (σ × List Exchange)) : (remembering source).ask q t m.withoutRecord =
      (((remembering source.recorded).ask q t m).1,
        ((remembering source.recorded).ask q t m).2.withoutRecord) := by
  have hresult : m.withoutRecord.result? q = m.result? q := by cases q <;> rfl
  cases hq : m.result? q with
  | some r => rw [ask_remembering_of_known hq, ask_remembering_of_known (hresult.trans hq)]
  | none =>
    rw [ask_remembering_of_unknown hq, ask_remembering_of_unknown (hresult.trans hq), ask_recorded]
    refine Prod.ext rfl ?_
    show Remembered.note _ q (source.ask q t m.inner.1).1 _ = _
    generalize (source.ask q t m.inner.1).1 = answer
    cases q <;> rfl

theorem serve_withoutRecord (source : Source σ) (calls : List (Query × FileTree))
    (m : Remembered (σ × List Exchange)) :
    ((remembering source).serve calls m.withoutRecord).1 =
      ((remembering source.recorded).serve calls m).1 := by
  induction calls generalizing m with
  | nil => rfl
  | cons call calls ih =>
    simp only [Source.serve, ask_withoutRecord, ih]

/-! ### Sources that do not change their answers -/

/-- The source answers each of the queries the same whenever it is asked. -/
def AnswersAs (source : Source σ) (answer : (q : Query) → Except Failure q.Result)
    (calls : List (Query × FileTree)) : Prop :=
  ∀ call ∈ calls, ∀ s, (source.ask call.1 call.2 s).1 = answer call.1

variable {answer : (q : Query) → Except Failure q.Result}

theorem AnswersAs.serve (h : AnswersAs source answer calls) (s : σ) :
    (source.serve calls s).1 = calls.map fun call => ⟨call.1, answer call.1⟩ := by
  induction calls generalizing s with
  | nil => rfl
  | cons call calls ih =>
    obtain ⟨hcall, hcalls⟩ := List.forall_mem_cons.1 h
    simp only [Source.serve, List.map_cons, ih hcalls, hcall]

/-- What is remembered is the answer that the source would give. -/
theorem AnswersAs.serve_remembering (h : AnswersAs source answer calls) {m : Remembered σ}
    (hm : ∀ q r, m.result? q = some r → answer q = .ok r) :
    ((remembering source).serve calls m).1 = calls.map fun call => ⟨call.1, answer call.1⟩ := by
  induction calls generalizing m with
  | nil => rfl
  | cons call calls ih =>
    obtain ⟨hcall, hcalls⟩ := List.forall_mem_cons.1 h
    simp only [Source.serve, List.map_cons]
    cases hq : m.result? call.1 with
    | some r =>
      rw [ask_remembering_of_known hq, hm _ r hq, ih hcalls hm]
    | none =>
      rw [ask_remembering_of_unknown hq, hcall, ih hcalls]
      intro q r hr
      rw [result?_note] at hr
      rcases Option.or_eq_some_iff.1 hr with hnew | ⟨-, hold⟩
      · by_cases hsame : call.1 = q
        · subst hsame
          rw [success?_self] at hnew
          exact Outcome.toOption_eq_some.1 hnew
        · rw [success?_of_ne hsame] at hnew
          cases hnew
      · exact hm q r hold

/-! ### The memory -/

/-- **A source that remembers another one answers with first successes.** Whatever was asked before,
and whatever the inner source has answered, a query has the result of the first success with the same
query that is on the record, and the inner source is not asked. Without such a success it is asked,
and its answer goes on the record. What is remembered for a template or a part is its first success,
and no query goes on the record behind a success with it. If the inner source does not change its
answers, they are the same with the memory and without. -/
theorem remembering_memoizes (source : Source σ) (s : σ) (calls : List (Query × FileTree)) :
    let run := (remembering source.recorded).serve calls (.start (s, []))
    run.1 = ((remembering source).serve calls (.start s)).1 ∧
    Remembers run.2 ∧
    (∀ q t, (remembering source.recorded).ask q t run.2 =
      match firstSuccess? run.2.inner.2 q with
      | some r => (.ok r, run.2)
      | none =>
        let (answer, inner) := source.ask q t run.2.inner.1
        (answer, run.2.note q answer (inner, run.2.inner.2 ++ [⟨q, answer⟩]))) ∧
    ∀ answer, AnswersAs source answer calls →
      ((remembering source).serve calls (.start s)).1 = (source.serve calls s).1 := by
  have hrun := (remembers_start s).serve source calls
  refine ⟨(serve_withoutRecord source calls (.start (s, []))).symm, hrun, fun q t => ?_,
    fun answer h => ?_⟩
  · cases hq : firstSuccess? _ q with
    | some r => exact ask_remembering_of_known ((hrun.results q).trans hq)
    | none => exact hrun.ask_of_unknown hq
  · have hstart : ∀ q r, (Remembered.start s).result? q = some r → answer q = .ok r := by
      rintro (_ | _) r hr <;> cases hr
    rw [h.serve, h.serve_remembering hstart]

/-- A source that counts the queries. At first it fails, and then it names another version each
time. -/
def fickle : Source Nat :=
  ⟨fun name version _ n =>
      (if n = 0 then .error (.source name (.missing ⟨version⟩)) else .ok ⟨name, toString n, []⟩,
        n + 1),
    fun unit _ n => (.error (.source unit.text (.missing ⟨unit.part⟩)), n + 1)⟩

/-- A template is asked for until it is there, and then a part. -/
def fickleCalls : List (Query × FileTree) :=
  [(.template "t" "latest", .empty), (.template "t" "latest", .empty),
    (.part ⟨"t", "latest", "p"⟩, .empty)]

/-- The version that was named first stays. -/
theorem remembering_memoizes_fickle :
    let run := (remembering fickle.recorded).serve fickleCalls (.start (0, []))
    run.2.inner.1 = 3 ∧ (remembering fickle.recorded).ask (.template "t" "latest") .empty run.2 =
      (.ok ⟨"t", "1", []⟩, run.2) := by
  obtain ⟨-, -, hnext, -⟩ := remembering_memoizes fickle 0 fickleCalls
  exact ⟨rfl, hnext (.template "t" "latest") .empty⟩

end Scaffold.Source
