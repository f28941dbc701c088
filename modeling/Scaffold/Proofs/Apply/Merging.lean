import Scaffold.Apply.Destination
import Scaffold.Proofs.Apply.Interleaving
import Scaffold.Proofs.FileTree.Make

/-!
# Acts of a merge

A destination is merged by a look at its file and, if its text is to change, by making the folders
around the file and putting the file in its place. `Merges` says which acts there are and what comes
of them (`merges_of_ends`), whatever others do between them. None of the acts changes a file, but
for the last act of a destination that is written (`Merges.outside`). Without a break the acts are
those of `mergeAll` (`run_merging`).
-/

namespace Scaffold

open FileTree (Outside)

/-- The destination was written. -/
def Attempt.isWritten (a : Attempt StageFailure TargetOutcome) : Bool := a.result?.any (·.written)

namespace Destination

variable {appenders : Registry Appender} {request : Request} {d : Destination} {t : FileTree}
  {next : String}

/-! ### The text that is new -/

/-- The text that is written when the contents of all contributors are merged, if it changes. -/
def fresh (appenders : Registry Appender) (request : Request) (t : FileTree) (d : Destination) :
    Except Failure (Option String) :=
  match d.contributors with
  | [] => .ok none
  | (_, first) :: _ =>
    (plan appenders request first.context (d.contributors.map (·.2.content)) d.path t).map
      fun planned => if planned.1 = planned.2 then none else planned.2

/-- The new text is decided by the text that is read. -/
theorem fresh_congr {t' : FileTree} (h : t'.readOptional d.path = t.readOptional d.path) :
    fresh appenders request t' d = fresh appenders request t d := by
  unfold fresh plan
  rw [h]

/-- A merge writes the text that is new, and it fails if there is none to be had or if it cannot be
written. -/
theorem mergeAll_eq_fresh (appenders : Registry Appender) (request : Request) (d : Destination)
    (t : FileTree) : mergeAll appenders request d t =
      match fresh appenders request t d with
      | .error e => (t, .error ⟨.merge, e⟩)
      | .ok none => (t, .ok ⟨d.path, false⟩)
      | .ok (some next) =>
        match t.write d.path next with
        | (t, .ok ()) => (t, .ok ⟨d.path, true⟩)
        | (t, .error e) => (t, .error ⟨.persist, .file e⟩) := by
  rw [mergeAll, fresh]
  cases d.contributors with
  | nil => rfl
  | cons first rest =>
    dsimp only
    rw [mergeInto]
    cases plan appenders request first.2.context ((first :: rest).map (·.2.content)) d.path t with
    | error e => rfl
    | ok planned =>
      obtain ⟨text?, next?⟩ := planned
      dsimp only [Except.map]
      by_cases hsame : text? = next?
      · rw [if_pos hsame]
        cases next? with
        | none => rfl
        | some next => exact if_pos hsame
      · rw [if_neg hsame]
        cases next? with
        | none => rfl
        | some next =>
          dsimp only
          refine (if_neg hsame).trans ?_
          obtain ⟨t', result⟩ := t.write d.path next
          cases result <;> rfl

theorem plan_eq_ok {c : Context} {contents : List String} {target : Path}
    {text? next? : Option String} :
    plan appenders request c contents target t = .ok (text?, next?) ↔
    t.readOptional target = .ok text? ∧
      merge appenders request c contents target text? = .ok next? := by
  constructor
  · intro h
    obtain ⟨read?, hread, h⟩ := Outcome.bind_eq_ok.1 h
    obtain ⟨merged?, hmerge, h⟩ := Outcome.bind_eq_ok.1 h
    obtain ⟨rfl, rfl⟩ := Prod.mk.inj (Except.ok.inj h)
    exact ⟨Outcome.mapError_eq_ok.1 hread, hmerge⟩
  · rintro ⟨hread, hmerge⟩
    rw [plan, hread]
    simp only [Except.mapError, bind, Except.bind, hmerge]
    rfl

/-- The new text of a file is not the text that it has. -/
theorem content?_ne_of_fresh (h : fresh appenders request t d = .ok (some next)) :
    t.content? d.path ≠ some (.text next) := by
  intro hcontent
  unfold fresh at h
  split at h
  · cases h
  · obtain ⟨⟨text?, next?⟩, hplan, hnext⟩ := Outcome.map_eq_ok.1 h
    have hread := (plan_eq_ok.1 hplan).1
    rw [FileTree.readOptional_eq_some.2 hcontent] at hread
    obtain rfl := Except.ok.inj hread
    split at hnext
    · cases hnext
    · rename_i hdiffers
      exact hdiffers hnext.symm

/-! ### What is done -/

/-- The acts with which a destination is merged, and what becomes of it. -/
inductive Merges (appenders : Registry Appender) (request : Request) (d : Destination) :
    List (Act FileTree) → Attempt StageFailure TargetOutcome → Prop where
  | skipped : Merges appenders request d [] .skipped
  /-- No file goes into the destination. -/
  | empty (h : d.contributors = []) : Merges appenders request d [] (.done ⟨d.path, false⟩)
  | fails {look : Act FileTree} {e : Failure} (hlook : look.behind = look.before)
      (hfresh : fresh appenders request look.before d = .error e) :
    Merges appenders request d [look] (.failed ⟨.merge, e⟩)
  | stays {look : Act FileTree} (hlook : look.behind = look.before)
      (hfresh : fresh appenders request look.before d = .ok none) :
    Merges appenders request d [look] (.done ⟨d.path, false⟩)
  /-- The folders around the file cannot be made. -/
  | blocked {look make : Act FileTree} {e : FileFault} (hlook : look.behind = look.before)
      (hmake : make.before.makeWay d.path = (make.behind, .error e)) :
    Merges appenders request d [look, make] (.failed ⟨.persist, .file e⟩)
  /-- The file cannot be put in its place. -/
  | refused {look make put : Act FileTree} {next : String} {e : FileFault}
      (hlook : look.behind = look.before)
      (hmake : make.before.makeWay d.path = (make.behind, .ok ()))
      (hput : put.before.putInPlace d.path (.text next) = (put.behind, .error e)) :
    Merges appenders request d [look, make, put] (.failed ⟨.persist, .file e⟩)
  | written {look make put : Act FileTree} {next : String} (hlook : look.behind = look.before)
      (hfresh : fresh appenders request look.before d = .ok (some next))
      (hmake : make.before.makeWay d.path = (make.behind, .ok ()))
      (hput : put.before.putInPlace d.path (.text next) = (put.behind, .ok ())) :
    Merges appenders request d [look, make, put] (.done ⟨d.path, true⟩)

/-- The work on a destination goes by the text that is new. -/
theorem merging_eq_fresh (appenders : Registry Appender) (request : Request) (d : Destination) :
    merging appenders request d = if d.contributors = [] then .ended (.ok ⟨d.path, false⟩)
      else .doing (fun t => (t, fresh appenders request t d)) fun
        | .error e => .ended (.error ⟨.merge, e⟩)
        | .ok none => .ended (.ok ⟨d.path, false⟩)
        | .ok (some next) => writing d.path next := by
  unfold merging fresh
  cases d.contributors with
  | nil => rfl
  | cons first rest =>
    rw [if_neg (List.cons_ne_nil _ _)]
    refine congrArg (Task.act id) (funext fun t => ?_)
    dsimp only
    generalize plan appenders request _ _ d.path t = planned
    obtain e | ⟨text?, next?⟩ := planned
    · rfl
    · dsimp only [Except.map]
      by_cases hsame : text? = next?
      · subst hsame
        rw [if_pos rfl]
        cases text? with
        | none => rfl
        | some next => exact if_pos rfl
      · rw [if_neg hsame]
        cases next? with
        | none => rfl
        | some next => exact if_neg hsame

/-- What the work of writing a text does, and what comes of it. -/
theorem cases_of_writing {target : Path} {acts : List (Act FileTree)}
    {result : Except StageFailure TargetOutcome}
    (h : (writing target next).Does acts (.ended result)) :
    (∃ make e, acts = [make] ∧ make.before.makeWay target = (make.behind, .error e) ∧
        result = .error ⟨.persist, .file e⟩) ∨
      ∃ make put, acts = [make, put] ∧ make.before.makeWay target = (make.behind, .ok ()) ∧
        ((∃ e, put.before.putInPlace target (.text next) = (put.behind, .error e) ∧
            result = .error ⟨.persist, .file e⟩) ∨
          put.before.putInPlace target (.text next) = (put.behind, .ok ()) ∧
            result = .ok ⟨target, true⟩) := by
  obtain ⟨make, acts, rfl, hmake, h⟩ := Task.exists_of_doing h
  cases hway : make.before.makeWay target with
  | mk t₁ made =>
    rw [hway] at hmake h
    obtain rfl : make.behind = t₁ := hmake
    cases made with
    | error e =>
      obtain ⟨rfl, hresult⟩ := h.of_ended
      exact .inl ⟨make, e, rfl, hway, Task.ended.inj hresult⟩
    | ok _ =>
      obtain ⟨put, acts, rfl, hput, h⟩ := Task.exists_of_doing h
      refine .inr ⟨make, put, ?_⟩
      cases hplace : put.before.putInPlace target (.text next) with
      | mk t₂ placed =>
        rw [hplace] at hput h
        obtain rfl : put.behind = t₂ := hput
        cases placed with
        | error e =>
          obtain ⟨rfl, hresult⟩ := h.of_ended
          exact ⟨rfl, hway, .inl ⟨e, rfl, Task.ended.inj hresult⟩⟩
        | ok _ =>
          obtain ⟨rfl, hresult⟩ := h.of_ended
          exact ⟨rfl, hway, .inr ⟨rfl, Task.ended.inj hresult⟩⟩

/-- **What the work on a destination does**, and what comes of it. -/
theorem merges_of_ends {acts : List (Act FileTree)} {a : Attempt StageFailure TargetOutcome}
    (h : (merging appenders request d).Ends acts a) : d.Merges appenders request acts a := by
  cases h with
  | skipped => exact .skipped
  | @ended acts result h =>
    rw [merging_eq_fresh] at h
    split at h
    · obtain ⟨rfl, hresult⟩ := h.of_ended
      obtain rfl := Task.ended.inj hresult
      exact .empty ‹_›
    · obtain ⟨look, acts, rfl, hlook, h⟩ := Task.exists_of_doing h
      split at h
      · rename_i e hfresh
        obtain ⟨rfl, hresult⟩ := h.of_ended
        obtain rfl := Task.ended.inj hresult
        exact .fails hlook hfresh
      · rename_i hfresh
        obtain ⟨rfl, hresult⟩ := h.of_ended
        obtain rfl := Task.ended.inj hresult
        exact .stays hlook hfresh
      · rename_i hfresh
        rcases cases_of_writing h with ⟨make, e, rfl, hmake, rfl⟩ |
          ⟨make, put, rfl, hmake, ⟨e, hput, rfl⟩ | ⟨hput, rfl⟩⟩
        · exact .blocked hlook hmake
        · exact .refused hlook hmake hput
        · exact .written hlook hfresh hmake hput

theorem run_writing (target : Path) (next : String) (t : FileTree) :
    (writing target next).run t =
      match t.write target next with
      | (t, .ok ()) => (t, .ok ⟨target, true⟩)
      | (t, .error e) => (t, .error ⟨.persist, .file e⟩) := by
  unfold writing FileTree.write FileTree.put
  rw [Task.run_doing]
  generalize t.makeWay target = made
  obtain ⟨t₁, e | _⟩ := made
  · rfl
  · dsimp only
    rw [Task.run_doing]
    generalize t₁.putInPlace target (.text next) = placed
    obtain ⟨t₂, e | _⟩ := placed <;> rfl

/-- Without a break a destination is merged as by one worker. -/
theorem run_merging (appenders : Registry Appender) (request : Request) (d : Destination)
    (t : FileTree) : (merging appenders request d).run t = mergeAll appenders request d t := by
  rw [merging_eq_fresh]
  split
  · rename_i hempty
    unfold mergeAll
    rw [hempty]
    rfl
  · rw [Task.run_doing, mergeAll_eq_fresh]
    dsimp only
    generalize fresh appenders request t d = next?
    obtain e | _ | next := next?
    · rfl
    · rfl
    · exact run_writing d.path next t

/-! ### What the acts leave alone -/

namespace Merges

variable {acts : List (Act FileTree)} {a : Attempt StageFailure TargetOutcome} {act : Act FileTree}

/-- **The acts of a merge change no file**, but for that of a destination that is written. -/
theorem outside (h : d.Merges appenders request acts a) {places : List Location}
    (hplaces : a.isWritten = true → ∀ act ∈ acts, act.before.goal d.path ∈ places) :
    ∀ act ∈ acts, Outside places act.before act.behind := by
  have hlooks : ∀ {look : Act FileTree}, look.behind = look.before →
      Outside places look.before look.behind := fun hlook => hlook ▸ .refl _ _
  have hmakes : ∀ {make : Act FileTree} {result : Except FileFault Unit},
      make.before.makeWay d.path = (make.behind, result) →
        Outside places make.before make.behind := fun {make result} hmake => by
    have houtside : Outside places make.before (make.before.makeWay d.path).1 :=
      FileTree.outside_makeWay _
    rwa [hmake] at houtside
  cases h with
  | skipped => simp
  | empty => simp
  | fails hlook => exact List.forall_mem_singleton.2 (hlooks hlook)
  | stays hlook => exact List.forall_mem_singleton.2 (hlooks hlook)
  | blocked hlook hmake =>
    exact List.forall_mem_cons.2 ⟨hlooks hlook, List.forall_mem_singleton.2 (hmakes hmake)⟩
  | refused hlook hmake hput =>
    refine List.forall_mem_cons.2 ⟨hlooks hlook, List.forall_mem_cons.2 ⟨hmakes hmake, ?_⟩⟩
    refine List.forall_mem_singleton.2 ?_
    obtain ⟨-, hsame⟩ := (FileTree.putInPlace_cases hput).resolve_right (by simp)
    rw [hsame]
    exact .refl _ _
  | written hlook hfresh hmake hput =>
    refine List.forall_mem_cons.2 ⟨hlooks hlook, List.forall_mem_cons.2 ⟨hmakes hmake, ?_⟩⟩
    refine List.forall_mem_singleton.2 ?_
    obtain ⟨-, houtside, -⟩ := (FileTree.putInPlace_cases hput).resolve_left (by simp)
    exact houtside.mono fun w hw => List.mem_singleton.1 hw ▸ hplaces rfl _ (by simp)

/-- Every entry lies in a folder behind each act, if it did before. -/
theorem wellFormed (h : d.Merges appenders request acts a) :
    ∀ act ∈ acts, act.before.WellFormed → act.behind.WellFormed := by
  have hmakes : ∀ {make : Act FileTree} {result : Except FileFault Unit},
      make.before.makeWay d.path = (make.behind, result) → make.before.WellFormed →
        make.behind.WellFormed := fun hmake ht => by
    have hmade : (FileTree.makeWay _ d.path).1.WellFormed := FileTree.wellFormed_makeFolders ht _
    rwa [hmake] at hmade
  have hlooks : ∀ {look : Act FileTree}, look.behind = look.before →
      look.before.WellFormed → look.behind.WellFormed := fun hlook ht => hlook ▸ ht
  cases h with
  | skipped => simp
  | empty => simp
  | fails hlook => exact List.forall_mem_singleton.2 (hlooks hlook)
  | stays hlook => exact List.forall_mem_singleton.2 (hlooks hlook)
  | blocked hlook hmake =>
    exact List.forall_mem_cons.2 ⟨hlooks hlook, List.forall_mem_singleton.2 (hmakes hmake)⟩
  | refused hlook hmake hput =>
    refine List.forall_mem_cons.2 ⟨hlooks hlook, List.forall_mem_cons.2 ⟨hmakes hmake, ?_⟩⟩
    refine List.forall_mem_singleton.2 fun ht => ?_
    obtain ⟨-, hsame⟩ := (FileTree.putInPlace_cases hput).resolve_right (by simp)
    rwa [hsame]
  | written hlook hfresh hmake hput =>
    refine List.forall_mem_cons.2 ⟨hlooks hlook, List.forall_mem_cons.2 ⟨hmakes hmake, ?_⟩⟩
    exact List.forall_mem_singleton.2 (FileTree.changed_putInPlace hput).1.wellFormed

/-- What the acts of a destination that is written have found and left. -/
theorem exists_of_isWritten (h : d.Merges appenders request acts a) (ha : a.isWritten = true) :
    ∃ look make put next, acts = [look, make, put] ∧ look.behind = look.before ∧
      look.before.content? d.path ≠ some (.text next) ∧
      put.behind.content? d.path = some (.text next) := by
  cases h with
  | written hlook hfresh hmake hput =>
    obtain ⟨-, -, hcontent⟩ := (FileTree.putInPlace_cases hput).resolve_left (by simp)
    exact ⟨_, _, _, _, rfl, hlook, content?_ne_of_fresh hfresh, hcontent⟩
  | _ => cases ha

/-- A destination that is done has its own path in the outcome, and was written if and only if its
acts have changed what the path finds. -/
theorem path_and_written {o : TargetOutcome} (h : d.Merges appenders request acts (.done o)) :
    o.path = d.path ∧ (o.written = true ↔ ∃ first ∈ acts.head?, ∃ last ∈ acts.getLast?,
      last.behind.content? d.path ≠ first.before.content? d.path) := by
  cases h with
  | empty => simp
  | stays hlook => simp [hlook]
  | written hlook hfresh hmake hput =>
    obtain ⟨-, -, hcontent⟩ := (FileTree.putInPlace_cases hput).resolve_left (by simp)
    refine ⟨rfl, fun _ => ⟨_, rfl, _, rfl, fun hsame => ?_⟩, fun _ => rfl⟩
    exact content?_ne_of_fresh hfresh (hsame.symm.trans hcontent)

end Merges

end Destination

end Scaffold
