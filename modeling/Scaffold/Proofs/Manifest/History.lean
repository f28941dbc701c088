import Scaffold.Proofs.Manifest
import Scaffold.Proofs.Manifest.Print

/-!
# Applications that are recorded one after the other

A manifest is a set of applications that only grows. Whatever calls are made, the records that were
there stay where they are, and behind them stands every application that was recorded, once and in
the order of the calls (`recordAll_appends`). The template is that of the first record, the options
of the tree stay as they are, and no other file changes.

A call that cannot write changes nothing that manifests say. To be sure that nothing is in its way a
write makes folders first, and a root that leads back by `..` out of a folder that is missing may
find a manifest behind it that it did not find before. So where a write fails, the names of
manifests have to find what stands at their goals (`Undisturbed`).
-/

namespace Scaffold

open Json

/-! ### Sets of records -/

namespace Manifest

variable {m : Manifest} {known is : List Identity}

/-- What is new in a list of applications: each of them once, where it comes first. -/
def firsts (known : List Identity) : List Identity → List Identity
  | [] => []
  | i :: is => if known.any (·.same i) then firsts known is else i :: firsts (known ++ [i]) is

/-- The manifest with more records. -/
def addAll (m : Manifest) (is : List Identity) : Manifest := is.foldl add m

theorem addAll_eq (m : Manifest) (is : List Identity) : m.addAll is =
    ⟨m.template?.or (is.head?.map fun i => ⟨i.unit.template, i.unit.version, none⟩),
      m.records ++ is⟩ := by
  induction is generalizing m with
  | nil => simp [addAll]
  | cons i is ih =>
    have hadd := ih (m.add i)
    rw [addAll] at hadd
    rw [addAll, List.foldl_cons, hadd, add]
    simp

theorem options_addAll (m : Manifest) (is : List Identity) : (m.addAll is).options = m.options := by
  rw [addAll_eq, options, options]
  cases m.template? with
  | some t => rfl
  | none => cases is <;> rfl

end Manifest

/-! ### What is recorded -/

/-- An application with parameters that can be recorded: they stand in order, no object repeats a
name, they nest at most 100 levels deep, and their numbers are read back. -/
structure Identity.Recordable (i : Identity) : Prop where
  ordered : i.parameters.Ordered
  names : ∀ p ∈ i.parameters, p.2.WellFormed
  nested : ∀ p ∈ i.parameters, p.2.Nested 100
  numbers : i.Legible

/-- A number that is read back is not NaN. -/
theorem Json.Value.Legible.withoutNaN {v : Value} (h : v.Legible) : v.WithoutNaN := fun n hn =>
  (proper_of_parse (h n hn)).numbers n .here

theorem Identity.Recordable.fits {i : Identity} (h : i.Recordable) : i.Fits := by
  refine ⟨h.ordered, fun p hp => ⟨⟨h.names p hp, ?_⟩, (h.nested p hp).mono (by decide)⟩⟩
  exact (Value.legible_object.1 h.numbers p hp).withoutNaN

namespace Manifest

variable {t t' : FileTree} {root : Path} {m : Manifest} {m? : Option Manifest} {i : Identity}
  {is : List Identity}

theorem fits_empty : empty.Fits := ⟨by rintro _ ⟨⟩, nofun⟩

/-- A record brings its template, without options, where there was none. -/
theorem forall_template_add {P : TreeTemplate → Prop} (h : ∀ t, m.template? = some t → P t)
    (hnew : P ⟨i.unit.template, i.unit.version, none⟩) :
    ∀ t, (m.add i).template? = some t → P t := by
  intro t ht
  rcases Option.or_eq_some_iff.1 ht with ht | ⟨-, ht⟩
  · exact h t ht
  · exact Option.some.inj ht ▸ hnew

theorem forall_records_add {P : Identity → Prop} (h : ∀ j ∈ m.records, P j) (hi : P i) :
    ∀ j ∈ (m.add i).records, P j :=
  List.forall_mem_append.2 ⟨h, List.forall_mem_singleton.2 hi⟩

theorem Fits.add (h : m.Fits) (hi : i.Fits) : (m.add i).Fits :=
  ⟨forall_template_add h.template (by rintro _ ⟨⟩), forall_records_add h.records hi⟩

theorem Legible.add (h : m.Legible) (hi : i.Legible) : (m.add i).Legible :=
  ⟨forall_template_add h.template (by rintro _ ⟨⟩), forall_records_add h.records hi⟩

/-- A manifest that is loaded fits into a document. -/
theorem fits_of_load (h : load t root = .ok m?) : (m?.getD empty).Fits := by
  cases m? with
  | none => exact fits_empty
  | some m =>
    rw [load] at h
    split at h
    · cases h
    · obtain ⟨s?, -, h⟩ := Outcome.bind_eq_ok.1 h
      cases s? with
      | none => cases h
      | some s =>
        obtain ⟨m', hm, h⟩ := Outcome.bind_eq_ok.1 h
        cases h
        exact fits_of_parse (Outcome.mapError_eq_ok.1 hm)

/-! ### One call -/

/-- The write of a call that records a new application. -/
def writeNew (t : FileTree) (root : Path) (m : Manifest) (i : Identity) :
    FileTree × Except FileFault Unit :=
  t.write (recordPath t root) (m.add i).print

/-- What a call comes to where the manifest is loaded: an application that is there is not recorded,
and one that is new is recorded if the manifest can be written. -/
theorem record_eq (hload : load t root = .ok m?) (i : Identity) :
    record t root i =
      if (m?.getD empty).contains i then (t, .ok false)
      else ((writeNew t root (m?.getD empty) i).1,
        ((writeNew t root (m?.getD empty) i).2.mapError Failure.file).map fun _ => true) := by
  rw [record, hload]
  dsimp only
  split
  · rfl
  · rw [writeNew, recordPath]
    generalize t.write _ _ = written
    obtain ⟨t', result⟩ := written
    cases result <;> rfl

theorem inPlace_of_outside {places : List Location} (h : FileTree.Outside places t t')
    (hin : InPlace t root)
    (hwritten : ∀ name ∈ fileNames, t.goal (root.join name) ∉ places ∨
      ∃ c, t'.content? (root.join name) = some c) : InPlace t' root := by
  intro name hname
  rcases hwritten name hname with hnot | ⟨c, hc⟩
  · rw [h.content?_of_not_mem (hin name hname) hnot, hin name hname, h.goal, h.content _ hnot]
  · rw [hc, FileTree.contentAt?_of_content? hc]

/-- A write leaves the names of manifests at their goals. -/
theorem inPlace_of_write {s : String} {result : Except FileFault Unit} (hin : InPlace t root)
    (h : t.write (recordPath t root) s = (t', result)) : InPlace t' root := by
  rcases FileTree.put_cases h with ⟨-, houtside⟩ | ⟨-, houtside, hcontent⟩
  · exact inPlace_of_outside houtside hin fun _ _ => .inl (by simp)
  · obtain ⟨name', hname', hpath⟩ := exists_recordPath t root
    refine inPlace_of_outside houtside hin fun name hname => ?_
    by_cases heq : name = name'
    · exact .inr ⟨_, heq ▸ hpath ▸ hcontent⟩
    · refine .inl ?_
      rw [hpath, List.mem_singleton, goal_join_name hname, goal_join_name hname',
        List.append_cancel_left_eq]
      exact fun hnames => heq (eq_of_names name hname name' hname' hnames)

/-- What calls leave: a tree from which a manifest is loaded again. It stands in the same file, and
no other file has changed. -/
structure Recorded (root : Path) (t t' : FileTree) (m? : Option Manifest) : Prop where
  load : load t' root = .ok m?
  path : recordPath t' root = recordPath t root
  outside : FileTree.Outside [t.goal (recordPath t root)] t t'
  legible : (m?.getD empty).Legible
  inPlace : InPlace t root → InPlace t' root

theorem Recorded.refl (hload : Manifest.load t root = .ok m?) (hm : (m?.getD empty).Legible) :
    Recorded root t t m? := ⟨hload, rfl, .refl _ _, hm, id⟩

theorem Recorded.trans {t'' : FileTree} {m'? : Option Manifest} (h : Recorded root t t' m?)
    (h' : Recorded root t' t'' m'?) : Recorded root t t'' m'? := by
  have houtside := h'.outside
  rw [h.path, h.outside.goal] at houtside
  exact ⟨h'.load, h'.path.trans h.path, h.outside.trans houtside, h'.legible,
    fun hin => h'.inPlace (h.inPlace hin)⟩

/-- **One call**: it records nothing, since the application is there or since the write failed, or
it records the application behind the others. -/
theorem record_cases (hload : load t root = .ok m?) (hm : (m?.getD empty).Legible)
    (hi : i.Recordable) :
    (m?.getD empty).contains i = true ∧ record t root i = (t, .ok false) ∨
    (m?.getD empty).contains i = false ∧ ∃ t',
      (record t root i = (t', .ok true) ∧
          Recorded root t t' (some ((m?.getD empty).add i)) ∨
        (∃ e, record t root i = (t', .error e)) ∧ (InPlace t root → Recorded root t t' m?)) := by
  have hrecord := record_eq hload i
  cases hcontains : (m?.getD empty).contains i with
  | true => exact .inl ⟨rfl, by rw [hrecord, hcontains, if_pos rfl]⟩
  | false =>
    refine .inr ⟨rfl, ?_⟩
    rw [hcontains, if_neg Bool.false_ne_true, writeNew] at hrecord
    cases hwrite : t.write (recordPath t root) ((m?.getD empty).add i).print with
    | mk t' result =>
      rw [hwrite] at hrecord
      have hkept := fun hin => inPlace_of_write hin hwrite
      have houtside := outside_record hrecord
      cases result with
      | ok _ =>
        have hlegible := hm.add hi.numbers
        have hread := parse_print ((fits_of_load hload).add hi.fits) hlegible
        have hpath : recordPath t' root = recordPath t root := by
          rw [recordPath, (file?_written hwrite).1, Option.getD_some]
        exact ⟨t', .inl ⟨hrecord, load_written hwrite hread, hpath, houtside, hlegible, hkept⟩⟩
      | error e =>
        refine ⟨t', .inr ⟨⟨_, hrecord⟩, fun hin => ?_⟩⟩
        -- nothing that the names of manifests find has changed
        have hagree : Agree root t t' := by
          rcases FileTree.put_cases hwrite with ⟨-, hnothing⟩ | ⟨hok, -⟩
          · exact agree_of_outside hnothing hin fun _ _ => by simp
          · cases hok
        exact ⟨(load_congr hagree).trans hload, by rw [recordPath, recordPath, file?_congr hagree],
          houtside, hm, hkept⟩

/-! ### All calls -/

/-- Applications are recorded one after the other, whatever becomes of each: the tree, and what the
calls have come to. -/
def recordAll (root : Path) :
    List Identity → FileTree → FileTree × List (Identity × Except Failure Bool)
  | [], t => (t, [])
  | i :: is, t =>
    let (t, result) := record t root i
    let (t, more) := recordAll root is t
    (t, (i, result) :: more)

/-- The applications of the calls that succeeded. -/
def succeeded (calls : List (Identity × Except Failure Bool)) : List Identity :=
  (calls.filter (·.2.isOk)).map Prod.fst

/-- No call has failed, or a call that fails is no matter: the names of manifests find what stands
at their goals. -/
def Undisturbed (root : Path) (is : List Identity) (t : FileTree) : Prop :=
  InPlace t root ∨ ∀ c ∈ (recordAll root is t).2, c.2.isOk = true

/-- What the calls have added to the records. -/
def newRecords (known : List Identity) (root : Path) (is : List Identity) (t : FileTree) :
    List Identity :=
  firsts known (succeeded (recordAll root is t).2)

theorem recordAll_cons {result : Except Failure Bool} (h : record t root i = (t', result)) :
    recordAll root (i :: is) t =
      ((recordAll root is t').1, (i, result) :: (recordAll root is t').2) := by
  rw [recordAll, h]

theorem newRecords_cons_of_contains {isNew : Bool} (h : record t root i = (t', .ok isNew))
    (hi : m.contains i = true) :
    newRecords m.records root (i :: is) t = newRecords m.records root is t' := by
  rw [newRecords, recordAll_cons h]
  exact if_pos hi

theorem newRecords_cons_of_not_contains {isNew : Bool} (h : record t root i = (t', .ok isNew))
    (hi : m.contains i = false) :
    newRecords m.records root (i :: is) t = i :: newRecords (m.add i).records root is t' := by
  rw [newRecords, recordAll_cons h]
  exact if_neg (by simpa [contains] using hi)

theorem newRecords_cons_error {known : List Identity} {e : Failure}
    (h : record t root i = (t', .error e)) :
    newRecords known root (i :: is) t = newRecords known root is t' := by
  rw [newRecords, recordAll_cons h]
  rfl

theorem Undisturbed.tail {result : Except Failure Bool} (hu : Undisturbed root (i :: is) t)
    (h : record t root i = (t', result)) (hin : InPlace t root → InPlace t' root) :
    Undisturbed root is t' := by
  refine hu.imp hin fun hall => ?_
  rw [recordAll_cons h] at hall
  exact (List.forall_mem_cons.1 hall).2

/-- **What calls leave**: the manifest as it was, with what is new behind it. -/
theorem exists_recorded (hload : load t root = .ok m?) (hm : (m?.getD empty).Legible)
    (his : ∀ i ∈ is, i.Recordable) (hu : Undisturbed root is t) :
    ∃ m'?, Recorded root t (recordAll root is t).1 m'? ∧
      m'?.getD empty = (m?.getD empty).addAll (newRecords (m?.getD empty).records root is t) ∧
      (m'? = none ↔ m? = none ∧ newRecords (m?.getD empty).records root is t = []) := by
  induction is generalizing t m? with
  | nil => exact ⟨m?, .refl hload hm, rfl, by simp [newRecords, recordAll, succeeded, firsts]⟩
  | cons i is ih =>
    obtain ⟨hi, his⟩ := List.forall_mem_cons.1 his
    rcases record_cases hload hm hi with ⟨hthere, hrecord⟩ | ⟨hnew, t₁, ⟨hrecord, hrecorded⟩ |
      ⟨⟨e, hrecord⟩, hrecorded⟩⟩
    · rw [recordAll_cons hrecord, newRecords_cons_of_contains hrecord hthere]
      exact ih hload hm his (hu.tail hrecord id)
    · obtain ⟨m'?, hrest, heq, hnone⟩ :=
        ih hrecorded.load hrecorded.legible his (hu.tail hrecord hrecorded.inPlace)
      rw [recordAll_cons hrecord, newRecords_cons_of_not_contains hrecord hnew]
      refine ⟨m'?, hrecorded.trans hrest, heq, ?_⟩
      rw [hnone]
      simp
    · have hin : InPlace t root := by
        refine hu.resolve_right fun hall => ?_
        rw [recordAll_cons hrecord] at hall
        cases (List.forall_mem_cons.1 hall).1
      obtain ⟨m'?, hrest, heq, hnone⟩ := ih (hrecorded hin).load hm his
        (hu.tail hrecord (hrecorded hin).inPlace)
      rw [recordAll_cons hrecord, newRecords_cons_error hrecord]
      exact ⟨m'?, (hrecorded hin).trans hrest, heq, hnone⟩

/-- Where no call fails, what is new is told by the calls alone. -/
theorem newRecords_of_isOk (known : List Identity)
    (h : ∀ c ∈ (recordAll root is t).2, c.2.isOk = true) :
    newRecords known root is t = firsts known is := by
  have hcalls : (recordAll root is t).2.map Prod.fst = is := by
    clear h
    induction is generalizing t with
    | nil => rfl
    | cons i is ih => exact congrArg (i :: ·) ih
  rw [newRecords, succeeded, List.filter_eq_self.2 h, hcalls]

/-- **A manifest is a set of applications that only grows.** Where the manifest of a tree is loaded,
a call returns whether the application is new, and it writes nothing if it is not; whatever calls
have been made, the manifest that is loaded then has the records that were there and behind them
what was recorded, once each and in the order of the calls. -/
theorem recordAll_appends (hload : load t root = .ok m?) (hm : (m?.getD empty).Legible)
    (his : ∀ i ∈ is, i.Recordable) :
    (∀ before i, before ++ [i] <+: is → Undisturbed root before t →
      ∃ mᵢ?, load (recordAll root before t).1 root = .ok mᵢ? ∧
        record (recordAll root before t).1 root i =
          if (mᵢ?.getD empty).contains i then ((recordAll root before t).1, .ok false)
          else ((writeNew (recordAll root before t).1 root (mᵢ?.getD empty) i).1,
            ((writeNew (recordAll root before t).1 root (mᵢ?.getD empty) i).2.mapError
              Failure.file).map fun _ => true)) ∧
    (Undisturbed root is t →
      ∃ m'?, load (recordAll root is t).1 root = .ok m'? ∧
        (m'?.getD empty).records =
          (m?.getD empty).records ++ newRecords (m?.getD empty).records root is t ∧
        (m'?.getD empty).template? = (m?.getD empty).template?.or
          ((newRecords (m?.getD empty).records root is t).head?.map fun i =>
            ⟨i.unit.template, i.unit.version, none⟩) ∧
        (m'?.getD empty).options = (m?.getD empty).options ∧
        (m'? = none ↔ m? = none ∧ newRecords (m?.getD empty).records root is t = []) ∧
        ((∀ c ∈ (recordAll root is t).2, c.2.isOk = true) →
          newRecords (m?.getD empty).records root is t = firsts (m?.getD empty).records is) ∧
        FileTree.Outside [t.goal (recordPath t root)] t (recordAll root is t).1) := by
  constructor
  · intro before i hfirst hu
    have hbefore : ∀ j ∈ before, j.Recordable := fun j hj =>
      his j (hfirst.subset (List.mem_append_left _ hj))
    obtain ⟨mᵢ?, hrecorded, -⟩ := exists_recorded hload hm hbefore hu
    exact ⟨mᵢ?, hrecorded.load, record_eq hrecorded.load i⟩
  · intro hu
    obtain ⟨m'?, hrecorded, heq, hnone⟩ := exists_recorded hload hm his hu
    refine ⟨m'?, hrecorded.load, ?_, ?_, ?_, hnone, newRecords_of_isOk _, hrecorded.outside⟩
    · rw [heq, addAll_eq]
    · rw [heq, addAll_eq]
    · rw [heq, options_addAll]

/-- The application of a part with a parameter. -/
def partWith (part : String) (n : Int) : Identity :=
  ⟨⟨"t", "1", part⟩, [("n", .number (.integer n))]⟩

theorem recordable_partWith (part : String) {n : Int}
    (hn : (Json.Number.integer n).Legible) : (partWith part n).Recordable where
  ordered := List.pairwise_singleton _ _
  names := List.forall_mem_singleton.2 trivial
  nested := List.forall_mem_singleton.2 (.number _)
  numbers := Value.legible_object.2 (List.forall_mem_singleton.2 fun m hm => by
    cases hm
    exact hn)

/-- A manifest with options and with a record. -/
def optionsManifest : Manifest :=
  ⟨some ⟨"t", "1", some [("n", .number (.integer 2))]⟩, [partWith "p" 1]⟩

/-- The text of this manifest. -/
def optionsText : String :=
  "\x7b\"template\":\x7b\"name\":\"t\",\"version\":\"1\",\"options\":\x7b\"n\":2\x7d\x7d," ++
    "\"partials\":[[\"p\",\"t\",\"1\",\x7b\"n\":1\x7d]]\x7d"

/-- A tree with this manifest under its second name. -/
def optionsTree : FileTree :=
  ⟨[], [(["project"], .folder), (["project", ".scf.json"], .file (.text optionsText))]⟩

theorem load_optionsTree : load optionsTree ⟨"project"⟩ = .ok (some optionsManifest) := by rfl

/-- A part is recorded that is there, and then one that is new. -/
theorem recordAll_appends_part :
    ∃ m'?, load (recordAll ⟨"project"⟩ [partWith "p" 1, partWith "q" 1] optionsTree).1
        ⟨"project"⟩ = .ok m'? ∧
      (m'?.getD empty).records = [partWith "p" 1, partWith "q" 1] ∧
      (m'?.getD empty).options = [("n", .number (.integer 2))] := by
  have hone : (Json.Number.integer 1).Legible := by rfl
  have hlegible : optionsManifest.Legible := by
    refine ⟨?_, List.forall_mem_singleton.2 (recordable_partWith "p" hone).numbers⟩
    rintro _ ⟨⟩ options ⟨⟩
    refine Value.legible_object.2 (List.forall_mem_singleton.2 fun m hm => ?_)
    cases hm
    rfl
  have hcalls : ∀ i ∈ [partWith "p" 1, partWith "q" 1], i.Recordable :=
    List.forall_mem_cons.2 ⟨recordable_partWith "p" hone,
      List.forall_mem_singleton.2 (recordable_partWith "q" hone)⟩
  have hdone : ∀ c ∈ (recordAll ⟨"project"⟩ [partWith "p" 1, partWith "q" 1] optionsTree).2,
      c.2.isOk = true := by
    have hthere := record_of_contains load_optionsTree (i := partWith "p" 1) (by rfl)
    have hwrite :
        (writeNew optionsTree ⟨"project"⟩ optionsManifest (partWith "q" 1)).2 = .ok () := by rfl
    have hnew := record_eq load_optionsTree (partWith "q" 1)
    rw [if_neg (by decide), Option.getD_some, hwrite] at hnew
    rw [recordAll_cons hthere, recordAll_cons hnew]
    exact List.forall_mem_cons.2 ⟨rfl, List.forall_mem_singleton.2 rfl⟩
  obtain ⟨m'?, hafter, hrecords, -, hoptions, -, hnew, -⟩ :=
    (recordAll_appends load_optionsTree hlegible hcalls).2 (.inr hdone)
  refine ⟨m'?, hafter, ?_, hoptions⟩
  rw [hrecords, hnew hdone]
  rfl

/-- A tree with this manifest too, and with a folder in the place of another one. -/
def obstructedTree : FileTree :=
  ⟨[], [(["project"], .folder), (["project", ".scf.json"], .file (.text optionsText)),
    (["project", "scf.json"], .folder)]⟩

/-- Behind a call that fails there are records where there were none: it makes the folder that the
root leads through, and then the manifest behind it is found. -/
theorem not_recordAll_appends :
    (∀ i ∈ [partWith "q" 1], i.Recordable) ∧
      load obstructedTree ⟨"x/../project"⟩ = .ok none ∧
      (recordAll ⟨"x/../project"⟩ [partWith "q" 1] obstructedTree).2.all (!·.2.isOk) = true ∧
      load (recordAll ⟨"x/../project"⟩ [partWith "q" 1] obstructedTree).1 ⟨"x/../project"⟩ =
        .ok (some optionsManifest) := by
  refine ⟨List.forall_mem_singleton.2 (recordable_partWith "q" (by rfl)), by rfl, ?_, ?_⟩
  · decide +kernel
  · rfl

end Manifest

end Scaffold
