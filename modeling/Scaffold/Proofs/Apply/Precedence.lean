import Scaffold.Proofs.Apply.Contributors
import Scaffold.Proofs.Apply.Part
import Scaffold.Proofs.Options.Layers

/-!
# Which options win

The options under which a destination is merged are found in four places: with the plan, with the
source file, with the run, and with the destination. What they come to is read from the default
members with all layers on top, one after the other, as long as the stages that a file passes
through leave its options alone (`exists_sources_of_keeps`). The stages that are always there do so
(`optionsFor_eq_stacked`).
-/

namespace Scaffold

open Options (stacked)

/-- What the options of a destination are made of, besides the overrides of the generator and those
of the run. -/
structure OptionSources where
  template : TemplateConfig
  part : PartDefinition
  /-- The manifest of the folder, if there is one. -/
  manifest? : Option Manifest
  /-- The directives of the source file outside its regions. -/
  file : List Directive
  /-- The directives of the destination outside its regions. -/
  destination : List Directive

/-- The layers of the options of a destination, from the lowest one up. -/
def OptionSources.layers (l : OptionSources) (overrides runtime : Json.Members) :
    List Json.Members :=
  [overrides, l.template.options, l.part.config.options, (l.manifest?.getD .empty).options] ++
    l.file.map (·.payload) ++ [runtime] ++ l.destination.map (·.payload) ++ [runtime]

namespace Options

variable {o o' : Options} {layers : List Json.Members}

theorem ofMembers_stacked_append (h : ofMembers (stacked layers) = .ok o)
    {more : List Json.Members} (hmore : more.foldlM layer o = .ok o') :
    ofMembers (stacked (layers ++ more)) = .ok o' := by
  rw [stacked_append]
  exact ofMembers_of_foldlM h hmore

theorem ofMembers_stacked_concat (h : ofMembers (stacked layers) = .ok o) {ms : Json.Members}
    (hms : o.layer ms = .ok o') : ofMembers (stacked (layers ++ [ms])) = .ok o' :=
  ofMembers_stacked_append h (by rw [List.foldlM_cons, hms]; rfl)

end Options

namespace FileOptions

theorem foldlM_layerFrom_eq_ok {place : String} {ds : List Directive} {o o' : Options} :
    ds.foldlM (fun o d => o.layerFrom place d.payload) o = .ok o' ↔
      (ds.map (·.payload)).foldlM Options.layer o = .ok o' := by
  induction ds generalizing o with
  | nil => exact ⟨fun h => congrArg Except.ok (Except.ok.inj h),
      fun h => congrArg Except.ok (Except.ok.inj h)⟩
  | cons d ds ih =>
    rw [List.map_cons, List.foldlM_cons, List.foldlM_cons, Outcome.bind_eq_ok, Outcome.bind_eq_ok]
    simp only [Options.layerFrom_eq_ok, ih]

theorem read_eq_ok {base : Options} {path : Path} {text : String} {file : FileOptions} :
    read base path text = .ok file ↔ outsideRegions base path text = .ok file.directives ∧
      (file.directives.map (·.payload)).foldlM Options.layer base = .ok file.options := by
  rw [read]
  constructor
  · intro h
    obtain ⟨ds, hds, h⟩ := Outcome.bind_eq_ok.1 h
    obtain ⟨o, ho, h⟩ := Outcome.bind_eq_ok.1 h
    obtain rfl := Except.ok.inj h
    exact ⟨hds, foldlM_layerFrom_eq_ok.1 ho⟩
  · rintro ⟨hds, ho⟩
    simp only [bind, Except.bind, hds, foldlM_layerFrom_eq_ok.2 ho]
    rfl

end FileOptions

/-- The members of the generator, of the template and of the part are put together before they are
laid over the defaults. -/
theorem Resolver.ofMembers_stacked_of_base {overrides template part : Json.Members} {o : Options}
    (hnames : overrides.names.Nodup)
    (h : base ((overrides.insertAll template).insertAll part) = .ok o) :
    Options.ofMembers (stacked [overrides, template, part]) = .ok o := by
  have htogether : ((overrides.insertAll template).insertAll part).names.Nodup :=
    Json.Members.nodup_insertAll (Json.Members.nodup_insertAll hnames template) part
  rw [base, Options.layerFrom_eq_ok,
    Options.layer_eq_ofMembers Options.ofMembers_stacked_nil] at h
  rw [← h]
  refine Options.ofMembers_congr fun name _ => ?_
  rw [Json.Members.get?_insertAll, Json.Members.get?_ofPairs htogether,
    Json.Members.get?_insertAll, Json.Members.get?_insertAll, ← Json.Members.get?_ofPairs hnames,
    stacked, List.foldl_cons, List.foldl_cons, List.foldl_cons, List.foldl_nil,
    Json.Members.get?_insertAll, Json.Members.get?_insertAll, Json.Members.get?_insertAll,
    Option.or_assoc, Option.or_assoc]
  rfl

/-- The directives of a destination that stand outside its regions. A file that is missing has
none. -/
def directivesFor (c : Context) (target : Path) (text? : Option String) :
    Except Failure (List Directive) :=
  text?.elim (.ok []) (FileOptions.outsideRegions c.options target)

/-- Where the layers of a destination are found: the first source file for it is the one with the
number, and its options are those of the context. -/
structure OptionSources.Found {σ : Type} (l : OptionSources) (source : Source σ) (request : Request)
    (t : FileTree) (s : σ) (p : Plan) (i : Nat) (c : Context) (target : Path)
    (text? : Option String) : Prop where
  template : ∃ s',
    source.template request.identity.unit.template request.identity.unit.version t s =
        (.ok l.template, s') ∧
      (source.part request.identity.unit t s').1 = .ok l.part
  manifest : Manifest.load t request.targetRoot = .ok l.manifest?
  file : ∃ path text, p.sources[i]? = some path ∧ t.read (l.part.contentRoot.join path) = .ok text ∧
    FileOptions.outsideRegions p.job.folderOptions path text = .ok l.file
  destination : directivesFor c target text? = .ok l.destination

namespace Generator

variable {σ : Type} {g : Generator} {w : Workers} {source : Source σ} {request : Request} {p : Plan}
  {t : FileTree} {s : σ} {c : Course} {log : List (Act FileTree)} {d : Destination} {i : Nat}
  {f : PreparedFile} {text? : Option String} {o : Options}

/-- Where the overrides of the run are in effect, they are so behind the directives of the
destination too. -/
theorem exists_directivesFor {c : Context}
    (hruntime : c.options.withRuntime request.runtime = .ok c.options) {target : Path}
    (h : Destination.optionsFor request c target text? = .ok o) :
    ∃ ds o', directivesFor c target text? = .ok ds ∧
      (ds.map (·.payload)).foldlM Options.layer c.options = .ok o' ∧
        o'.layer request.runtime = .ok o := by
  cases text? with
  | none =>
    obtain rfl := Except.ok.inj h
    exact ⟨[], _, rfl, rfl, Options.layerFrom_eq_ok.1 hruntime⟩
  | some text =>
    obtain ⟨file, hfile, hruntime⟩ := Outcome.bind_eq_ok.1 h
    obtain ⟨hdirectives, hfold⟩ := FileOptions.read_eq_ok.1 hfile
    exact ⟨_, _, hdirectives, hfold, Options.layerFrom_eq_ok.1 hruntime⟩

/-- The options under which a destination is merged are read from the default members with the
layers on top, if the stages keep the options. -/
theorem exists_sources_of_keeps (hnames : g.overrides.names.Nodup)
    (hkeep : ∀ entry ∈ g.processors, entry.2.KeepsOptions)
    (hplan : (g.plan source request t s).1 = .ok p) (hmade : c.Made g p t log)
    (hd : d ∈ c.destinations) (hfirst : d.contributors.head? = some (i, f))
    (ho : Destination.optionsFor request f.context d.path text? = .ok o) :
    ∃ l : OptionSources, l.Found source request t s p i f.context d.path text? ∧
      Options.ofMembers (stacked (l.layers g.overrides request.runtime)) = .ok o := by
  obtain ⟨m?, template, s', part, hload, htemplate, hpart, hwith⟩ := exists_of_plan hplan
  obtain ⟨base, folder, sources, hbase, hfolder, hlist, rfl⟩ := planWith_eq_ok.1 hwith
  obtain ⟨path, hpath, hprepare⟩ := hmade.prepared.exists_of_getElem?
    ((Course.mem_contributors hd).1 (List.mem_of_mem_head? hfirst)).1
  obtain ⟨text, o₁, body, htext, hoptions, hprocess, -⟩ := Job.prepare_eq_ok.1 hprepare
  obtain ⟨file, hfile, hruntime, -⟩ := Job.optionsOf_eq_ok.1 hoptions
  obtain ⟨hdirectives, hfold⟩ := FileOptions.read_eq_ok.1 hfile
  obtain rfl : f.context.options = o₁ := Job.options_process hkeep hprocess
  rw [Resolver.folderOptions_eq_ok hload] at hfolder
  -- from the lowest layer up: the plan, the source file, the run, the destination, the run
  have hplanned := Options.ofMembers_stacked_concat
    (Resolver.ofMembers_stacked_of_base hnames hbase) hfolder
  have hsource := Options.ofMembers_stacked_concat
    (Options.ofMembers_stacked_append hplanned hfold) (Options.layerFrom_eq_ok.1 hruntime)
  obtain ⟨ds, o₂, hds, hfold', hruntime'⟩ :=
    exists_directivesFor (Job.withRuntime_of_prepare hkeep hprepare) ho
  have hall := Options.ofMembers_stacked_concat
    (Options.ofMembers_stacked_append hsource hfold') hruntime'
  exact ⟨⟨template, part, m?, file.directives, ds⟩,
    ⟨⟨s', htemplate, hpart⟩, hload, ⟨path, text, hpath, htext, hdirectives⟩, hds⟩, hall⟩

/-- **The options under which a destination is merged**, whatever the schedule, are read from the
default members with the layers on top, one after the other: for every name the last layer with the
name decides, an override of the run in any case, and names that are not those of options do not
matter. -/
theorem optionsFor_eq_stacked (hnames : g.overrides.names.Nodup) {render : Template.Renderer}
    (hstages : g.processors = Processor.builtin render) (a : g.Application w source request t s)
    (hd : d ∈ a.course.destinations) (hfirst : d.contributors.head? = some (i, f))
    (ho : Destination.optionsFor request f.context d.path text? = .ok o) :
    ∃ (l : OptionSources) (layers : List Json.Members),
      l.Found source request t s a.plan i f.context d.path text? ∧
      layers = l.layers g.overrides request.runtime ∧
      Options.ofMembers (stacked layers) = .ok o ∧
      (∀ name, (stacked layers).get? name =
        (layers.reverse.findSome? fun ms => (Json.Members.ofPairs ms).get? name).or
          (Options.default.toMembers.get? name)) ∧
      (∀ name v, (Json.Members.ofPairs request.runtime).get? name = some v →
        (stacked layers).get? name = some v) ∧
      Options.ofMembers (stacked (layers.map Options.known)) = .ok o := by
  have hkeep : ∀ entry ∈ g.processors, entry.2.KeepsOptions :=
    hstages ▸ Processor.keepsOptions_builtin
  obtain ⟨l, hfound, hall⟩ := exists_sources_of_keeps hnames hkeep a.planned a.made hd hfirst ho
  refine ⟨l, _, hfound, rfl, hall, fun name => Options.get?_stacked _ name, fun name v hv => ?_,
    (Options.ofMembers_stacked_known _).trans hall⟩
  rw [OptionSources.layers, Options.stacked_append]
  exact (Json.Members.get?_insertAll _ _ _).trans (by rw [hv]; rfl)

/-- A source file and its destination that both have a directive. -/
def layeredTree : FileTree :=
  partTree
    [(["A.ts"], .file (.text "// @scf-option \x7b\"annotate\":false,\"format\":\"toml\"\x7d\nx"))]
    [(["project"], .folder),
      (["project", "a.ts"], .file (.text "// @scf-option \x7b\"annotate\":true\x7d\n"))]

/-- The part is asked for with an override. -/
def layeredRequest : Request :=
  ⟨partRequest.identity, partRequest.targetRoot, [("format", .string "text")]⟩

theorem plan_layered :
    (Generator.builtin.plan (Source.folder ⟨""⟩) layeredRequest layeredTree ()).1 =
    .ok (partPlanFor layeredRequest [⟨"A.ts"⟩]) :=
  plan_partFor rfl (by rfl) rfl (by rfl) (list_part (by decide))

/-- The directive of the destination wins over that of the source file, and the override of the run
over both. -/
theorem optionsFor_eq_stacked_of_directives :
    ∃ a : builtin.Application ⟨false, 0, 2⟩ (Source.folder ⟨""⟩) layeredRequest layeredTree (),
      ∃ d ∈ a.course.destinations, ∃ i f text? o,
        d.contributors.head? = some (i, f) ∧ layeredTree.readOptional d.path = .ok text? ∧
          Destination.optionsFor layeredRequest f.context d.path text? = .ok o ∧
          o.annotate = true ∧ o.format = some "text" ∧ ∃ l : OptionSources,
            Options.ofMembers (stacked (l.layers [] layeredRequest.runtime)) = .ok o ∧
            Options.ofMembers
              (stacked ((l.layers [] layeredRequest.runtime).map Options.known)) = .ok o := by
  have hdestinations :
      ((partPlanFor layeredRequest [⟨"A.ts"⟩]).destinations layeredTree).any (fun d =>
        d.contributors.head?.any fun c =>
          (layeredTree.readOptional d.path).toOption.any fun text? =>
            (Destination.optionsFor layeredRequest c.2.context d.path text?).toOption.any fun o =>
              o.annotate && o.format == some "text") = true := by
    decide +kernel
  obtain ⟨d, hd, hfirst⟩ := List.any_eq_true.1 hdestinations
  obtain ⟨⟨i, f⟩, hfirst, htext⟩ := (Option.any_eq_true _ _).1 hfirst
  obtain ⟨text?, htext, hoptions⟩ := Outcome.any_toOption.1 htext
  obtain ⟨o, ho, hvalues⟩ := Outcome.any_toOption.1 hoptions
  obtain ⟨hannotate, hformat⟩ := Bool.and_eq_true_iff.1 hvalues
  obtain ⟨a, -, hcourse, -⟩ := exists_application ⟨false, 0, 2⟩ plan_layered
  rw [← inOrder_destinations builtin, ← hcourse] at hd
  obtain ⟨l, _, -, rfl, hall, -, -, hknown⟩ :=
    optionsFor_eq_stacked (g := builtin) List.nodup_nil rfl a hd hfirst ho
  exact ⟨a, d, hd, i, f, text?, o, hfirst, htext, ho, hannotate, beq_iff_eq.1 hformat, l, hall,
    hknown⟩

end Generator

end Scaffold
