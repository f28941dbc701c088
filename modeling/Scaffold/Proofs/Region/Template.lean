import Scaffold.Proofs.Outcome
import Scaffold.Proofs.Region.Block

/-!
# The usual block as a template

A block is shaped by a template, or in the usual way. The usual way is a template too
(`Block.usualTemplate`): it writes the pieces of the block one after the other and goes round the
parameters.

## What is proved

* `Template.Renders.loop` — a loop over a name writes what its body writes for each item, when
  the body binds nothing.
* `Block.make_usualTemplate` — the block under the usual template is the block in its usual shape,
  whatever the markers, the identity and the content are. So what is known of usual blocks is known
  of blocks under a template that is spelled out.
-/

namespace Scaffold.Template

/-! ### Values and frames -/

theorem Value.ofJsonItems_map {α : Type} (f : α → Json.Value) (items : List α) :
    ofJsonItems (items.map f) = items.map fun a => ofJson (f a) := by
  induction items with
  | nil => rfl
  | cons a items ih => rw [List.map_cons, List.map_cons, ofJsonItems, ih]

/-- The frame binds a name and no other. -/
structure Frame.Holds (frame : Frame) (name : String) (v : Value) : Prop where
  value : frame.bindings.lookup name = some v
  only : ∀ b ∈ frame.bindings, b.1 = name

/-- A bound name has its value. -/
theorem Frame.Holds.lookup_self {frame : Frame} {name : String} {v : Value}
    (h : frame.Holds name v) (outer : Frames) : Frames.lookup name (frame :: outer) = v := by
  unfold Frames.lookup
  rw [h.value]

/-- A name that a frame does not bind means what it means outside. -/
theorem Frame.Holds.lookup_ne {frame : Frame} {name n : String} {v : Value}
    (h : frame.Holds name v) (hn : n ≠ name) (hloop : n ≠ "loop") (outer : Frames) :
    Frames.lookup n (frame :: outer) = Frames.lookup n outer := by
  have hnone : frame.bindings.lookup n = none :=
    List.lookup_eq_none_iff.2 fun b hb => by simpa [h.only b hb] using hn
  rw [Frames.lookup.eq_def n (frame :: outer)]
  dsimp only
  rw [hnone]
  dsimp only
  split
  · exact absurd rfl hloop
  · rfl

/-! ### Rendering without binding -/

/-- Nodes before others: the others are rendered under what the first ones bind. -/
theorem renderNodes_append {a b : List Node} {f₁ f₂ f₃ : Frames} {s t : String}
    (ha : renderNodes a f₁ = .ok (s, f₂)) (hb : renderNodes b f₂ = .ok (t, f₃)) :
    renderNodes (a ++ b) f₁ = .ok (s ++ t, f₃) := by
  induction a generalizing f₁ s with
  | nil =>
    rw [renderNodes] at ha
    cases ha
    simpa using hb
  | cons n a ih =>
    rw [renderNodes] at ha
    obtain ⟨⟨head, f⟩, hn, ha⟩ := Outcome.bind_eq_ok.1 ha
    obtain ⟨⟨tail, f'⟩, hrest, ha⟩ := Outcome.bind_eq_ok.1 ha
    cases ha
    simp only [List.cons_append, renderNodes, hn, ih hrest, bind, Except.bind, pure, Except.pure,
      String.append_assoc]

/-- The nodes are rendered as a text and bind nothing. -/
def Renders (frames : Frames) (nodes : List Node) (s : String) : Prop :=
  renderNodes nodes frames = .ok (s, frames)

namespace Renders

variable {frames : Frames} {nodes more : List Node} {s t : String}

theorem nil : Renders frames [] "" := by
  rw [Renders, renderNodes]

/-- A node that binds nothing, before others. -/
theorem cons {n : Node} (hn : renderNode n frames = .ok (t, frames)) (h : Renders frames nodes s) :
    Renders frames (n :: nodes) (t ++ s) := by
  rw [Renders] at h
  simp only [Renders, renderNodes, hn, h, bind, Except.bind, pure, Except.pure]

theorem text (h : Renders frames nodes s) : Renders frames (.text t :: nodes) (t ++ s) :=
  h.cons (by rw [renderNode])

theorem output {e : Expr} (he : eval frames e = .ok (.string t)) (h : Renders frames nodes s) :
    Renders frames (.output e :: nodes) (t ++ s) :=
  h.cons (by simp [renderNode, he, bind, Except.bind, pure, Except.pure, Value.isMissing,
    Value.text])

theorem var {name : String} (hv : frames.lookup name = .string t) (h : Renders frames nodes s) :
    Renders frames (.output (.var name) :: nodes) (t ++ s) :=
  h.output (by rw [eval, hv])

theorem append (h : Renders frames nodes s) (hmore : Renders frames more t) :
    Renders frames (nodes ++ more) (s ++ t) :=
  renderNodes_append h hmore

/-- The turns of a loop over a name, from any turn on, write what the body writes for the items
that are left: a turn leaves its item bound, and the next one binds over it. -/
theorem turns {α : Type} {name : String} {g : α → Value} {f : α → String} {items : List α}
    (hbody : ∀ a ∈ items, ∀ frame : Frame, frame.Holds name (g a) →
      Renders (frame :: frames) nodes (f a)) (depth length index : Nat) (frame : Frame)
    (hframe : ∀ b ∈ frame.bindings, b.1 = name) :
    Template.turns depth length (.name name) (renderNodes nodes) index (items.map g) frame frames =
      .ok (String.join (items.map f)) := by
  induction items generalizing index frame with
  | nil => rfl
  | cons a items ih =>
    have honly : ∀ b ∈ (name, g a) :: frame.bindings, b.1 = name :=
      List.forall_mem_cons.2 ⟨rfl, hframe⟩
    have ha : renderNodes nodes
          (⟨(name, g a) :: frame.bindings, some ⟨index, length, depth⟩⟩ :: frames) =
        .ok (f a, ⟨(name, g a) :: frame.bindings, some ⟨index, length, depth⟩⟩ :: frames) :=
      hbody a List.mem_cons_self _ ⟨by simp, honly⟩
    have hrest := ih (fun b hb => hbody b (List.mem_cons_of_mem a hb)) (index + 1)
      ⟨(name, g a) :: frame.bindings, some ⟨index, length, depth⟩⟩ honly
    simp only [List.map_cons, Template.turns, Target.bind, Frames.bind, bind, Except.bind, pure,
      Except.pure, ha, List.head?_cons, Option.getD_some, hrest, String.join_cons]

/-- A loop over a name, before other nodes. -/
theorem loop {α : Type} {name : String} {e : Expr} {g : α → Value} {f : α → String}
    {items : List α} (he : eval frames e = .ok (.list (items.map g)))
    (hbody : ∀ a ∈ items, ∀ frame : Frame, frame.Holds name (g a) →
      Renders (frame :: frames) nodes (f a)) (h : Renders frames more s) :
    Renders frames (.loop (.name name) e (.constant (.bool true)) nodes [] :: more)
      (String.join (items.map f) ++ s) := by
  refine h.cons ?_
  have hturns := turns hbody (frames.depth + 1) (items.map g).length 0 {} nofun
  simp only [renderNode, he, Filter.itemsOf, Value.isMissing, Value.items?, bind, Except.bind,
    pure, Except.pure, Bool.false_eq_true, if_false]
  split
  · next hempty =>
    have hnil : items = [] := by simpa using hempty
    simp [hnil, renderNodes, String.join]
  · rw [hturns]

end Renders
end Scaffold.Template

namespace Scaffold.Block

open Template

/-! ### The template -/

/-- The usual shape of a block as a template, part by part. -/
def usualTemplate : String := String.join [
  "\x7b\x7b start \x7d\x7d\n",
  "\x7b\x7b open \x7d\x7d", "template: \x7b\x7b template \x7d\x7d", "@\x7b\x7b version \x7d\x7d",
  "\x7b\x7b close \x7d\x7d\n",
  "\x7b\x7b open \x7d\x7d", "partial: \x7b\x7b partial \x7d\x7d", "\x7b\x7b close \x7d\x7d\n",
  "\x7b% for param in parameters %\x7d",
  "\x7b\x7b open \x7d\x7d", "param \x7b\x7b param.name \x7d\x7d", ": \x7b\x7b param.value \x7d\x7d",
  "\x7b\x7b close \x7d\x7d\n",
  "\x7b% endfor %\x7d", "\n",
  "\x7b\x7b content \x7d\x7d\n",
  "\x7b\x7b end \x7d\x7d\n"]

/-- The pieces of a line of the header. -/
def headerPieces (text : List Piece) : List Piece :=
  .output [.name "open"] :: text ++ [.output [.name "close"], .text "\n"]

/-- The pieces of the template. -/
def usualPieces : List Piece :=
  [.output [.name "start"], .text "\n"] ++
  headerPieces
    [.text "template: ", .output [.name "template"], .text "@", .output [.name "version"]] ++
  headerPieces [.text "partial: ", .output [.name "partial"]] ++
  [.tag [.name "for", .name "param", .name "in", .name "parameters"]] ++
  headerPieces [.text "param ", .output [.name "param", .mark ".", .name "name"],
    .text ": ", .output [.name "param", .mark ".", .name "value"]] ++
  [.tag [.name "endfor"], .text "\n", .output [.name "content"], .text "\n",
    .output [.name "end"], .text "\n"]

/-- The nodes of a line of the header. -/
def headerNodes (text : List Node) : List Node :=
  .output (.var "open") :: text ++ [.output (.var "close"), .text "\n"]

/-- The nodes of a parameter's line. -/
def parameterNodes : List Node :=
  headerNodes [.text "param ", .output (.part (.var "param") (.constant (.string "name"))),
    .text ": ", .output (.part (.var "param") (.constant (.string "value")))]

/-- The tree of the template. -/
def usualNodes : List Node :=
  [.output (.var "start"), .text "\n"] ++
  headerNodes [.text "template: ", .output (.var "template"), .text "@",
    .output (.var "version")] ++
  headerNodes [.text "partial: ", .output (.var "partial")] ++
  [.loop (.name "param") (.var "parameters") (.constant (.bool true)) parameterNodes [],
    .text "\n", .output (.var "content"), .text "\n", .output (.var "end"), .text "\n"]

theorem hasMarks_usualTemplate : hasMarks usualTemplate = true := by
  rw [hasMarks, usualTemplate, String.toList_join]
  decide +kernel

theorem ofTemplate_usualTemplate : Piece.ofTemplate usualTemplate = .ok usualPieces := by
  -- The parts are turned into characters one by one: for the joined text that takes long.
  rw [Piece.ofTemplate, ← String.length_toList, usualTemplate, String.toList_join]
  exact Outcome.toOption_eq_some.1 (by decide +kernel)

theorem nodes_usualPieces :
    Reader.nodes (2 * usualPieces.length + 2) [] usualPieces = .ok (usualNodes, "", [], []) := rfl

theorem template_usualTemplate : Reader.template usualTemplate = .ok usualNodes := by
  rw [Reader.template, ofTemplate_usualTemplate]
  simp only [bind, Except.bind]
  rw [nodes_usualPieces]
  rfl

/-! ### Its text -/

variable {d : Delimiters} {i : Identity} {content : String}

/-- A line of the header, wherever the two ends of a comment are at hand. -/
theorem renders_headerNodes {frames : Frames} {text : List Node} {s : String}
    (hopen : frames.lookup "open" = .string d.comment.opening)
    (hclose : frames.lookup "close" = .string d.comment.closing) (htext : Renders frames text s) :
    Renders frames (headerNodes text) (d.comment.opening ++ s ++ d.comment.closing ++ "\n") := by
  have hend : Renders frames [.output (.var "close"), .text "\n"] (d.comment.closing ++ "\n") := by
    simpa using Renders.nil.text.var hclose
  simpa [headerNodes, String.append_assoc] using (htext.append hend).var hopen

/-- What a template for a block sees. -/
def scope (d : Delimiters) (i : Identity) (content : String) : Frames :=
  [Frame.ofMembers (pieces d i content)]

/-- The line of a parameter, in any turn of the loop over the parameters. -/
theorem renders_parameterNodes {name : String} {value : Json.Value} {frame : Frame}
    (h : frame.Holds "param" (Value.ofJson (parameterValue name value))) :
    Renders (frame :: scope d i content) parameterNodes
      (d.comment.opening ++ Identity.parameterText name value ++ d.comment.closing ++ "\n") := by
  have hopen : Frames.lookup "open" (frame :: scope d i content) =
      .string d.comment.opening := h.lookup_ne (by decide) (by decide) _
  have hclose : Frames.lookup "close" (frame :: scope d i content) =
      .string d.comment.closing := h.lookup_ne (by decide) (by decide) _
  have hparam := h.lookup_self (scope d i content)
  have hname : eval (frame :: scope d i content)
      (.part (.var "param") (.constant (.string "name"))) = .ok (.string name) := by
    simp only [eval, hparam, bind, Except.bind]
    rfl
  have hvalue : eval (frame :: scope d i content)
      (.part (.var "param") (.constant (.string "value"))) = .ok (.string value.compact) := by
    simp only [eval, hparam, bind, Except.bind]
    rfl
  refine renders_headerNodes hopen hclose ?_
  simpa [Identity.parameterText, String.append_assoc] using
    ((Renders.nil.output hvalue).text.output hname).text

/-- The usual block, written out as the template goes through it. -/
theorem usual_eq : usual d i content =
    d.startLine ++ "\n" ++
    (d.comment.opening ++ ("template: " ++ i.unit.template ++ "@" ++ i.unit.version) ++
      d.comment.closing ++ "\n") ++
    (d.comment.opening ++ ("partial: " ++ i.unit.part) ++ d.comment.closing ++ "\n") ++
    (String.join (i.parameters.map fun p =>
        d.comment.opening ++ Identity.parameterText p.1 p.2 ++ d.comment.closing ++ "\n") ++
      ("\n" ++ body content ++ "\n" ++ d.endLine ++ "\n")) := by
  simp [usual, Identity.headerLines, Identity.headerTexts, String.append_assoc, String.join_cons,
    String.join_append, Function.comp_def]

theorem renders_usualNodes : Renders (scope d i content) usualNodes (usual d i content) := by
  have hstart : Renders (scope d i content) [.output (.var "start"), .text "\n"]
      (d.startLine ++ "\n") := by
    simpa using Renders.nil.text.var rfl
  have htemplate : Renders (scope d i content)
      [.text "template: ", .output (.var "template"), .text "@", .output (.var "version")]
      ("template: " ++ i.unit.template ++ "@" ++ i.unit.version) := by
    simpa [String.append_assoc] using ((Renders.nil.var rfl).text.var rfl).text
  have hpart : Renders (scope d i content) [.text "partial: ", .output (.var "partial")]
      ("partial: " ++ i.unit.part) := by
    simpa using (Renders.nil.var rfl).text
  have hparameters : eval (scope d i content) (.var "parameters") =
      .ok (.list (i.parameters.map fun p => Value.ofJson (parameterValue p.1 p.2))) := by
    show Except.ok (Value.list (Value.ofJsonItems (i.parameters.map _))) = _
    rw [Value.ofJsonItems_map]
  have hend : Renders (scope d i content)
      [.text "\n", .output (.var "content"), .text "\n", .output (.var "end"), .text "\n"]
      ("\n" ++ body content ++ "\n" ++ d.endLine ++ "\n") := by
    simpa [String.append_assoc] using ((Renders.nil.text.var rfl).text.var rfl).text
  have hheader := (hstart.append (renders_headerNodes rfl rfl htemplate)).append
    (renders_headerNodes rfl rfl hpart)
  have hloop := hend.loop hparameters fun p _ frame h => renders_parameterNodes h
  rw [usual_eq]
  exact hheader.append hloop

theorem render_usualTemplate :
    render usualTemplate (pieces d i content) = .ok (usual d i content) := by
  have h : renderNodes usualNodes [Frame.ofMembers (pieces d i content)] =
      .ok (usual d i content, scope d i content) := renders_usualNodes
  rw [render, if_pos hasMarks_usualTemplate, template_usualTemplate]
  simp only [bind, Except.bind, h]
  rfl

/-- The block in its usual shape ends its last line. -/
theorem closeLine_usual : Text.closeLine (usual d i content) = usual d i content := by
  have hlast : (usual d i content).toList.getLast? = some '\n' := by
    rw [toList_usual, text, Text.row, Text.row, ← List.append_assoc, List.getLast?_concat]
  rw [Text.closeLine, Text.endsLine, hlast, if_pos (beq_self_eq_true _)]

/-- **The usual block is a template's block.** Under the usual template a block is made, whatever it
is made from, and it is the block in its usual shape. -/
theorem make_usualTemplate (d : Delimiters) (i : Identity) (content : String) :
    make d i (some usualTemplate) content = make d i none content := by
  rw [make, make, render_usualTemplate, Except.map, closeLine_usual]

end Scaffold.Block
