import Scaffold.Failure
import Scaffold.Options

/-!
# Options of a file

The options of a file are those of its folder with the directives of the file on top, in
order. Directives inside regions belong to generated content and are passed over. Overrides
for a single run come last.
-/

namespace Scaffold

/-- The options of a file and the directives they come from. -/
structure FileOptions where
  options : Options
  directives : List Directive
deriving Inhabited

namespace Options

/-- The options with overrides on top that come from a named place. -/
def layerFrom (place : String) (o : Options) (overrides : Json.Members) :
    Except Failure Options :=
  (o.layer overrides).mapError fun e => .options place (.decoding e)

/-- The options with the overrides of a run on top. -/
def withRuntime (o : Options) (overrides : Json.Members) : Except Failure Options :=
  o.layerFrom "<runtime overrides>" overrides

end Options

namespace FileOptions

/-- The directives of a text that stand outside the regions. -/
def outsideRegions (base : Options) (path : Path) (text : String) :
    Except Failure (List Directive) := do
  let regions ← (Region.scan (.ofOptions base path) text).mapError .region
  (Directive.scan base.optionMarker (Region.spans regions) text).mapError fun fault =>
    .options path.text (.directive fault)

/-- The options of the file at a path with a text. -/
def read (base : Options) (path : Path) (text : String) : Except Failure FileOptions := do
  let ds ← outsideRegions base path text
  let options ← ds.foldlM (fun o d => o.layerFrom path.text d.payload) base
  return ⟨options, ds⟩

end FileOptions
end Scaffold
