import Scaffold.FileOptions
import Scaffold.Manifest

/-!
# Options of a tree

The options of a file in a generated tree, from the lowest layer up: the defaults, overrides
for all trees, the options in the manifest of the folder, the directives of the file, and
overrides for a single run.
-/

namespace Scaffold.Resolver

/-- The defaults with overrides on top. -/
def base (overrides : Json.Members) : Except Failure Options :=
  Options.default.layerFrom "<overrides>" overrides

/-- The options of a folder: those of its manifest on top of a base. -/
def folderOptions (base : Options) (t : FileTree) (folder : Path) : Except Failure Options := do
  match ← Manifest.load t folder with
  | none => return base
  | some m => base.layerFrom ((Manifest.file? t folder).getD folder).text m.options

/-- The options of a file with a text, or of the folder if there is no file. -/
def resolveText (base : Options) (t : FileTree) (folder : Path) (file? : Option (Path × String))
    (runtime : Json.Members) : Except Failure Options := do
  let folderOptions ← folderOptions base t folder
  let o ← match file? with
    | some (path, text) => (FileOptions.read folderOptions path text).map (·.options)
    | none => .ok folderOptions
  o.withRuntime runtime

/-- The options of a file in the tree, or of the folder if there is no file. -/
def resolve (base : Options) (t : FileTree) (folder : Path) (file? : Option Path)
    (runtime : Json.Members) : Except Failure Options := do
  let text? ← match file? with
    | some path => (t.readOptional path).mapError Failure.file
    | none => .ok none
  let file? := match file?, text? with
    | some path, some text => some (path, text)
    | _, _ => none
  resolveText base t folder file? runtime

end Scaffold.Resolver
