import Scaffold.Failure
import Scaffold.FileTree
import Scaffold.Manifest
import Scaffold.Options

/-!
# Targets

Where a source file goes. A target path is taken from the root of the target tree, with its
names written as the options ask. A glob pattern stands for every file of the tree that
matches it, manifests aside.
-/

namespace Scaffold.Target

/-- The path is a glob pattern. -/
def isGlob (path : String) : Bool := path.toList.any fun c => c == '*' || c == '?' || c == '['

/-- The path with backslashes as slashes. -/
def pattern (target : Path) : String :=
  String.ofList (Text.replaceChar '\\' '/' target.text.toList)

/-- The path is one of a manifest. -/
def isManifest (p : Path) : Bool := Manifest.fileNames.any p.same

/-- The files below a folder that match a pattern, in order. -/
def matching (t : FileTree) (root : Path) (tokens : List Glob.Token) :
    Except Failure (List Path) := do
  if t.isFolder root then
    let files ← (t.list root).mapError Failure.file
    return (files.filter fun p => !isManifest p && Glob.isMatch tokens p.text).map root.join
  else return []

/-- The files that a target path stands for. -/
def resolve (t : FileTree) (root target : Path) (o : Options) : Except Failure (List Path) :=
  let pattern := pattern target
  if isGlob pattern then
    match Glob.parse pattern with
    | .error fault => .error (.glob pattern fault)
    | .ok tokens => matching t root tokens
  else .ok [root.join (target.rename o.folderNaming o.fileNaming)]

end Scaffold.Target
