import Scaffold.CommandLine.Run

/-!
# The program

The files below the folders that a command speaks of are read from the disk, the command runs
on the tree of them, and what it changed is written back. A file is written beside its place
first and then moved there.
-/

namespace Scaffold.Disk

/-- The place that a path leads to from a folder, by its steps alone. -/
def placeOf (here : Location) (p : Path) : Location :=
  (FileTree.steps p).foldl (fun place step => match step with
    | [] | ['.'] => place
    | ['.', '.'] => place.dropLast
    | name => place ++ [String.ofList name]) (if p.isAbsolute then [] else here)

/-- The path of a place. -/
def pathText (place : Location) : String := "/" ++ String.intercalate "/" place

/-- The tree with the folders that lead to a place. -/
def withFolders (t : FileTree) (place : Location) : FileTree :=
  (List.range (place.length + 1)).foldl (fun t n =>
    if (t.entry? (place.take n)).isSome then t else t.set (place.take n) .folder) t

/-- The tree with what is at a place of the disk, up to a depth. -/
def load : (depth : Nat) → Location → FileTree → IO FileTree
  | 0, _, t => pure t
  | depth + 1, place, t => do
    let real ← IO.FS.realPath (pathText place)
    if ← real.isDir then
      let mut t := withFolders t place
      for entry in ← real.readDir do
        t ← load depth (place ++ [entry.fileName]) t
      return t
    else if ← real.pathExists then
      let bytes ← IO.FS.readBinFile real
      return (withFolders t place.dropLast).set place (.file (Content.ofBytes bytes.toList))
    else return t

/-- The depth to which folders are read. -/
def maxDepth : Nat := 64

/-- The places that a command speaks of. -/
def placesOf (here : Location) (i : CommandLine.Invocation) : List Location :=
  let root := i.root?.getD ⟨pathText here⟩
  placeOf here root :: match i.command? with
    | some (.apply _ templates _ _ _ _) => [placeOf here (root.join templates)]
    | some (.regions file) => [placeOf here (root.join file)]
    | some (.options (some file) _) => [placeOf here (root.join file)]
    | _ => []

/-- The tree of the files that the arguments speak of. -/
def read (here : Location) (arguments : List String) : IO FileTree := do
  let start := withFolders ⟨here, []⟩ here
  match CommandLine.readArguments arguments with
  | .error _ => return start
  | .ok i => (placesOf here i).foldlM (fun t place => load maxDepth place t) start

/-- The bytes of a file. -/
def bytesOf : Content → ByteArray
  | .text s => s.toUTF8
  | .bytes bs => ⟨bs.toArray⟩

/-- What has changed at a place is written. -/
def writeEntry (old : FileTree) (place : Location) (e : Entry) : IO Unit := do
  if old.entry? place = some e then return
  match e with
  | .folder => IO.FS.createDirAll (pathText place)
  | .file c =>
    IO.FS.createDirAll (pathText place.dropLast)
    let name := "." ++ place.getLast?.getD "file" ++ FileTree.temporaryMark
    let beside := pathText (place.dropLast ++ [name])
    IO.FS.writeBinFile beside (bytesOf c)
    IO.FS.rename beside (pathText place)

/-- What has changed in a tree is written. -/
def write (old new : FileTree) : IO Unit :=
  new.entries.forM fun (place, e) => writeEntry old place e

end Scaffold.Disk

open Scaffold in
/-- The program. -/
def main (arguments : List String) : IO UInt32 := do
  let here := Disk.placeOf [] ⟨toString (← IO.currentDir)⟩
  let tree ← Disk.read here arguments
  let outcome := CommandLine.run arguments tree
  Disk.write tree outcome.tree
  IO.print outcome.out
  IO.eprint outcome.err
  return UInt32.ofNat outcome.exit
