import Scaffold.FileTree.Fault
import Scaffold.Path

/-!
# File trees

The files and folders that the work is done on, by their places. A path is followed step by
step from the root or from the current folder: every place on the way has to be a folder,
`..` leads to the folder around, and a path that ends with a slash has to end at a folder. A
file is written as a whole, after the folders around it have been made.
-/

namespace Scaffold

/-- The names that lead from the root to a file or folder. -/
abbrev Location := List String

/-- What a file holds: a text, or bytes that are none. -/
inductive Content where
  | text (text : String)
  | bytes (bytes : List UInt8)
deriving DecidableEq, Inhabited

namespace Content

/-- What a file with these bytes holds. -/
def ofBytes (bytes : List UInt8) : Content :=
  match String.fromUTF8? ⟨bytes.toArray⟩ with
  | some s => .text s
  | none => .bytes bytes

/-- The text of a file. -/
def read : Content → Except FileFault String
  | .text s => .ok s
  | .bytes _ => .error .notText

end Content

/-- What stands at a place. -/
inductive Entry where
  | folder
  | file (content : Content)
deriving DecidableEq, Inhabited

/-- Files and folders by their places, and the current folder. -/
structure FileTree where
  here : Location
  entries : List (Location × Entry)
deriving Inhabited

namespace FileTree

/-- The tree with nothing but the root. -/
def empty : FileTree := ⟨[], []⟩

/-! ### Places -/

/-- What stands at a place. The root is always a folder. -/
def entry? (t : FileTree) (place : Location) : Option Entry :=
  if place.isEmpty then some .folder else t.entries.lookup place

/-- An entry is set in a list of entries. -/
def setEntry (place : Location) (e : Entry) : List (Location × Entry) → List (Location × Entry)
  | [] => [(place, e)]
  | (other, old) :: rest =>
    if other = place then (place, e) :: rest else (other, old) :: setEntry place e rest

/-- The tree with something at a place. -/
def set (t : FileTree) (place : Location) (e : Entry) : FileTree :=
  ⟨t.here, setEntry place e t.entries⟩

/-- The tree without a place and all that is below it. -/
def erase (t : FileTree) (place : Location) : FileTree :=
  ⟨t.here, t.entries.filter fun (other, _) => !place.isPrefixOf other⟩

/-- The place that steps lead to. Before each step the place has to be a folder. -/
def walk (t : FileTree) : Location → List (List Char) → Except FileFault Location
  | place, [] => .ok place
  | place, step :: rest =>
    match t.entry? place with
    | none => .error .notFound
    | some (.file _) => .error .notDirectory
    | some .folder =>
      match step with
      | [] | ['.'] => walk t place rest
      | ['.', '.'] => walk t place.dropLast rest
      | name => walk t (place ++ [String.ofList name]) rest

/-- The steps of a path. -/
def steps (p : Path) : List (List Char) := Text.splitOn '/' p.text.toList

/-- Where a path starts. -/
def origin (t : FileTree) (p : Path) : Location := if p.isAbsolute then [] else t.here

/-- The place that a path leads to, which may be empty. -/
def locate (t : FileTree) (p : Path) : Except FileFault Location :=
  if p.text.isEmpty then .error .notFound else t.walk (t.origin p) (steps p)

/-- What stands where a path leads to. -/
def find (t : FileTree) (p : Path) : Except FileFault Entry := do
  match t.entry? (← t.locate p) with
  | some e => .ok e
  | none => .error .notFound

/-- The path leads to a folder. -/
def isFolder (t : FileTree) (p : Path) : Bool :=
  match t.find p with
  | .ok .folder => true
  | _ => false

/-- The path leads to a file. -/
def isFile (t : FileTree) (p : Path) : Bool :=
  match t.find p with
  | .ok (.file _) => true
  | _ => false

/-! ### Reading -/

/-- The text of the file at a path. -/
def read (t : FileTree) (p : Path) : Except FileFault String := do
  match ← t.find p with
  | .folder => .error .isDirectory
  | .file c => c.read

/-- The text of the file at a path, if there is a file. -/
def readOptional (t : FileTree) (p : Path) : Except FileFault (Option String) :=
  match t.read p with
  | .ok s => .ok (some s)
  | .error .notFound => .ok none
  | .error e => .error e

/-- Part of the names of files that are being written. -/
def temporaryMark : String := ".scf-tmp-"

/-- The file counts among the files of a folder, where its names lead to it from the folder. -/
def isListed (names : List String) : Bool :=
  !names.contains ".git" &&
    !names.getLast?.any fun name => Text.occurs temporaryMark.toList name.toList

/-- The names that lead to the files below a place. -/
def below (t : FileTree) (place : Location) : List (List String) :=
  t.entries.filterMap fun (other, e) =>
    match e with
    | .file _ => if place.isPrefixOf other then some (other.drop place.length) else none
    | .folder => none

/-- The path of names. -/
def pathOf (names : List String) : Path := ⟨String.intercalate "/" names⟩

/-- The files below the folder at a path, as paths from there, in order. A file counts as the
only file below itself. -/
def list (t : FileTree) (p : Path) : Except FileFault (List Path) := do
  let place ← t.locate p
  match t.entry? place with
  | none => .error .notFound
  | some _ =>
    return (((t.below place).filter isListed).map pathOf).mergeSort Path.le

/-! ### Writing -/

/-- The place of the folder at a path. The empty path stands for the current folder. -/
def locateFolder (t : FileTree) (p : Path) : Except FileFault Location := do
  t.walk (t.origin p) (steps p ++ [[]])

/-- A folder is made. The folder around it has to be there. -/
def makeFolder (t : FileTree) (p : Path) : Except FileFault FileTree :=
  match p.components.getLast? with
  | none => .error .notFound
  | some last => do
    let outer ← t.locateFolder (p.parent?.getD p)
    match last with
    | .normal name =>
      let place := outer ++ [name]
      if (t.entry? place).isSome then .error .exists else .ok (t.set place .folder)
    | _ => .error .exists

/-- The outcome of an attempt to make a folder that may be there already. -/
def settled (t : FileTree) (p : Path) (e : FileFault) : FileTree × Except FileFault Unit :=
  (t, if t.isFolder p then .ok () else .error e)

/-- The folder at a path and the folders around it are made as far as they are missing. The
components are given from the last to the first. -/
def makeFoldersFrom (t : FileTree) : List Component → FileTree × Except FileFault Unit
  | [] => (t, .ok ())
  | c :: outer =>
    let p := Path.ofComponents (c :: outer).reverse
    match t.makeFolder p with
    | .ok t => (t, .ok ())
    | .error .notFound =>
      match makeFoldersFrom t outer with
      | (t, .error e) => (t, .error e)
      | (t, .ok ()) =>
        match t.makeFolder p with
        | .ok t => (t, .ok ())
        | .error e => t.settled p e
    | .error e => t.settled p e

/-- The folder at a path is made, with the folders around it. -/
def makeFolders (t : FileTree) (p : Path) : FileTree × Except FileFault Unit :=
  t.makeFoldersFrom p.components.reverse

/-- The place where the file at a path goes, in a folder that is there. -/
def placeFor (t : FileTree) (p : Path) : Except FileFault Location := do
  let outer ← t.locateFolder (if p.fileName?.isSome then p.parent?.getD p else p)
  if p.text.isEmpty then .error .notFound
  else
    match ((steps p).filter (!·.isEmpty)).getLast? with
    | none | some ['.'] | some ['.', '.'] => .error .busy
    | some name =>
      let place := outer ++ [String.ofList name]
      if (steps p).getLast? == some [] then .error .notDirectory
      else match t.entry? place with
        | some .folder => .error .isDirectory
        | _ => .ok place

/-- The folders around the file at a path are made as far as they are missing. -/
def makeWay (t : FileTree) (p : Path) : FileTree × Except FileFault Unit :=
  t.makeFolders (p.parent?.getD ⟨""⟩)

/-- A file is put in its place, in a folder that is there. A file that is there is replaced as a
whole. -/
def putInPlace (t : FileTree) (p : Path) (c : Content) : FileTree × Except FileFault Unit :=
  match t.placeFor p with
  | .ok place => (t.set place (.file c), .ok ())
  | .error e => (t, .error e)

/-- A file is written, in folders that are made as far as they are missing. -/
def put (t : FileTree) (p : Path) (c : Content) : FileTree × Except FileFault Unit :=
  match t.makeWay p with
  | (t, .error e) => (t, .error e)
  | (t, .ok ()) => t.putInPlace p c

/-- A text file is written. -/
def write (t : FileTree) (p : Path) (s : String) : FileTree × Except FileFault Unit :=
  t.put p (.text s)

/-- A file or folder is removed, with all that is in it. -/
def remove (t : FileTree) (p : Path) : Except FileFault FileTree := do
  let place ← t.locate p
  match t.entry? place with
  | some _ => return t.erase place
  | none => .error .notFound

end FileTree
end Scaffold
