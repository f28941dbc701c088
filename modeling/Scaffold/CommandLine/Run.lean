import Scaffold.Apply
import Scaffold.CommandLine.Arguments

/-!
# Running commands

What a command prints and what it makes of the files. The exit code is 0 if all went well, 1
if a file failed or there was no command, and 2 if the command could not be carried out.

The program can come to what workers make of an application (`MayRun`). `run` works on the files in
order.
-/

namespace Scaffold.CommandLine

/-- What a run leaves behind. -/
structure Outcome where
  exit : Nat
  out : String
  err : String
  tree : FileTree
deriving Inhabited

/-- The path of the current folder. -/
def currentFolder (t : FileTree) : Path := ⟨"/" ++ String.intercalate "/" t.here⟩

/-- Lines of text, each of them ended. -/
def lines (ls : List String) : String := String.join (ls.map (· ++ "\n"))

/-- What is shown of a failure: its code, its wording, and what can be done about it. -/
def failureText (f : Failure) : String :=
  lines ([f.code, "", "  x " ++ f.message] ++
    match f.help? with
    | some help => ["  help: " ++ help]
    | none => [])

/-- The command could not be carried out. -/
def stopped (t : FileTree) (f : Failure) : Outcome := ⟨2, "", failureText f, t⟩

/-- The command could not be carried out, for a reason of its own. -/
def refused (t : FileTree) (message : String) : Outcome := ⟨2, "", lines ["error: " ++ message], t⟩

/-! ### Applying -/

/-- The lines for what became of the targets of a file, and the targets told so far. -/
def targetLines (root : Path) (isVerbose : Bool) :
    (told : List Path) → List TargetOutcome → List String × List Path
  | told, [] => ([], told)
  | told, o :: rest =>
    if told.any o.path.same then targetLines root isVerbose told rest
    else
      let (more, told) := targetLines root isVerbose (told ++ [o.path]) rest
      let path := ((Path.stripStart? root o.path).getD o.path).text
      if o.written then (("  wrote " ++ path) :: more, told)
      else if isVerbose then (("  unchanged " ++ path) :: more, told)
      else (more, told)

/-- The lines for what became of files: those for the output and those for errors. -/
def fileLines (root : Path) (isVerbose : Bool) :
    (told : List Path) → List FileOutcome → List String × List String
  | _, [] => ([], [])
  | told, ⟨source, state⟩ :: rest =>
    match state with
    | .done targets =>
      let (shown, told) := targetLines root isVerbose told targets
      let (out, err) := fileLines root isVerbose told rest
      (shown ++ out, err)
    | .failed f =>
      let (out, err) := fileLines root isVerbose told rest
      (out, ("  failed " ++ source.text ++ " during " ++ f.stage.name ++ ": " ++
        f.failure.message) :: err)
    | .skipped =>
      let (out, err) := fileLines root isVerbose told rest
      (out, ("  skipped " ++ source.text) :: err)

/-- The last line for an application that succeeded. -/
def summary (r : UnitReport) : String :=
  let count := toString r.written.length
  if r.reapplied then "Re-applied " ++ r.unit.text ++ " (" ++ count ++ " file(s) changed)"
  else "Applied " ++ r.unit.text ++ " (" ++ count ++ " file(s) written)"

/-- What is told of an application. -/
def reportOutcome (root : Path) (isVerbose : Bool) (r : UnitReport) (t : FileTree) : Outcome :=
  let (out, err) := fileLines root isVerbose [] r.files
  if r.isOk then ⟨0, lines (out ++ [summary r]), lines err, t⟩
  else
    let last := "error: " ++ r.unit.text ++ " was not recorded: " ++
      toString r.failures.length ++ " file(s) failed"
    ⟨1, lines out, lines (err ++ [last]), t⟩

/-- What is told of what an application has come to. -/
def appliedOutcome {σ : Type} (root : Path) (isVerbose : Bool) (applied : Applied σ) : Outcome :=
  match applied.report with
  | .error f => stopped applied.tree f
  | .ok r => reportOutcome root isVerbose r applied.tree

/-- The templates of a folder, each of which is read once. -/
def templatesOf (root templates : Path) : Source (Source.Remembered Unit) :=
  Source.remembering (Source.folder (root.join templates))

/-- What an application is asked for. -/
def requestOf (root : Path) (unit : UnitName) (parameters options : List (String × Json.Value)) :
    Request :=
  ⟨⟨unit, .ofPairs parameters⟩, root, .ofPairs options⟩

/-- A unit is applied, one file at a time. -/
def runApply (root : Path) (isVerbose : Bool) (unit : UnitName) (templates : Path)
    (parameters options : List (String × Json.Value)) (t : FileTree) : Outcome :=
  appliedOutcome root isVerbose (Generator.builtin.apply (templatesOf root templates)
    (requestOf root unit parameters options) t (.start ()))

/-- What a unit that is applied by workers may come to. -/
def MayApply (w : Workers) (root : Path) (isVerbose : Bool) (unit : UnitName) (templates : Path)
    (parameters options : List (String × Json.Value)) (t : FileTree) (o : Outcome) : Prop :=
  ∃ applied, Generator.builtin.Applies w (templatesOf root templates)
    (requestOf root unit parameters options) t (.start ()) applied ∧
      o = appliedOutcome root isVerbose applied

/-! ### Looking -/

/-- A number with blanks before it up to a width. -/
def padded (width n : Nat) : String :=
  let digits := toString n
  String.ofList (List.replicate (width - digits.length) ' ') ++ digits

/-- The number of the line at a byte offset. -/
def lineAt (s : String) (offset : Nat) : Nat :=
  (Text.takeBytes offset s.toList).count '\n' + 1

/-- The line for a region. -/
def regionLine (s : String) (r : Region) : String :=
  padded 5 (lineAt s r.start) ++ "  " ++
    match r.identity? with
    | some i => i.unit.text ++ "  " ++ (Json.Value.object i.parameters).compact
    | none => "(unidentified)"

/-- The regions of a file with a text. -/
def fileRegions (root file : Path) (s : String) (t : FileTree) : Except Failure (List Region) := do
  let o ← Resolver.resolveText .default t root (some (file, s)) []
  Merge.regions (.ofOptions o file) s

/-- The regions of a file are listed. -/
def runRegions (root file : Path) (t : FileTree) : Outcome :=
  let file := root.join file
  match t.readOptional file with
  | .error e => stopped t (.file e)
  | .ok none => refused t ("`" ++ file.text ++ "` does not exist")
  | .ok (some s) =>
    match fileRegions root file s t with
    | .error e => stopped t e
    | .ok [] => ⟨0, lines ["No regions found in " ++ file.text], "", t⟩
    | .ok regions => ⟨0, lines (regions.map (regionLine s)), "", t⟩

/-- The options of a file or of the folder are shown. -/
def runOptions (root : Path) (file? : Option Path) (options : List (String × Json.Value))
    (t : FileTree) : Outcome :=
  match Resolver.resolve .default t root (file?.map root.join) (.ofPairs options) with
  | .error e => stopped t e
  | .ok o => ⟨0, lines [(Json.Value.object o.toMembers).pretty], "", t⟩

/-! ### Commands -/

/-- The name and the version of the program. -/
def versionText : String := "scf_cli 0.3.0"

/-- How the program is used. -/
def helpText : String :=
  lines ["Apply template partials to a project, idempotently.", "",
    "Usage: scf [OPTIONS] [COMMAND]", "",
    "Commands:",
    "  apply    Apply a template partial to the project",
    "  regions  List the generated regions found in a file",
    "  options  Print the effective options for a file as JSON", "",
    "Options:",
    "  -p, --path <PATH>  Path to the project root directory",
    "  -v, --verbose      Enable verbose output",
    "      --no-color     Disable colored output"]

/-- The folder that a command is for. -/
def Invocation.root (i : Invocation) (t : FileTree) : Path := i.root?.getD (currentFolder t)

/-- A command is carried out. -/
def runCommand (i : Invocation) (t : FileTree) : Outcome :=
  let root := i.root t
  match i.command? with
  | none => ⟨1, "", lines ["No subcommand specified. Run `scf --help` for usage."], t⟩
  | some (.apply unit templates parameters options _ _) =>
    runApply root i.isVerbose unit templates parameters options t
  | some (.regions file) => runRegions root file t
  | some (.options file? options) => runOptions root file? options t

/-- What a command may come to on a machine that can run so many workers. -/
def MayCome (cores : Nat) (i : Invocation) (t : FileTree) (o : Outcome) : Prop :=
  match i.command? with
  | some (.apply unit templates parameters options debug workers) =>
    MayApply ⟨debug, workers, cores⟩ (i.root t) i.isVerbose unit templates parameters options t o
  | _ => o = runCommand i t

/-- The program runs with its arguments on the files. -/
def run (arguments : List String) (t : FileTree) : Outcome :=
  match readArguments arguments with
  | .ok i => runCommand i t
  | .error .help => ⟨0, helpText, "", t⟩
  | .error .version => ⟨0, lines [versionText], "", t⟩
  | .error (.refused message) =>
    ⟨2, "", lines ["error: " ++ message, "", "For more information, try '--help'."], t⟩

/-- What the program may come to on a machine that can run so many workers. -/
def MayRun (cores : Nat) (arguments : List String) (t : FileTree) (o : Outcome) : Prop :=
  match readArguments arguments with
  | .ok i => MayCome cores i t o
  | .error _ => o = run arguments t

end Scaffold.CommandLine
