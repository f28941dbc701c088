import Scaffold.CommandLine.KeyValue
import Scaffold.Path
import Scaffold.UnitName

/-!
# Arguments

The arguments of the program: a command with its options. Options have long names, and some
have letters, which can be put together behind one hyphen. A value stands behind its option,
or follows an equals sign. The options for the folder, for more output and for output without
colours are taken before and behind the command. Behind two hyphens nothing is an option.
-/

namespace Scaffold.CommandLine

/-- What the program is asked to do. -/
inductive Command where
  /-- Apply a unit, one file at a time or with so many workers, where none stands for as many as the
  machine can run. -/
  | apply (unit : UnitName) (templates : Path) (parameters options : List (String × Json.Value))
    (debug : Bool) (workers : Nat)
  /-- List the regions of a file. -/
  | regions (file : Path)
  /-- Show the options of a file or of the folder. -/
  | options (file? : Option Path) (options : List (String × Json.Value))
deriving Inhabited

/-- A command with the options that all commands have. -/
structure Invocation where
  root? : Option Path
  isVerbose : Bool
  command? : Option Command
deriving Inhabited

/-- Why no command comes out of the arguments. -/
inductive Stop where
  | help
  | version
  | refused (message : String)
deriving DecidableEq, Inhabited

/-! ### Options -/

/-- The names of commands. -/
inductive CommandName where
  | apply
  | regions
  | options
deriving DecidableEq, Inhabited

/-- The command of a name. -/
def CommandName.ofText? : String → Option CommandName
  | "apply" => some .apply
  | "regions" => some .regions
  | "options" => some .options
  | _ => none

/-- Something that arguments give. -/
inductive Slot where
  | path
  | verbose
  | noColor
  | help
  | version
  | unit
  | templates
  | parameter
  | option
  | debug
  | workers
  | file
deriving DecidableEq, Inhabited

namespace Slot

/-- A value is given. -/
def takesValue : Slot → Bool
  | .verbose | .noColor | .help | .version | .debug => false
  | _ => true

/-- It may be given several times. -/
def mayRepeat : Slot → Bool
  | .parameter | .option => true
  | _ => false

/-- How messages name it. -/
def usage (command? : Option CommandName) : Slot → String
  | .path => "--path <PATH>"
  | .verbose => "--verbose"
  | .noColor => "--no-color"
  | .help => "--help"
  | .version => "--version"
  | .unit => "<UNIT>"
  | .templates => "--templates <TEMPLATES>"
  | .parameter => "--param <PARAMS>"
  | .option => "--option <OPTIONS>"
  | .debug => "--debug"
  | .workers => "--workers <WORKERS>"
  | .file => if command? = some .options then "[FILE]" else "<FILE>"

/-- The option of a long name. -/
def ofLong? (command? : Option CommandName) (name : String) : Option Slot :=
  match name, command? with
  | "path", _ => some .path
  | "verbose", _ => some .verbose
  | "no-color", _ => some .noColor
  | "help", _ => some .help
  | "version", none => some .version
  | "templates", some .apply => some .templates
  | "param", some .apply => some .parameter
  | "option", some .apply | "option", some .options => some .option
  | "debug", some .apply => some .debug
  | "workers", some .apply => some .workers
  | _, _ => none

/-- The option of a letter. -/
def ofLetter? (command? : Option CommandName) (letter : Char) : Option Slot :=
  match letter, command? with
  | 'p', _ => some .path
  | 'v', _ => some .verbose
  | 'h', _ => some .help
  | 'V', none => some .version
  | _, _ => none

/-- What an argument that is no option gives. -/
def ofPlace : CommandName → Slot
  | .apply => .unit
  | .regions | .options => .file

end Slot

/-! ### Values -/

/-- What the arguments have given so far. -/
structure Draft where
  command? : Option CommandName
  /-- What has been given since the command. -/
  given : List Slot
  path? : Option Path
  isVerbose : Bool
  unit? : Option UnitName
  templates? : Option Path
  parameters : List (String × Json.Value)
  options : List (String × Json.Value)
  isDebug : Bool
  workers : Nat
  file? : Option Path
deriving Inhabited

/-- The draft before the first argument. -/
def Draft.empty : Draft := ⟨none, [], none, false, none, none, [], [], false, 0, none⟩

/-- The greatest number of workers. -/
def maxWorkers : Nat := 18446744073709551615

/-- The number that decimal digits spell. -/
def digitsValue (digits : List Char) : Nat :=
  digits.foldl (fun n c => n * 10 + (c.toNat - '0'.toNat)) 0

/-- A number of workers, or what is wrong with it. -/
def readWorkers (s : String) : Except String Nat :=
  let digits := match s.toList with
    | '+' :: c :: rest => c :: rest
    | s => s
  if digits.isEmpty then .error "cannot parse integer from empty string"
  else if !digits.all Char.isDigit then .error "invalid digit found in string"
  else if maxWorkers < digitsValue digits then .error "number too large to fit in target type"
  else .ok (digitsValue digits)

namespace Draft

/-- A value is not accepted. -/
def invalid {α : Type} (d : Draft) (slot : Slot) (value reason : String) : Except Stop α :=
  .error (.refused ("invalid value '" ++ value ++ "' for '" ++ slot.usage d.command? ++ "': " ++
    reason))

/-- A value is missing. -/
def missing {α : Type} (d : Draft) (slot : Slot) : Except Stop α :=
  .error (.refused ("a value is required for '" ++ slot.usage d.command? ++
    "' but none was supplied"))

/-- A path, which may not be empty. -/
def pathValue (d : Draft) (slot : Slot) (value : String) : Except Stop Path :=
  if value.isEmpty then d.missing slot else .ok ⟨value⟩

/-- A named value. -/
def pairValue (d : Draft) (slot : Slot) (value : String) : Except Stop (String × Json.Value) :=
  match parseKeyValue value with
  | .ok pair => .ok pair
  | .error reason => d.invalid slot value reason

/-- A value is given. -/
def setValue (d : Draft) (slot : Slot) (value : String) : Except Stop Draft := do
  match slot with
  | .path => return { d with path? := some (← d.pathValue slot value) }
  | .templates => return { d with templates? := some (← d.pathValue slot value) }
  | .file => return { d with file? := some (← d.pathValue slot value) }
  | .unit =>
    match UnitName.parse? value with
    | some u => return { d with unit? := some u }
    | none => d.invalid slot value (UnitName.refusal value)
  | .parameter => return { d with parameters := d.parameters ++ [← d.pairValue slot value] }
  | .option => return { d with options := d.options ++ [← d.pairValue slot value] }
  | .workers =>
    match readWorkers value with
    | .ok workers => return { d with workers := workers }
    | .error reason => d.invalid slot value reason
  | _ => return d

/-- Something is given once more. -/
def mark (d : Draft) (slot : Slot) : Except Stop Draft :=
  if !slot.mayRepeat && d.given.contains slot then
    .error (.refused ("the argument '" ++ slot.usage d.command? ++
      "' cannot be used multiple times"))
  else .ok { d with given := slot :: d.given }

/-- An option without a value is given. -/
def setFlag (d : Draft) (slot : Slot) : Except Stop Draft := do
  match slot with
  | .help => throw .help
  | .version => throw .version
  | .verbose => return { (← d.mark slot) with isVerbose := true }
  | .debug => return { (← d.mark slot) with isDebug := true }
  | _ => d.mark slot

end Draft

/-! ### Reading -/

/-- An option whose value has been read but not looked at, or has not been read yet. -/
structure Pending where
  slot : Slot
  value? : Option String

/-- The value that has been read is looked at. -/
def Draft.settle (d : Draft) : Option Pending → Except Stop Draft
  | none => .ok d
  | some ⟨slot, none⟩ => d.missing slot
  | some ⟨slot, some value⟩ => do (← d.mark slot).setValue slot value

/-- The argument is not known. -/
def unexpected {α : Type} (argument : String) : Except Stop α :=
  .error (.refused ("unexpected argument '" ++ argument ++ "' found"))

/-- A draft and the option whose value comes next or was last. -/
abbrev Progress := Draft × Option Pending

/-- An option of a long name with what follows an equals sign. -/
def readLong (d : Draft) (pending? : Option Pending) (name : String) (value? : Option String) :
    Except Stop Progress := do
  match Slot.ofLong? d.command? name with
  | none => unexpected ("--" ++ name)
  | some slot =>
    let d ← d.settle pending?
    if slot.takesValue then return (d, some ⟨slot, value?⟩)
    else
      match value? with
      | none => return (← d.setFlag slot, none)
      | some value =>
        throw (.refused ("unexpected value '" ++ value ++ "' for '" ++ slot.usage d.command? ++
          "' found; no more were expected"))

/-- Options by their letters. What follows the letter of an option with a value is the value. -/
def readLetters : Draft → Option Pending → List Char → Except Stop Progress
  | d, pending?, [] => .ok (d, pending?)
  | d, pending?, c :: rest =>
    match Slot.ofLetter? d.command? c with
    | none => unexpected ("-" ++ String.singleton c)
    | some slot => do
      let d ← d.settle pending?
      if slot.takesValue then
        match rest with
        | [] => return (d, some ⟨slot, none⟩)
        | '=' :: value => return (d, some ⟨slot, some (String.ofList value)⟩)
        | value => return (d, some ⟨slot, some (String.ofList value)⟩)
      else readLetters (← d.setFlag slot) none rest

/-- An argument that is no option: a value, a command, or what the command takes. -/
def readPlain (d : Draft) (pending? : Option Pending) (argument : String) :
    Except Stop Progress := do
  match pending?, d.command? with
  | some ⟨slot, none⟩, _ => return (d, some ⟨slot, some argument⟩)
  | _, none =>
    let d ← d.settle pending?
    match CommandName.ofText? argument with
    | some command => return ({ d with command? := some command, given := [] }, none)
    | none =>
      if argument = "help" then throw .help
      else throw (.refused ("unrecognized subcommand '" ++ argument ++ "'"))
  | _, some command =>
    let slot := Slot.ofPlace command
    let isTaken := d.given.contains slot || pending?.any (·.slot = slot)
    if isTaken then unexpected argument
    else return (← d.settle pending?, some ⟨slot, some argument⟩)

/-- The arguments behind the ones that have been read. -/
def readFrom : Draft → Option Pending → (isPlain : Bool) → List String → Except Stop Draft
  | d, pending?, _, [] => d.settle pending?
  | d, pending?, isPlain, argument :: rest => do
    let progress : Progress ←
      match isPlain, argument.toList with
      | true, _ =>
        match pending? with
        | some ⟨slot, none⟩ => d.missing slot
        | _ => readPlain d pending? argument
      | false, ['-', '-'] => .ok (d, pending?)
      | false, '-' :: '-' :: option =>
        match Text.splitFirst? '=' option with
        | some (name, value) =>
          readLong d pending? (String.ofList name) (some (String.ofList value))
        | none => readLong d pending? (String.ofList option) none
      | false, '-' :: c :: letters => readLetters d pending? (c :: letters)
      | false, _ => readPlain d pending? argument
    readFrom progress.1 progress.2 (isPlain || argument = "--") rest

/-- Something that has to be given is missing. -/
def incomplete {α : Type} (usage : String) : Except Stop α :=
  .error (.refused ("the following required arguments were not provided:\n  " ++ usage))

/-- The command that a draft amounts to. -/
def Draft.command (d : Draft) : Except Stop (Option Command) :=
  match d.command? with
  | none => .ok none
  | some .apply =>
    match d.unit? with
    | some unit =>
      .ok (some (.apply unit (d.templates?.getD ⟨"templates"⟩) d.parameters d.options d.isDebug
        d.workers))
    | none => incomplete "<UNIT>"
  | some .regions =>
    match d.file? with
    | some file => .ok (some (.regions file))
    | none => incomplete "<FILE>"
  | some .options => .ok (some (.options d.file? d.options))

/-- What the arguments ask for. -/
def readArguments (arguments : List String) : Except Stop Invocation := do
  let d ← readFrom .empty none false arguments
  return ⟨d.path?, d.isVerbose, ← d.command⟩

end Scaffold.CommandLine
