import Scaffold.Directive
import Scaffold.Document
import Scaffold.FileTree.Fault
import Scaffold.Glob
import Scaffold.Path
import Scaffold.Region
import Scaffold.Template.Fault

/-!
# Failures

Everything that can stop the work on a file or a unit, with the wording, the code and the
advice that a report shows. The faults of the parts keep their own types here.
-/

namespace Scaffold

/-- Why options cannot be read. -/
inductive OptionsFault where
  | decoding (error : Json.TypeError)
  | directive (fault : Directive.Fault)
deriving DecidableEq, Inhabited

/-- The wording of a fault of options. -/
def OptionsFault.message : OptionsFault → String
  | .decoding e => e.message
  | .directive ⟨line, complaint⟩ =>
    "line " ++ toString line ++ ": " ++
      match complaint with
      | .unbalanced marker => "unbalanced braces in `" ++ marker ++ "` directive"
      | .refused e => e.message

/-- Why a template or a part of it cannot be had. -/
inductive SourceFault where
  | missing (folder : Path)
  | unreadable (file : Path) (error : Json.Error)
  | unlistable (folder : Path) (fault : FileFault)
deriving DecidableEq, Inhabited

/-- The wording of a fault of a template source. -/
def SourceFault.message : SourceFault → String
  | .missing folder => "`" ++ folder.text ++ "` does not exist"
  | .unreadable file e => file.text ++ ": " ++ e.message
  | .unlistable folder fault =>
    folder.text ++ ": IO error for operation on " ++ folder.text ++ ": " ++ fault.message

/-- What stopped the work. -/
inductive Failure where
  | file (fault : FileFault)
  | options (place : String) (fault : OptionsFault)
  | unknownProcessor (name : String)
  | unknownAppender (name : String)
  | unsupportedFormat (format : String)
  | region (fault : Region.Fault)
  | duplicateRegions (unit : UnitName) (count : Nat)
  | manifest (path : Path) (error : Json.Error)
  | template (fault : Template.Fault)
  | processor (name reason : String)
  | document (fault : DocumentFault)
  | source (key : String) (fault : SourceFault)
  | glob (pattern : String) (fault : Glob.Fault)
  | sharedTarget (target : Path)
deriving Inhabited

namespace Failure

/-- The wording of a failure. -/
def message : Failure → String
  | .file fault => fault.message
  | .options place fault =>
    "failed to parse configuration in `" ++ place ++ "`: " ++ fault.message
  | .unknownProcessor name => "unknown processor: `" ++ name ++ "`"
  | .unknownAppender name => "unknown appender: `" ++ name ++ "`"
  | .unsupportedFormat format => "no configured appender accepts `" ++ format ++ "` content"
  | .region ⟨line, complaint⟩ =>
    "malformed region starting on line " ++ toString line ++ ": " ++ complaint.message
  | .duplicateRegions unit count =>
    toString count ++ " regions are annotated as `" ++ unit.text ++ "`"
  | .manifest path error => "manifest `" ++ path.text ++ "` is corrupt: " ++ error.message
  | .template fault => "template rendering failed: " ++ fault.name
  | .processor name reason => "processor `" ++ name ++ "` failed: " ++ reason
  | .document fault =>
    "invalid " ++ fault.format.name ++ " document" ++
      match fault.reason? with
      | some reason => ": " ++ reason
      | none => ""
  | .source key fault => "template source failed for `" ++ key ++ "`: " ++ fault.message
  | .glob pattern fault =>
    "invalid glob target `" ++ pattern ++ "`: " ++ fault.message pattern
  | .sharedTarget target =>
    "merging into `" ++ target.text ++ "` failed for another source file of the unit"

/-- The code of a failure. -/
def code : Failure → String
  | .file _ => "scf::io_error"
  | .options _ _ => "scf::config_parse"
  | .unknownProcessor _ => "scf::unknown_processor"
  | .unknownAppender _ => "scf::unknown_appender"
  | .unsupportedFormat _ => "scf::unsupported_format"
  | .region _ => "scf::malformed_region"
  | .duplicateRegions _ _ => "scf::merge_conflict"
  | .manifest _ _ => "scf::manifest_corruption"
  | .template _ => "scf::template_render"
  | .processor _ _ => "scf::processor"
  | .document _ => "scf::structured_data"
  | .source _ _ => "scf::template_source"
  | .glob _ _ => "scf::invalid_glob"
  | .sharedTarget _ => "scf::shared_target_failed"

/-- What can be done about a failure. -/
def help? : Failure → Option String
  | .options _ _ =>
    some ("option directives must be followed by a JSON object, e.g. `@scf-option " ++
      "\x7b\"appendStrategy\": \"replace\"\x7d`")
  | .unknownProcessor _ => some "built-in processors: template, raw"
  | .unknownAppender _ => some "built-in appenders: json, yaml, toml, text"
  | .unsupportedFormat _ =>
    some "add `text` to the `appenders` option or set `format` explicitly"
  | .region _ =>
    some "every start marker needs a matching end marker before the next start marker"
  | .duplicateRegions _ _ =>
    some "remove the duplicated region so that exactly one block carries this identity"
  | .sharedTarget _ =>
    some "see the failure reported for the first source file targeting this destination"
  | _ => none

end Failure
end Scaffold
