import Scaffold.Path
import Scaffold.Text.Blank
import Scaffold.Text.Split

/-!
# Comments

How a file writes a comment on one line: an opener before the text, and in some
languages a closer behind it. `wrap` writes a comment line and `strip?` reads the
text off one.
-/

namespace Scaffold

/-- The marks around a one-line comment. -/
structure Comment where
  opener : String
  closer? : Option String
deriving DecidableEq, Inhabited

namespace Comment

/-- The marks that a text declares: its first word opens and its second word, if any,
closes. A blank text declares `#`. -/
def parse (s : String) : Comment :=
  match Text.words s.toList with
  | [] => ⟨"#", none⟩
  | [opener] => ⟨String.ofList opener, none⟩
  | opener :: closer :: _ => ⟨String.ofList opener, some (String.ofList closer)⟩

/-- The extensions of files whose comments open with two slashes. -/
def slashExtensions : List String :=
  ["rs", "ts", "tsx", "mts", "cts", "js", "jsx", "mjs", "cjs", "go", "java", "kt", "kts", "swift",
    "c", "cc", "cpp", "h", "hpp", "cs", "dart", "php", "scala", "scss", "less", "zig", "proto",
    "groovy", "gradle"]

/-- The extensions of marked-up texts. -/
def markupExtensions : List String :=
  ["md", "mdx", "markdown", "html", "htm", "xml", "svg", "vue", "svelte"]

/-- The comments of a file, judged by its extension. -/
def forExtension (extension : String) : Comment :=
  let e := Text.lowerAscii extension
  if slashExtensions.contains e then ⟨"//", none⟩
  else if markupExtensions.contains e then ⟨"<!--", some "-->"⟩
  else if e = "css" then ⟨"/*", some "*/"⟩
  else if ["sql", "lua", "hs", "elm"].contains e then ⟨"--", none⟩
  else if ["erl", "hrl", "tex"].contains e then ⟨"%", none⟩
  else if ["bat", "cmd"].contains e then ⟨"::", none⟩
  else ⟨"#", none⟩

/-- The comments of the file at a path. -/
def forPath (path : Path) : Comment := forExtension (path.extension?.getD "")

/-- A comment line with this text, without a line feed. -/
def wrap (c : Comment) (text : String) : String :=
  match c.closer? with
  | some closer => c.opener ++ " " ++ text ++ " " ++ closer
  | none => c.opener ++ " " ++ text

/-- What stands before the text of a comment. -/
def opening (c : Comment) : String := c.opener ++ " "

/-- What stands behind the text of a comment. -/
def closing (c : Comment) : String :=
  match c.closer? with
  | some closer => " " ++ closer
  | none => ""

/-- The text of a comment line, without the blanks around it. -/
def strip? (c : Comment) (line : List Char) : Option (List Char) := do
  let rest ← Text.stripStart? c.opener.toList (Text.trim line)
  match c.closer? with
  | none => some (Text.trim rest)
  | some closer => (Text.stripEnd? closer.toList (Text.trimEnd rest)).map Text.trim

end Comment
end Scaffold
