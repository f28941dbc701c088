import Scaffold.Failure
import Scaffold.Region.Block

/-!
# Merging text

Fresh content goes into a text file. If one region of the file comes from the same unit, it
is replaced and everything outside it stays as it is. If there is none, the append strategy
decides. The outcome is the new text of the file, or nothing if it is not to be written.
-/

namespace Scaffold

/-- What goes into a file: its text so far, fresh content with the unit it comes from, and
how the file is to be treated. -/
structure MergeInput where
  /-- The text of the file, if there is a file. -/
  destination? : Option String
  content : String
  identity : Identity
  delimiters : Delimiters
  options : Options
deriving Inhabited

namespace Merge

/-- A block behind a text, on a line of its own. -/
def behind (existing block : String) : String :=
  if existing.isEmpty then block else Text.closeLine existing ++ block

/-- The text of a file after a block went into it. -/
def append (strategy : AppendStrategy) (destination? : Option String) (block : String) :
    Option String :=
  match strategy, destination? with
  | .replace, _ => some block
  | .appendIfExists, none => none
  | .ignore, some existing =>
    if Text.isBlankText existing then some (behind existing block) else none
  | _, some existing => some (behind existing block)
  | _, none => some block

/-- The text with the characters from byte `start` to byte `stop` replaced. -/
def splice (s : String) (start stop : Nat) (replacement : String) : String :=
  String.ofList (Text.takeBytes start s.toList ++ replacement.toList ++
    Text.dropBytes stop s.toList)

/-- A text without the line feeds behind it. -/
def withoutLineFeeds (s : String) : String :=
  String.ofList (Text.dropEndWhile (· == '\n') s.toList)

/-- The text of a file with a region replaced by a block. If the region ends the file without a
line feed, so does the block. -/
def swapRegion (s : String) (r : Region) (block : String) : String :=
  let closed := (Text.takeBytes r.stop s.toList).getLast? == some '\n'
  splice s r.start r.stop (if closed then block else withoutLineFeeds block)

/-- The text of a file with the content of a region replaced. -/
def swapContent (s : String) (r : Region) (content : String) : String :=
  splice s r.contentStart r.contentStop (Text.closeLine content)

/-- The block of the content, or the bare content if it is not to be annotated. -/
def block (input : MergeInput) (render : Template.Renderer := Template.render) :
    Except Failure String :=
  if input.options.annotate then
    (Block.make input.delimiters input.identity input.options.annotationTemplate
      input.content render).mapError .template
  else .ok input.content

/-- The regions of a text. -/
def regions (d : Delimiters) (s : String) : Except Failure (List Region) :=
  (Region.scan d s).mapError .region

/-- The text of a file after content went into it. -/
def text (input : MergeInput) (render : Template.Renderer := Template.render) :
    Except Failure (Option String) := do
  let block ← block input render
  let fallback := append input.options.appendStrategy input.destination? block
  match input.destination? with
  | none => return fallback
  | some s =>
    let unit := input.identity.unit
    match (← regions input.delimiters s).filter (·.matchesUnit unit) with
    | [] => return fallback
    | [r] =>
      return some (if input.options.annotate then swapRegion s r block
        else swapContent s r input.content)
    | several => throw (.duplicateRegions unit several.length)

end Merge
end Scaffold
