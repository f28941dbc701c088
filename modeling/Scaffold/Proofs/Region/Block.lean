import Scaffold.Region.Block
import Scaffold.Proofs.Region.Header
import Scaffold.Proofs.Region.Surroundings

/-!
# Blocks are regions

Markers that no header line can be taken for (`Delimiters.Safe`) make the block of a safe
identity a region: its start line, its header, its blank line and its end line are found where
they were written (`Block.lines_text`), and the region says what the block was made from
(`Block.entry_of_inner`), unless a line of the content is a marker line (`Region.NoMarkers`).
-/

namespace Scaffold

/-- A marker: one line without blanks at its ends, which does not begin as a header line does. -/
def Delimiters.MarkerSafe (m : List Char) : Prop :=
  '\n' ∉ m ∧ Text.trim m = m ∧ ∀ k ∈ Identity.keywords, ¬ k.toList <+: m

instance (m : List Char) : Decidable (Delimiters.MarkerSafe m) :=
  inferInstanceAs (Decidable (_ ∧ _ ∧ _))

/-- Delimiters by which the regions of fresh blocks are found: a comment syntax that some text
declares, and two markers that differ. -/
structure Delimiters.Safe (d : Delimiters) : Prop where
  comment : ∃ declared, d.comment = .parse declared
  start : MarkerSafe d.startMarker.toList
  stop : MarkerSafe d.endMarker.toList
  distinct : d.startMarker ≠ d.endMarker

theorem Delimiters.Safe.proper {d : Delimiters} (hd : d.Safe) : d.comment.Proper := by
  obtain ⟨declared, h⟩ := hd.comment
  exact h ▸ Comment.proper_parse declared

/-- The usual markers are safe with the comments of every file. -/
theorem Delimiters.safe_ofOptions {o : Options} (hc : o.commentSyntax = none)
    (hs : o.startMarker = Options.default.startMarker)
    (he : o.endMarker = Options.default.endMarker) (path : Path) : (ofOptions o path).Safe := by
  refine ⟨?_, ?_, ?_, ?_⟩
  · have : (ofOptions o path).comment = .forPath path := by simp [ofOptions, Options.commentFor, hc]
    rw [this]
    exact Comment.exists_parse_eq_forPath path
  · show MarkerSafe o.startMarker.toList
    rw [hs]
    decide
  · show MarkerSafe o.endMarker.toList
    rw [he]
    decide
  · show o.startMarker ≠ o.endMarker
    rw [hs, he]
    decide

namespace Region

/-! ### Marker lines -/

/-- No line of the text is a marker line. -/
def NoMarkers (d : Delimiters) (s : List Char) : Prop := ∀ l ∈ Text.lines s, lineKind d l = .other

instance (d : Delimiters) (s : List Char) : Decidable (NoMarkers d s) :=
  inferInstanceAs (Decidable (∀ l ∈ Text.lines s, lineKind d l = .other))

theorem lineKind_trim (d : Delimiters) (line : List Char) :
    lineKind d (Text.trim line) = lineKind d line := by
  rw [lineKind, lineKind, Comment.strip?, Comment.strip?, Text.trim_trim]

theorem lineKind_append_right (d : Delimiters) (line : List Char) {t : List Char}
    (ht : ∀ c ∈ t, Text.isBlank c) : lineKind d (line ++ t) = lineKind d line := by
  rw [← lineKind_trim, Text.trim_append_right ht, lineKind_trim]

variable {d : Delimiters}

/-- A blank line is no marker line. -/
theorem lineKind_of_blank (hd : d.Safe) {line : List Char} (h : Text.trim line = []) :
    lineKind d line = .other := by
  obtain ⟨c, o, ho⟩ := List.exists_cons_of_ne_nil hd.proper.opener.1
  rw [lineKind, Comment.strip?, h, ho]
  rfl

theorem ne_nil_of_lineKind (hd : d.Safe) {line : List Char} (h : lineKind d line ≠ .other) :
    line ≠ [] := fun he => h (he ▸ lineKind_of_blank hd rfl)

theorem flatten_regionLines_ne_nil (hd : d.Safe) {x : Stretch} (hx : x.Fits d) :
    x.regionLines.flatten ≠ [] := by
  have hne := ne_nil_of_lineKind hd (by rw [hx.opener]; decide : lineKind d x.opener ≠ .other)
  simp [Stretch.regionLines, hne]

/-- A region ends as its end line does. -/
theorem getLast?_flatten_regionLines (hd : d.Safe) {x : Stretch} (hx : x.Fits d) :
    x.regionLines.flatten.getLast? = x.closer.getLast? := by
  have hne := ne_nil_of_lineKind hd (by rw [hx.closer]; decide : lineKind d x.closer ≠ .other)
  rw [Stretch.regionLines, ← List.cons_append, List.flatten_append, List.flatten_singleton,
    List.getLast?_append_of_ne_nil _ hne]

/-- What a comment line is depends on its text without the blanks around it. -/
theorem lineKind_row (hd : d.Safe) (text : String) :
    lineKind d (Text.row (d.comment.wrap text)) =
      if Text.trim text.toList = d.startMarker.toList then .start
      else if Text.trim text.toList = d.endMarker.toList then .stop
      else .other := by
  rw [lineKind, Comment.strip?_row hd.proper]

theorem lineKind_startLine (hd : d.Safe) : lineKind d (Text.row d.startLine) = .start := by
  rw [Delimiters.startLine, lineKind_row hd, hd.start.2.1, if_pos rfl]

theorem lineKind_row_endLine (hd : d.Safe) : lineKind d (Text.row d.endLine) = .stop := by
  have hne : d.endMarker.toList ≠ d.startMarker.toList := fun h =>
    hd.distinct (String.toList_inj.1 h).symm
  rw [Delimiters.endLine, lineKind_row hd, hd.stop.2.1, if_neg hne, if_pos rfl]

theorem lineKind_endLine (hd : d.Safe) : lineKind d d.endLine.toList = .stop := by
  rw [← lineKind_row_endLine hd]
  exact (lineKind_append_right d d.endLine.toList Text.blank_lineFeed).symm

/-- A header line is no marker line. -/
theorem lineKind_of_mem_headerRows (hd : d.Safe) {i : Identity} (hi : i.HeaderSafe)
    {line : List Char} (h : line ∈ i.headerRows d.comment) : lineKind d line = .other := by
  obtain ⟨text, htext, rfl⟩ := Identity.mem_headerRows.1 h
  obtain ⟨k, hk, hprefix⟩ := Identity.keyword_of_mem_headerTexts hi htext
  have hstart : Text.trim text.toList ≠ d.startMarker.toList := fun he =>
    hd.start.2.2 k hk (he ▸ hprefix)
  have hstop : Text.trim text.toList ≠ d.endMarker.toList := fun he =>
    hd.stop.2.2 k hk (he ▸ hprefix)
  rw [lineKind_row hd, if_neg hstart, if_neg hstop]

/-- Line ends behind a text make no marker lines. -/
theorem noMarkers_append_lineEnds (hd : d.Safe) {t : List Char} (ht : ∀ c ∈ t, Text.isLineEnd c)
    (s : List Char) : NoMarkers d (s ++ t) ↔ NoMarkers d s := by
  have h := Text.forall_lines_append_lineEnds (P := fun l => lineKind d l = .other)
    (lineKind_of_blank hd rfl) ht s
  simp only [lineKind_trim] at h
  exact h

end Region

namespace Block

open Region

variable {d : Delimiters}

/-- The lines of the content of a block. -/
def contentLines (content : String) : List (List Char) :=
  Text.lines ((body content).toList ++ ['\n'])

theorem flatten_contentLines (content : String) :
    (contentLines content).flatten = (body content).toList ++ ['\n'] := Text.flatten_lines _

theorem isFullLine_of_mem_contentLines {content : String} :
    ∀ l ∈ contentLines content, Text.IsFullLine l :=
  Text.isFullLine_of_mem_lines (Text.closed_append_lineFeed _)

/-- The content of a block has marker lines where the content that was given has them. -/
theorem forall_contentLines (hd : d.Safe) (content : String) :
    (∀ l ∈ contentLines content, lineKind d l = .other) ↔ NoMarkers d content.toList := by
  obtain ⟨t, ht, hs⟩ := Text.exists_dropEndWhile_append Text.isLineEnd content.toList
  have hbody : NoMarkers d content.toList ↔ NoMarkers d (body content).toList := by
    conv_lhs => rw [hs]
    rw [noMarkers_append_lineEnds hd ht, body, String.toList_ofList]
  rw [hbody]
  exact noMarkers_append_lineEnds hd Text.lineEnd_lineFeed _

/-- The lines between the markers of a block. -/
def inner (d : Delimiters) (i : Identity) (content : String) : List (List Char) :=
  i.headerRows d.comment ++ ['\n'] :: contentLines content

/-- The text of a block with a given end line. -/
def text (d : Delimiters) (i : Identity) (content : String) (closer : List Char) : List Char :=
  Text.row d.startLine ++ (inner d i content).flatten ++ closer

theorem toList_usual (d : Delimiters) (i : Identity) (content : String) :
    (usual d i content).toList = text d i content (Text.row d.endLine) := by
  have hrows : (Identity.headerRows d.comment i).flatten =
      ((i.headerLines d.comment).map fun line => line.toList ++ ['\n']).flatten := rfl
  simp only [usual, text, inner, List.flatten_append, List.flatten_cons, flatten_contentLines,
    hrows]
  simp [List.flatMap_def, Text.row, Function.comp_def]

theorem lineFeed_not_mem_startLine (hd : d.Safe) : '\n' ∉ d.startLine.toList :=
  Comment.lineFeed_not_mem_wrap hd.proper hd.start.1

theorem lineFeed_not_mem_endLine (hd : d.Safe) : '\n' ∉ d.endLine.toList :=
  Comment.lineFeed_not_mem_wrap hd.proper hd.stop.1

theorem endLine_ne_nil (d : Delimiters) : d.endLine.toList ≠ [] := by
  simp [Delimiters.endLine, Comment.toList_wrap]

/-- A block without line feeds behind it ends with the bare end line. -/
theorem toList_withoutLineFeeds_usual (hd : d.Safe) (i : Identity) (content : String) :
    (Text.dropEndWhile (· == '\n') (usual d i content).toList) =
      text d i content d.endLine.toList := by
  have hrow : (usual d i content).toList = text d i content d.endLine.toList ++ ['\n'] := by
    rw [toList_usual]
    simp [text, Text.row]
  rw [hrow, Text.dropEndWhile_append_of_all _ _ (List.forall_mem_singleton.2 rfl)]
  refine Text.dropEndWhile_eq_self fun c hc => ?_
  rw [text, List.getLast?_append_of_ne_nil _ (endLine_ne_nil d)] at hc
  have : c ≠ '\n' := fun h => lineFeed_not_mem_endLine hd (h ▸ List.mem_of_getLast? hc)
  simpa using this

/-- The end line of a block: with a line feed, or without it at the end of a text. -/
inductive IsCloser (d : Delimiters) : List Char → Prop where
  | row : IsCloser d (Text.row d.endLine)
  | bare : IsCloser d d.endLine.toList

theorem IsCloser.lineKind (hd : d.Safe) {closer : List Char} (h : IsCloser d closer) :
    lineKind d closer = .stop := by
  cases h with
  | row => exact lineKind_row_endLine hd
  | bare => exact lineKind_endLine hd

theorem IsCloser.lines (hd : d.Safe) {closer : List Char} (h : IsCloser d closer) :
    Text.lines closer = [closer] := by
  cases h with
  | row => exact Text.lines_append_lineFeed (lineFeed_not_mem_endLine hd) []
  | bare => exact Text.lines_eq_singleton (lineFeed_not_mem_endLine hd) (endLine_ne_nil d)

theorem isFullLine_of_mem_headerRows (hd : d.Safe) {i : Identity} (hi : i.HeaderSafe)
    {line : List Char} (h : line ∈ i.headerRows d.comment) : Text.IsFullLine line := by
  obtain ⟨text, htext, rfl⟩ := Identity.mem_headerRows.1 h
  refine Text.isFullLine_row (Comment.lineFeed_not_mem_wrap hd.proper ?_)
  exact Identity.lineFeed_not_mem_headerTexts hi.unit hi.names htext

/-- The lines of a block are its start line, the lines inside and its end line. -/
theorem lines_text (hd : d.Safe) {i : Identity} (hi : i.HeaderSafe) (content : String)
    {closer : List Char} (hc : IsCloser d closer) :
    Text.lines (text d i content closer) =
      Text.row d.startLine :: (inner d i content ++ [closer]) := by
  have hfull : ∀ l ∈ Text.row d.startLine :: inner d i content, Text.IsFullLine l := by
    refine List.forall_mem_cons.2 ⟨Text.isFullLine_row (lineFeed_not_mem_startLine hd), ?_⟩
    refine List.forall_mem_append.2 ⟨fun l => isFullLine_of_mem_headerRows hd hi, ?_⟩
    exact List.forall_mem_cons.2 ⟨⟨[], by simp, rfl⟩, isFullLine_of_mem_contentLines⟩
  have := Text.lines_flatten_append hfull closer
  rw [hc.lines hd] at this
  simpa [text] using this

theorem allBlank_of_mem_headerRows (hd : d.Safe) (i : Identity) {line : List Char}
    (h : line ∈ i.headerRows d.comment) : Text.allBlank line = false := by
  obtain ⟨text, -, rfl⟩ := Identity.mem_headerRows.1 h
  obtain ⟨c, o, ho⟩ := List.exists_cons_of_ne_nil hd.proper.opener.1
  have hcb := hd.proper.opener.2 c (by simp [ho])
  simp [Text.row, Comment.toList_wrap, ho, Text.allBlank, hcb]

/-- A region with the header of a safe identity says that identity and what stands behind the
blank line. -/
theorem entry_of_headerRows (hd : d.Safe) {i : Identity} (hi : i.HeaderSafe)
    {body : List (List Char)} {x : Stretch}
    (hx : x.inner = i.headerRows d.comment ++ ['\n'] :: body) :
    x.entry d = ⟨some i, body.flatten⟩ := by
  obtain ⟨-, hbody, hidentity⟩ := Stretch.parts_of_inner hx
    (fun l => allBlank_of_mem_headerRows hd i) rfl
  rw [Stretch.entry, hbody, hidentity, Identity.ofHeader?_headerRows hd.proper hi]

/-- Lines behind a header and a blank line are the only ones there that may be marker lines. -/
theorem lineKind_of_mem_append (hd : d.Safe) {i : Identity} (hi : i.HeaderSafe)
    {body : List (List Char)} (hb : ∀ l ∈ body, lineKind d l = .other) :
    ∀ l ∈ i.headerRows d.comment ++ ['\n'] :: body, lineKind d l = .other := by
  refine List.forall_mem_append.2 ⟨fun l => lineKind_of_mem_headerRows hd hi, ?_⟩
  exact List.forall_mem_cons.2 ⟨lineKind_of_blank hd rfl, hb⟩

/-- What a block says: its identity, and the content with one line feed behind it. -/
def entryOf (i : Identity) (content : String) : Region.Entry :=
  ⟨some i, (body content).toList ++ ['\n']⟩

/-- A block says what it was made from. -/
theorem entry_of_inner (hd : d.Safe) {i : Identity} (hi : i.HeaderSafe) {content : String}
    {x : Stretch} (hx : x.inner = inner d i content) : x.entry d = entryOf i content := by
  rw [entry_of_headerRows hd hi hx, flatten_contentLines, entryOf]

/-- Content without marker lines leaves the lines inside a block free of them. -/
theorem lineKind_of_mem_inner (hd : d.Safe) {i : Identity} (hi : i.HeaderSafe) {content : String}
    (hc : NoMarkers d content.toList) : ∀ l ∈ inner d i content, lineKind d l = .other :=
  lineKind_of_mem_append hd hi ((forall_contentLines hd content).2 hc)

end Block

end Scaffold
