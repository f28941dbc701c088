import Scaffold.Proofs.Region.Block

/-!
# Writing a region again

What a region says can be said by a block, however the region was written: its header may repeat
lines, have other blanks and line ends, or keep names that no command line accepts. The block of
the content and the identity of a region is one region, and says both
(`scan_make_of_region`). The content keeps what it is but for the line ends behind it.

Three things have to be known of the region that was found, and all of them come from its being
found: the markers stand on lines of the text (`Delimiters.safe_of_fits`), the identity was read
off such lines (`Region.safe_of_scan`), and so are the lines of the content, none of which is a
marker line (`Region.noMarkers_content`). Parameter values are taken to be readable, as the
printer and the reader of values promise.
-/

namespace Scaffold

namespace Region

variable {d : Delimiters}

/-! ### What a region that was found is -/

/-- The regions of stretches are those of the stretches one by one. -/
theorem exists_stretch_of_mem {offset : Nat} {xs : List Stretch} {r : Region}
    (h : r ∈ regionsFrom d offset xs) :
    ∃ before x after, xs = before ++ x :: after ∧
      r = x.region d (offset + Text.width (stretchLines before).flatten) := by
  induction xs generalizing offset with
  | nil => simp [regionsFrom] at h
  | cons x xs ih =>
    rcases List.mem_cons.1 h with rfl | h
    · exact ⟨[], x, xs, rfl, by simp⟩
    · obtain ⟨before, x', after, rfl, rfl⟩ := ih h
      refine ⟨x :: before, x', after, rfl, ?_⟩
      simp [Nat.add_assoc]

/-- A region of a text stands in it: between lines, and with lines of its own. -/
theorem exists_encloses_of_mem {s : String} {rs : List Region} (hs : scan d s = .ok rs)
    {r : Region} (hr : r ∈ rs) :
    ∃ (z : Surroundings) (x : Stretch), z.Encloses d x ∧
      s.toList = z.fill x.regionLines.flatten ∧ r = z.region d x := by
  obtain ⟨y, hy, hlines, rfl⟩ := scan_eq_ok.1 hs
  obtain ⟨before, x, after, hx, rfl⟩ := exists_stretch_of_mem hr
  obtain ⟨hencloses, hfill⟩ := Surroundings.encloses_of_layout hy hlines hx
  refine ⟨_, x, hencloses, hfill, ?_⟩
  rw [Nat.zero_add]
  rfl

/-- A region says in its text what its stretch says. -/
theorem Surroundings.entry_region {z : Surroundings} {x : Stretch} (h : z.Encloses d x)
    {s : String} (hs : s.toList = z.fill x.regionLines.flatten) :
    entry s.toList (z.region d x) = x.entry d := by
  refine @entry_of_lines_eq d _ _ _ z.below ?_
  rw [h.lines_layout hs]
  simp [layout, Layout.lines, below]

/-- The lines of a region are lines of its text. -/
theorem Surroundings.Encloses.isLine {z : Surroundings} {x : Stretch} (h : z.Encloses d x) :
    ∀ l ∈ x.regionLines, Text.IsLine l := by
  intro l hl
  exact Text.isLine_of_mem_lines (h.lines.symm ▸ hl)

/-- The lines before the end line of a region are full lines. -/
theorem Surroundings.Encloses.isFullLine {z : Surroundings} {x : Stretch} (h : z.Encloses d x) :
    ∀ l ∈ x.inner, Text.IsFullLine l := by
  intro l hl
  have hsplit : x.regionLines = (x.opener :: x.inner) ++ [x.closer] := rfl
  obtain ⟨-, hfull⟩ := Text.lines_eq_append (h.lines.trans hsplit)
  exact hfull (by simp) l (List.mem_cons_of_mem _ hl)

/-- **What a region of a text says can be said in a header**, whatever the text is. -/
theorem safe_of_scan {s : String} {rs : List Region} (hs : scan d s = .ok rs)
    {r : Region} (hr : r ∈ rs) {i : Identity} (hi : r.identity? = some i) :
    i.unit.HeaderSafe ∧ (∀ p ∈ i.parameters, Identity.NameSafe p.1.toList) ∧
      i.parameters.Ordered := by
  obtain ⟨z, x, hencloses, -, rfl⟩ := exists_encloses_of_mem hs hr
  obtain ⟨header, blank, hinner, -, -, hheader⟩ := Stretch.exists_header hi
  refine Identity.safe_of_ofHeader? (fun l hl => hencloses.isLine l ?_) hheader
  simp [Stretch.regionLines, hinner, hl]

/-- The content of a region holds no marker line. -/
theorem noMarkers_content {s : String} {rs : List Region} (hs : scan d s = .ok rs)
    {r : Region} (hr : r ∈ rs) : NoMarkers d (r.content s.toList) := by
  obtain ⟨z, x, hencloses, hfill, rfl⟩ := exists_encloses_of_mem hs hr
  have hbody : ∀ l ∈ x.body, l ∈ x.inner := fun l hl => List.mem_of_mem_drop hl
  have hcontent : (z.region d x).content s.toList = x.body.flatten :=
    congrArg Entry.content (Surroundings.entry_region hencloses hfill)
  have hlines := Text.lines_flatten_append (fun l hl => hencloses.isFullLine l (hbody l hl)) []
  simp only [List.append_nil, show Text.lines [] = [] from rfl] at hlines
  intro l hl
  rw [hcontent, hlines] at hl
  exact hencloses.stretch.inner l (hbody l hl)

/-! ### Markers that were found -/

/-- A start line is a comment with the start marker as its text. -/
theorem strip?_of_start {line : List Char} (h : lineKind d line = .start) :
    d.comment.strip? line = some d.startMarker.toList := by
  rw [lineKind] at h
  split at h
  · rename_i text htext
    split at h
    · rename_i he
      exact he ▸ htext
    · split at h <;> cases h
  · cases h

/-- An end line is a comment with the end marker as its text, which is not the start marker. -/
theorem strip?_of_stop {line : List Char} (h : lineKind d line = .stop) :
    d.comment.strip? line = some d.endMarker.toList ∧ d.startMarker ≠ d.endMarker := by
  rw [lineKind] at h
  split at h
  · rename_i text htext
    split at h
    · cases h
    · rename_i hne
      split at h
      · rename_i he
        refine ⟨he ▸ htext, fun heq => hne ?_⟩
        rw [he, heq]
      · cases h
  · cases h

end Region

/-- The text of a comment line is a safe marker, if it does not begin as a header line does. -/
theorem Delimiters.markerSafe_of_strip? {c : Comment} {line marker : List Char}
    (hl : Text.IsLine line) (h : c.strip? line = some marker)
    (hk : ∀ k ∈ Identity.keywords, ¬ k.toList <+: marker) : MarkerSafe marker := by
  refine ⟨fun hm => ?_, Comment.trim_of_strip? h, hk⟩
  exact hl.lineFeed_not_mem_trim (Comment.mem_of_strip? h _ hm)

/-- Delimiters by which some region was found are safe, if no marker begins as a header line
does. -/
theorem Delimiters.safe_of_fits {d : Delimiters} (hd : ∃ declared, d.comment = .parse declared)
    (hstart : ∀ k ∈ Identity.keywords, ¬ k.toList <+: d.startMarker.toList)
    (hstop : ∀ k ∈ Identity.keywords, ¬ k.toList <+: d.endMarker.toList)
    {x : Region.Stretch} (hx : x.Fits d) (hl : ∀ l ∈ x.regionLines, Text.IsLine l) : d.Safe := by
  have hopener := Region.strip?_of_start hx.opener
  obtain ⟨hcloser, hne⟩ := Region.strip?_of_stop hx.closer
  refine ⟨hd, ?_, ?_, hne⟩
  · exact markerSafe_of_strip? (hl _ (by simp [Region.Stretch.regionLines])) hopener hstart
  · exact markerSafe_of_strip? (hl _ (by simp [Region.Stretch.regionLines])) hcloser hstop

namespace Block

open Region

variable {d : Delimiters}

/-! ### A block on its own -/

/-- The region of a block that is a text of its own. -/
def stretch (d : Delimiters) (i : Identity) (content : String) : Stretch :=
  ⟨[], Text.row d.startLine, inner d i content, Text.row d.endLine⟩

theorem flatten_stretch (d : Delimiters) (i : Identity) (content : String) :
    (stretch d i content).lines.flatten = (usual d i content).toList := by
  rw [toList_usual]
  simp [stretch, Stretch.lines, Stretch.regionLines, text]

/-- A block scans as one region, which is all of it and says what the block was made from. -/
theorem scan_usual (hd : d.Safe) {i : Identity} (hi : i.HeaderSafe) {content : String}
    (hc : NoMarkers d content.toList) :
    scan d (usual d i content) = .ok [(stretch d i content).region d 0] ∧
      entry (usual d i content).toList ((stretch d i content).region d 0) =
        entryOf i content := by
  have hlines : Text.lines (usual d i content).toList = (stretch d i content).lines := by
    rw [toList_usual, lines_text hd hi content .row]
    rfl
  have hfits : (stretch d i content).Fits d := by
    refine ⟨?_, lineKind_startLine hd, lineKind_of_mem_inner hd hi hc, lineKind_row_endLine hd⟩
    simp [stretch]
  refine ⟨scan_eq_ok.2 ⟨⟨[stretch d i content], []⟩, ⟨?_, by simp⟩, ?_, rfl⟩, ?_⟩
  · intro x hx
    obtain rfl := List.mem_singleton.1 hx
    exact hfits
  · rw [hlines]
    simp [Layout.lines]
  · have hentry : entry (usual d i content).toList ((stretch d i content).region d 0) =
        (stretch d i content).entry d := by
      refine @entry_of_lines_eq d _ [] _ [] ?_
      simpa using hlines
    rw [hentry]
    exact entry_of_inner hd hi rfl

/-- The region of a block is as wide as the block. -/
theorem stop_stretch (d : Delimiters) (i : Identity) (content : String) :
    ((stretch d i content).region d 0).start = 0 ∧
      ((stretch d i content).region d 0).stop = Text.width (usual d i content).toList := by
  refine ⟨by simp [stretch, Stretch.region], ?_⟩
  rw [← flatten_stretch]
  simp [stretch, Stretch.region, Stretch.lines, Stretch.regionLines, Nat.add_assoc]

end Block

namespace Region

/-- **The block of a region says what the region says.** Every region with an identity, whatever
its text is, can be made into a block with its identity and its content. The block scans as one
region from its first byte to its last, with the same identity and with the same content, but for
the line ends behind it, of which one line feed is left. -/
theorem scan_make_of_region {d : Delimiters} (hd : ∃ declared, d.comment = .parse declared)
    (hstart : ∀ k ∈ Identity.keywords, ¬ k.toList <+: d.startMarker.toList)
    (hstop : ∀ k ∈ Identity.keywords, ¬ k.toList <+: d.endMarker.toList)
    {s : String} {rs : List Region} (hs : scan d s = .ok rs) {r : Region} (hr : r ∈ rs)
    {i : Identity} (hi : r.identity? = some i) (hv : i.parameters.Readable)
    (render : Template.Renderer) :
    ∃ b r', Block.make d i none (String.ofList (r.content s.toList)) render = .ok b ∧
      scan d b = .ok [r'] ∧ r'.start = 0 ∧ r'.stop = Text.width b.toList ∧
      r'.identity? = some i ∧
      r'.content b.toList =
        Text.dropEndWhile Text.isLineEnd (r.content s.toList) ++ ['\n'] := by
  obtain ⟨z, x, hencloses, -, -⟩ := exists_encloses_of_mem hs hr
  have hsafe : d.Safe := Delimiters.safe_of_fits hd hstart hstop hencloses.stretch hencloses.isLine
  obtain ⟨hunit, hnames, hordered⟩ := safe_of_scan hs hr hi
  have hidentity : i.HeaderSafe := ⟨hunit, hnames, hv, hordered⟩
  have hcontent : NoMarkers d (String.ofList (r.content s.toList)).toList := by
    rw [String.toList_ofList]
    exact noMarkers_content hs hr
  obtain ⟨hscan, hentry⟩ := Block.scan_usual hsafe hidentity hcontent
  obtain ⟨hfirst, hlast⟩ := Block.stop_stretch d i (String.ofList (r.content s.toList))
  refine ⟨_, _, rfl, hscan, hfirst, hlast, congrArg Entry.identity? hentry, ?_⟩
  have hsays := congrArg Entry.content hentry
  simp only [entry, Block.entryOf, Block.body, String.toList_ofList] at hsays
  exact hsays

set_option maxRecDepth 1000 in
/-- A header with lines that repeat each other, other blanks and line ends, an `@` in a name and a
parameter without a name, between comments that are closed. -/
theorem scan_make_of_edited_header :
    ∃ b r', Block.make ⟨.parse "<!-- -->", "@s", "@e"⟩ ⟨⟨"@t@x", "1", "p"⟩, [("", .bool true)]⟩ none
        "x\r\n\r\n" = .ok b ∧
      scan ⟨.parse "<!-- -->", "@s", "@e"⟩ b = .ok [r'] ∧ r'.start = 0 ∧
      r'.stop = Text.width b.toList ∧
      r'.identity? = some ⟨⟨"@t@x", "1", "p"⟩, [("", .bool true)]⟩ ∧
      r'.content b.toList = "x\n".toList := by
  obtain ⟨s, hscan, hcontent⟩ : ∃ s, scan ⟨.parse "<!-- -->", "@s", "@e"⟩ s =
        .ok [⟨0, 122, 106, 111, some ⟨⟨"@t@x", "1", "p"⟩, [("", .bool true)]⟩⟩] ∧
      Text.slice 106 111 s.toList = "x\r\n\r\n".toList := by
    refine ⟨"  <!--@s-->\r\n<!--template:  @t@x@1  -->\r\n<!--partial:old-->\n" ++
      "<!-- partial:p -->\r\n<!-- param : true -->\r\n\t\r\nx\r\n\r\n<!-- @e -->", ?_, ?_⟩
    · rfl
    · decide +kernel
  have hvalues : Parameters.Readable [("", .bool true)] := by
    intro p hp
    obtain rfl := List.mem_singleton.1 hp
    rfl
  have hmake := scan_make_of_region ⟨"<!-- -->", rfl⟩ (by decide) (by decide) hscan
    (List.mem_singleton_self _) rfl hvalues Template.render
  rw [Region.content, hcontent, String.ofList_toList] at hmake
  exact hmake

end Region

end Scaffold
