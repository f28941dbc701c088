import Scaffold.Proofs.Region.Decoded
import Scaffold.Proofs.Region.Pairing
import Scaffold.Proofs.Text.Cut

/-!
# Where regions are

The places of a region are bytes that are counted line by line, so each of them begins a line or
ends the text (`WellPlaced`), and the regions of a text stand one behind the other
(`pairwise_regionsFrom`). Hence the text can be sliced between any two of the places, whatever
characters and line ends it has, and no start line is left outside of all regions
(`scan_places`).
-/

namespace Scaffold.Region

variable {d : Delimiters}

/-- The places of a region, in order. -/
def places (r : Region) : List Nat := [r.start, r.contentStart, r.contentStop, r.stop]

/-- The places of a region are in order, and lie between lines of the text. The content may be
empty. The start line and the end line are not. -/
structure WellPlaced (s : List Char) (r : Region) : Prop where
  start_lt : r.start < r.contentStart
  contentStart_le : r.contentStart ≤ r.contentStop
  contentStop_lt : r.contentStop < r.stop
  stop_le : r.stop ≤ Text.width s
  beginsLine : ∀ n ∈ r.places, Text.BeginsLine s n

/-! ### One region -/

section
variable {z : Surroundings} {x : Stretch} {s : List Char}

/-- The places of a region are the widths of the lines above them. -/
theorem Surroundings.places_region (d : Delimiters) (hx : x.before = z.before) :
    (z.region d x).places =
      [[], x.opener :: x.head, x.opener :: x.inner, x.regionLines].map fun ls =>
        Text.width (z.above ++ ls).flatten := by
  simp [places, region, Stretch.region, Stretch.regionLines, above, hx, Nat.add_assoc]

/-- Behind the first lines of a region the next line begins, or the text ends. -/
theorem Surroundings.Encloses.beginsLine (h : z.Encloses d x)
    (hs : s = z.fill x.regionLines.flatten) {ls : List (List Char)} (hls : ls <+: x.regionLines) :
    Text.BeginsLine s (Text.width (z.above ++ ls).flatten) := by
  obtain ⟨more, hmore⟩ := hls
  have hlines : Text.lines s = (z.above ++ ls) ++ (more ++ z.below) := by
    rw [hs, lines_fill h.around h.closed, h.lines, ← hmore]
    simp
  exact Text.beginsLine_of_lines_eq hlines

theorem Surroundings.Encloses.beginsLine_of_mem_places (h : z.Encloses d x)
    (hs : s = z.fill x.regionLines.flatten) :
    ∀ n ∈ (z.region d x).places, Text.BeginsLine s n := by
  have hhead : x.opener :: x.head <+: x.regionLines := by
    refine ⟨x.body ++ [x.closer], ?_⟩
    rw [Stretch.regionLines, ← x.head_append_body]
    simp
  have hinner : x.opener :: x.inner <+: x.regionLines := ⟨[x.closer], rfl⟩
  rw [places_region d h.before, List.forall_mem_map]
  intro ls hls
  simp only [List.mem_cons, List.not_mem_nil, or_false] at hls
  rcases hls with rfl | rfl | rfl | rfl
  · exact h.beginsLine hs List.nil_prefix
  · exact h.beginsLine hs hhead
  · exact h.beginsLine hs hinner
  · exact h.beginsLine hs List.prefix_rfl

/-- A region in a text lies there in order. -/
theorem Surroundings.Encloses.wellPlaced (h : z.Encloses d x)
    (hs : s = z.fill x.regionLines.flatten) : WellPlaced s (z.region d x) := by
  have hplaces := h.beginsLine_of_mem_places hs
  have hline : ∀ l ∈ x.regionLines, 0 < Text.width l := by
    intro l hl
    exact Text.width_pos_of_mem_lines (h.lines.symm ▸ hl)
  have hopener := hline x.opener (by simp [Stretch.regionLines])
  have hcloser := hline x.closer (by simp [Stretch.regionLines])
  have hinner : Text.width x.inner.flatten =
      Text.width x.head.flatten + Text.width x.body.flatten := by
    rw [← Text.width_append, ← List.flatten_append, x.head_append_body]
  constructor
  · simp [region, Stretch.region]
    omega
  · simp [region, Stretch.region]
    omega
  · simp [region, Stretch.region]
    omega
  · exact (hplaces _ (by simp [places])).isPlace.le_width
  · exact hplaces

end

theorem wellPlaced_of_scan {s : String} {rs : List Region} (hs : scan d s = .ok rs) {r : Region}
    (hr : r ∈ rs) : WellPlaced s.toList r := by
  obtain ⟨z, x, hencloses, hfill, rfl⟩ := exists_encloses_of_mem hs hr
  exact hencloses.wellPlaced hfill

theorem WellPlaced.pairwise_places {s : List Char} {r : Region} (h : WellPlaced s r) :
    r.places.Pairwise (· ≤ ·) := by
  have hstart := h.start_lt
  have hcontent := h.contentStart_le
  have hstop := h.contentStop_lt
  simp [places]
  omega

theorem WellPlaced.le_of_mem {s : List Char} {r : Region} (h : WellPlaced s r) {n : Nat}
    (hn : n ∈ r.places) : r.start ≤ n ∧ n ≤ r.stop := by
  have hstart := h.start_lt
  have hcontent := h.contentStart_le
  have hstop := h.contentStop_lt
  simp only [places, List.mem_cons, List.not_mem_nil, or_false] at hn
  omega

/-! ### All regions -/

/-- Every region ends before the next one begins. -/
theorem pairwise_regionsFrom (d : Delimiters) (offset : Nat) (xs : List Stretch) :
    (regionsFrom d offset xs).Pairwise fun p r => p.stop ≤ r.start := by
  induction xs generalizing offset with
  | nil => exact .nil
  | cons x xs ih =>
    refine .cons (fun r hr => ?_) (ih _)
    have hlater := le_start_of_mem_regionsFrom r hr
    rw [Stretch.stop_region]
    simp only [Stretch.lines, List.flatten_append, Text.width_append] at hlater
    omega

theorem pairwise_of_scan {s : String} {rs : List Region} (hs : scan d s = .ok rs) :
    rs.Pairwise fun p r => p.stop ≤ r.start := by
  obtain ⟨y, -, -, rfl⟩ := scan_eq_ok.1 hs
  exact pairwise_regionsFrom d 0 y.stretches

/-- A text can be sliced between its ends and the places of its regions. -/
theorem pairwise_canSlice_of_scan {s : String} {rs : List Region} (hs : scan d s = .ok rs) :
    (0 :: (rs.flatMap places ++ [Text.width s.toList])).Pairwise (Text.CanSlice s.toList) := by
  have hplace : ∀ n ∈ rs.flatMap places, Text.IsPlace s.toList n := by
    intro n hn
    obtain ⟨r, hr, hn⟩ := List.mem_flatMap.1 hn
    exact ((wellPlaced_of_scan hs hr).beginsLine n hn).isPlace
  have hsorted : (rs.flatMap places).Pairwise (· ≤ ·) := by
    refine List.pairwise_flatMap.2 ⟨fun r hr => (wellPlaced_of_scan hs hr).pairwise_places, ?_⟩
    refine (pairwise_of_scan hs).imp_of_mem fun {p r} hp hr hpr => ?_
    intro m hm n hn
    have hbefore := ((wellPlaced_of_scan hs hp).le_of_mem hm).2
    have hbehind := ((wellPlaced_of_scan hs hr).le_of_mem hn).1
    omega
  refine Text.pairwise_canSlice ?_ ?_
  · refine List.pairwise_cons.2 ⟨fun _ _ => Nat.zero_le _, ?_⟩
    refine List.pairwise_append.2 ⟨hsorted, List.pairwise_singleton _ _, fun n hn m hm => ?_⟩
    obtain rfl := List.mem_singleton.1 hm
    exact (hplace n hn).le_width
  · refine List.forall_mem_cons.2 ⟨Text.isPlace_zero _, List.forall_mem_append.2 ⟨hplace, ?_⟩⟩
    exact List.forall_mem_singleton.2 (Text.isPlace_width _)

/-- Every start line of a text that scans begins a region. -/
theorem exists_region_of_start {s : String} {rs : List Region} (hs : scan d s = .ok rs)
    {above below : List (List Char)} {line : List Char}
    (hlines : Text.lines s.toList = above ++ line :: below) (h : lineKind d line = .start) :
    ∃ r ∈ rs, r.start = Text.width above.flatten := by
  obtain ⟨y, hy, hlayout, rfl⟩ := scan_eq_ok.1 hs
  have hmark : (above.length, LineKind.start) ∈ marks d y.lines := by
    rw [← hlayout, hlines, marks, marksFrom_append, marksFrom_cons, h, if_neg (by decide)]
    simp
  obtain ⟨r, hr, j, -, hdelimited⟩ := exists_delimited_of_mem hy hmark
  refine ⟨r, hr, ?_⟩
  rw [hdelimited.start, ← hlayout, hlines, placeOf_length]

/-- **The places of regions can be sliced at.** In every text that scans, the places of each region
are in order and between lines, the regions follow one another, the content of a region has no
marker line, and every start line is in a region. So each slice between two of the places is in
range, and the pieces between some of them are the text when they are joined. -/
theorem scan_places {s : String} {rs : List Region} (hs : scan d s = .ok rs) :
    (∀ r ∈ rs, WellPlaced s.toList r ∧ NoMarkers d (r.content s.toList)) ∧
    (rs.Pairwise fun p r => p.stop ≤ r.start) ∧
    (∀ above line below, Text.lines s.toList = above ++ line :: below →
      (∀ r ∈ rs, r.contains (Text.width above.flatten) = false) → lineKind d line ≠ .start) ∧
    (0 :: (rs.flatMap places ++ [Text.width s.toList])).Pairwise (Text.CanSlice s.toList) ∧
    ∀ cuts, cuts.Sublist (rs.flatMap places) →
      (Text.pieces s.toList 0 cuts).flatten = s.toList := by
  have hslices := pairwise_canSlice_of_scan hs
  refine ⟨fun r hr => ⟨wellPlaced_of_scan hs hr, noMarkers_content hs hr⟩, pairwise_of_scan hs,
    fun above line below hlines houtside hkind => ?_, hslices, fun cuts hcuts => ?_⟩
  · obtain ⟨r, hr, hstart⟩ := exists_region_of_start hs hlines hkind
    have hplaced := wellPlaced_of_scan hs hr
    have hcontains : r.contains (Text.width above.flatten) = true := by
      have hstop := (hplaced.le_of_mem (n := r.contentStart) (by simp [places])).2
      have := hplaced.start_lt
      simp only [contains, Bool.and_eq_true, decide_eq_true_eq]
      omega
    rw [houtside r hr] at hcontains
    cases hcontains
  · have hsublist : (0 :: cuts).Sublist (0 :: (rs.flatMap places ++ [Text.width s.toList])) :=
      (hcuts.trans (List.sublist_append_left _ _)).cons_cons 0
    rw [Text.flatten_pieces (hslices.sublist hsublist)]
    exact Text.dropBytes_width [] s.toList

/-- A character of two bytes before the region and one in its content, line ends of two characters,
and an end line that ends the text. -/
theorem scan_places_of_wide_characters :
    scan (.ofOptions .default ⟨"a.ts"⟩) "é\r\n// @scf-region\r\n\r\nü\r\n// @scf-endregion" =
        .ok [⟨4, 43, 22, 26, none⟩] ∧
      [0, 4, 22, 26, 43, 43].Pairwise
        (Text.CanSlice "é\r\n// @scf-region\r\n\r\nü\r\n// @scf-endregion".toList) := by
  have hs : scan (.ofOptions .default ⟨"a.ts"⟩)
      "é\r\n// @scf-region\r\n\r\nü\r\n// @scf-endregion" = .ok [⟨4, 43, 22, 26, none⟩] := by rfl
  exact ⟨hs, (scan_places hs).2.2.2.1⟩

end Scaffold.Region
