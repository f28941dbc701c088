import Scaffold.Proofs.Region.Field
import Scaffold.Proofs.Region.Layout

/-!
# Which markers pair

The marker lines of a text, all other lines left out, decide whether it scans (`marks`): each start
line has to have an end line next to it (`Paired`). Such a text has one region for each start line,
from there to that end line (`Delimited`). In any other text the first start line that is not
followed by an end line is at fault (`FirstUnpaired`). An end line that follows no start line does
not count.

All this comes from one decomposition: lines are those of a layout, behind which there may be a
start line that the next marker line, if there is one, does not close (`parted`).
-/

namespace Scaffold.Region

variable {d : Delimiters}

/-! ### Marker lines -/

/-- The marker lines of lines, by number, if the first line has number `n`. -/
def marksFrom (d : Delimiters) (n : Nat) (ls : List (List Char)) : List (Nat × LineKind) :=
  ((ls.zipIdx n).map fun (line, i) =>
    (i, lineKind d (Text.dropEndWhile Text.isLineEnd line))).filter (·.2 ≠ .other)

/-- The marker lines of lines, by number. The first line has number 0. -/
def marks (d : Delimiters) (ls : List (List Char)) : List (Nat × LineKind) := marksFrom d 0 ls

/-- The numbers of the start lines among marker lines. -/
def startsOf (ms : List (Nat × LineKind)) : List Nat := (ms.filter (·.2 = .start)).map (·.1)

/-- The numbers of the start lines. -/
def starts (d : Delimiters) (ls : List (List Char)) : List Nat := startsOf (marks d ls)

/-- Among the marker lines, the start line `i` is immediately followed by the end line `j`. -/
def Pairs (d : Delimiters) (ls : List (List Char)) (i j : Nat) : Prop :=
  [(i, LineKind.start), (j, .stop)] <:+: marks d ls

/-- Among the marker lines, every start line is immediately followed by an end line. -/
def Paired (d : Delimiters) (ls : List (List Char)) : Prop :=
  ∀ i, (i, LineKind.start) ∈ marks d ls → ∃ j, Pairs d ls i j

/-- The first start line that is not immediately followed by an end line. -/
structure FirstUnpaired (d : Delimiters) (ls : List (List Char)) (i : Nat) : Prop where
  isStart : (i, LineKind.start) ∈ marks d ls
  unpaired : ∀ j, ¬ Pairs d ls i j
  earlier : ∀ k < i, (k, LineKind.start) ∈ marks d ls → ∃ j, Pairs d ls k j

/-- The complaint about a start line: the next marker line is another start line, or there is
none. -/
inductive Complains (d : Delimiters) (ls : List (List Char)) (i : Nat) : Complaint → Prop where
  | another {j : Nat} (h : [(i, LineKind.start), (j, .start)] <:+: marks d ls) :
    Complains d ls i (.another d.startMarker (j + 1) d.endMarker)
  | missing (h : [(i, LineKind.start)] <:+ marks d ls) : Complains d ls i (.missing d.endMarker)

theorem lineKind_dropEndWhile (d : Delimiters) (line : List Char) :
    lineKind d (Text.dropEndWhile Text.isLineEnd line) = lineKind d line := by
  rw [lineKind, lineKind, Comment.strip?_dropEndWhile]

theorem marksFrom_append (d : Delimiters) (n : Nat) (a b : List (List Char)) :
    marksFrom d n (a ++ b) = marksFrom d n a ++ marksFrom d (n + a.length) b := by
  simp [marksFrom, List.zipIdx_append]

theorem marksFrom_cons (d : Delimiters) (n : Nat) (line : List Char) (ls : List (List Char)) :
    marksFrom d n (line :: ls) =
      if lineKind d line = .other then marksFrom d (n + 1) ls
      else (n, lineKind d line) :: marksFrom d (n + 1) ls := by
  by_cases h : lineKind d line = .other <;>
    simp [marksFrom, List.zipIdx_cons, lineKind_dropEndWhile, h]

theorem marksFrom_of_other {ls : List (List Char)} (h : ∀ l ∈ ls, lineKind d l = .other)
    (n : Nat) : marksFrom d n ls = [] := by
  induction ls generalizing n with
  | nil => rfl
  | cons l ls ih =>
    obtain ⟨hl, hls⟩ := List.forall_mem_cons.1 h
    rw [marksFrom_cons, if_pos hl, ih hls]

theorem startsOf_append (a b : List (Nat × LineKind)) :
    startsOf (a ++ b) = startsOf a ++ startsOf b := by
  simp [startsOf]

theorem startsOf_marksFrom {ls : List (List Char)} (h : ∀ l ∈ ls, lineKind d l ≠ .start)
    (n : Nat) : startsOf (marksFrom d n ls) = [] := by
  induction ls generalizing n with
  | nil => rfl
  | cons l ls ih =>
    obtain ⟨hl, hls⟩ := List.forall_mem_cons.1 h
    have hrest := ih hls (n + 1)
    rw [marksFrom_cons]
    split
    · exact hrest
    · simpa [startsOf, hl] using hrest

theorem mem_startsOf {ms : List (Nat × LineKind)} {i : Nat} :
    i ∈ startsOf ms ↔ (i, LineKind.start) ∈ ms := by
  simp [startsOf]

/-- The numbers of marker lines are those of lines. -/
theorem lt_of_mem_marksFrom {n : Nat} {ls : List (List Char)} {m : Nat × LineKind}
    (h : m ∈ marksFrom d n ls) : n ≤ m.1 ∧ m.1 < n + ls.length := by
  obtain ⟨⟨line, i⟩, hi, rfl⟩ := List.mem_map.1 (List.mem_filter.1 h).1
  exact ⟨List.le_snd_of_mem_zipIdx hi, List.snd_lt_add_of_mem_zipIdx hi⟩

/-- Lines that pair still do with more lines behind them. -/
theorem Pairs.append {ls : List (List Char)} {i j : Nat} (h : Pairs d ls i j)
    (more : List (List Char)) : Pairs d (ls ++ more) i j := by
  rw [Pairs, marks, marksFrom_append]
  exact List.IsInfix.trans h (List.infix_append' [] _ _)

/-! ### Where lines are -/

/-- The place where a line begins. -/
def placeOf (ls : List (List Char)) (n : Nat) : Nat := Text.width (ls.take n).flatten

/-- The lines behind line `i` and before line `j`. -/
def between (ls : List (List Char)) (i j : Nat) : List (List Char) := (ls.take j).drop (i + 1)

theorem placeOf_length (a b : List (List Char)) :
    placeOf (a ++ b) a.length = Text.width a.flatten := by
  rw [placeOf, List.take_left]

theorem between_length (a m b : List (List Char)) (line : List Char) :
    between (a ++ line :: (m ++ b)) a.length (a.length + 1 + m.length) = m := by
  have hsplit : a ++ line :: (m ++ b) = (a ++ [line]) ++ m ++ b := by simp
  have hend : ((a ++ [line]) ++ m).length = a.length + 1 + m.length := by simp; omega
  have hstart : (a ++ [line]).length = a.length + 1 := by simp
  rw [between, hsplit, List.take_left' hend, List.drop_left' hstart]

/-- The region from the start line `i` to the end line `j`. Its header ends at the first blank line
between them, and its content begins behind that line. Without a blank line it has no header. -/
structure Delimited (d : Delimiters) (ls : List (List Char)) (i j : Nat) (r : Region) : Prop where
  start : r.start = placeOf ls i
  stop : r.stop = placeOf ls (j + 1)
  contentStop : r.contentStop = placeOf ls j
  contentStart : ∀ header blank body, between ls i j = header ++ blank :: body →
    (∀ l ∈ header, Text.allBlank l = false) → Text.allBlank blank = true →
      r.contentStart = placeOf ls (i + 1 + header.length + 1)
  contentStart_bare : (∀ l ∈ between ls i j, Text.allBlank l = false) →
    r.contentStart = placeOf ls (i + 1)
  identity? : ∀ u, r.identity? = some u ↔ ∃ header blank body,
    between ls i j = header ++ blank :: body ∧ (∀ l ∈ header, Text.allBlank l = false) ∧
      Text.allBlank blank = true ∧ Identity.IsHeader d.comment header u

/-! ### Stretches -/

theorem untilBlank?_eq_none {ls : List (List Char)} (h : ∀ l ∈ ls, Text.allBlank l = false) :
    untilBlank? ls = none := by
  induction ls with
  | nil => rfl
  | cons l ls ih =>
    obtain ⟨hl, hls⟩ := List.forall_mem_cons.1 h
    simp [untilBlank?, hl, ih hls]

/-- The identity of a stretch is the one of which the lines before its first blank line are a
header. -/
theorem Stretch.identity?_eq_some {x : Stretch} {u : Identity} :
    x.identity? d = some u ↔ ∃ header blank body, x.inner = header ++ blank :: body ∧
      (∀ l ∈ header, Text.allBlank l = false) ∧ Text.allBlank blank = true ∧
      Identity.IsHeader d.comment header u := by
  constructor
  · intro h
    obtain ⟨header, blank, hinner, hheader, hblank, hu⟩ := exists_header h
    exact ⟨header, blank, _, hinner, hheader, hblank, Identity.ofHeader?_eq_some.1 hu⟩
  · rintro ⟨header, blank, body, hinner, hheader, hblank, hu⟩
    obtain ⟨-, -, hidentity⟩ := parts_of_inner hinner hheader hblank
    rw [hidentity, Identity.ofHeader?_eq_some.2 hu]

/-- The marker lines of a stretch are end lines before its region, and the start line and the end
line of the region. -/
theorem marksFrom_stretch {x : Stretch} (hx : x.Fits d) (n : Nat) (more : List (List Char)) :
    marksFrom d n (x.lines ++ more) =
      marksFrom d n x.before ++ ((n + x.before.length, LineKind.start) ::
        (n + x.before.length + 1 + x.inner.length, .stop) ::
          marksFrom d (n + x.lines.length) more) := by
  have hlines : x.lines ++ more = x.before ++ x.opener :: (x.inner ++ x.closer :: more) := by
    simp [Stretch.lines, Stretch.regionLines]
  have hlength : n + x.lines.length =
      n + x.before.length + 1 + x.inner.length + 1 := by
    simp [Stretch.lines, Stretch.regionLines]; omega
  rw [hlines, hlength, marksFrom_append, marksFrom_cons, hx.opener, if_neg (by decide),
    marksFrom_append, marksFrom_of_other hx.inner, marksFrom_cons, hx.closer,
    if_neg (by decide), List.nil_append]

/-- The lines of a stretch pair, and its region lies between them. -/
theorem delimited_stretch {x : Stretch} (hx : x.Fits d) {ls above more : List (List Char)}
    (hls : ls = above ++ (x.lines ++ more)) :
    ∃ j, Pairs d ls (above.length + x.before.length) j ∧
      Delimited d ls (above.length + x.before.length) j
        (x.region d (Text.width above.flatten)) := by
  have hbetween : between ls (above.length + x.before.length)
      (above.length + x.before.length + 1 + x.inner.length) = x.inner := by
    have hsplit : ls = (above ++ x.before) ++ x.opener :: (x.inner ++ x.closer :: more) := by
      simp [hls, Stretch.lines, Stretch.regionLines]
    rw [hsplit, ← List.length_append]
    exact between_length _ _ _ _
  -- a place in the text is the width of the lines before it
  have hplace : ∀ n a b, ls = above ++ (x.before ++ (a ++ b)) →
      n = above.length + x.before.length + a.length →
      placeOf ls n = Text.width above.flatten + Text.width x.before.flatten +
        Text.width a.flatten := by
    rintro n a b hsplit rfl
    have hplace := placeOf_length (above ++ x.before ++ a) b
    simpa [hsplit, Nat.add_assoc] using hplace
  refine ⟨above.length + x.before.length + 1 + x.inner.length, ?_, ?_⟩
  · rw [Pairs, marks, hls, marksFrom_append, marksFrom_stretch hx, Nat.zero_add,
      ← List.append_assoc]
    exact ⟨_, _, by rw [List.append_assoc]; rfl⟩
  · constructor
    · rw [hplace _ [] (x.regionLines ++ more) (by simp [hls, Stretch.lines]) (by simp)]
      simp [Stretch.region]
    · rw [hplace _ x.regionLines more (by simp [hls, Stretch.lines])
        (by simp [Stretch.regionLines]; omega)]
      simp [Stretch.region, Stretch.regionLines]
      omega
    · rw [hplace _ (x.opener :: x.inner) (x.closer :: more)
        (by simp [hls, Stretch.lines, Stretch.regionLines]) (by simp; omega)]
      simp [Stretch.region]
      omega
    · intro header blank body hinner hheader hblank
      rw [hbetween] at hinner
      obtain ⟨hhead, -, -⟩ := Stretch.parts_of_inner hinner hheader hblank
      rw [hplace _ (x.opener :: (header ++ [blank])) (body ++ x.closer :: more)
        (by simp [hls, Stretch.lines, Stretch.regionLines, hinner]) (by simp; omega)]
      simp [Stretch.region, hhead]
      omega
    · intro hbare
      rw [hbetween] at hbare
      have hhead : x.head = [] := by simp [Stretch.head, untilBlank?_eq_none hbare]
      rw [hplace _ [x.opener] (x.inner ++ x.closer :: more)
        (by simp [hls, Stretch.lines, Stretch.regionLines]) (by simp)]
      simp [Stretch.region, hhead]
    · intro u
      rw [hbetween]
      exact Stretch.identity?_eq_some

/-- The regions of stretches lie between the lines that pair, one for each start line. -/
theorem forall₂_delimited {xs : List Stretch} (hxs : ∀ x ∈ xs, x.Fits d)
    {rest : List (List Char)} (hrest : ∀ l ∈ rest, lineKind d l ≠ .start)
    {ls : List (List Char)} (earlier : List Stretch)
    (hls : ls = stretchLines earlier ++ (stretchLines xs ++ rest)) :
    List.Forall₂ (fun i r => ∃ j, Pairs d ls i j ∧ Delimited d ls i j r)
      (startsOf (marksFrom d (stretchLines earlier).length (stretchLines xs ++ rest)))
      (regionsFrom d (Text.width (stretchLines earlier).flatten) xs) := by
  induction xs generalizing earlier with
  | nil =>
    rw [stretchLines_nil, List.nil_append, startsOf_marksFrom hrest]
    exact .nil
  | cons x xs ih =>
    obtain ⟨hx, hxs⟩ := List.forall_mem_cons.1 hxs
    have hsplit : ls = stretchLines earlier ++ (x.lines ++ (stretchLines xs ++ rest)) := by
      rw [hls, stretchLines_cons, List.append_assoc]
    have htail := ih hxs (earlier ++ [x]) (by simp [hsplit])
    simp only [stretchLines_append, stretchLines_cons, stretchLines_nil, List.append_nil,
      List.length_append, List.flatten_append, Text.width_append] at htail
    rw [stretchLines_cons, List.append_assoc, marksFrom_stretch hx, startsOf_append,
      startsOf_marksFrom hx.before, List.nil_append]
    exact .cons (delimited_stretch hx hsplit) htail

/-- The lines of a layout pair, and its regions lie between them. -/
theorem forall₂_delimited_layout {y : Layout} (hy : y.Fits d) :
    List.Forall₂ (fun i r => ∃ j, Pairs d y.lines i j ∧ Delimited d y.lines i j r)
      (starts d y.lines) (regionsFrom d 0 y.stretches) :=
  forall₂_delimited hy.stretches hy.rest [] rfl

/-- A start line of a layout begins a region. -/
theorem exists_delimited_of_mem {y : Layout} (hy : y.Fits d) {i : Nat}
    (hi : (i, LineKind.start) ∈ marks d y.lines) :
    ∃ r ∈ regionsFrom d 0 y.stretches,
      ∃ j, Pairs d y.lines i j ∧ Delimited d y.lines i j r := by
  have hregions := List.forall₂_iff_get.1 (forall₂_delimited_layout hy)
  obtain ⟨hlength, hregions⟩ := hregions
  have hmem : i ∈ starts d y.lines := mem_startsOf.2 hi
  obtain ⟨n, hn, rfl⟩ := List.getElem_of_mem hmem
  exact ⟨_, List.getElem_mem (hlength ▸ hn), hregions n hn (hlength ▸ hn)⟩

theorem paired_layout {y : Layout} (hy : y.Fits d) : Paired d y.lines := by
  intro i hi
  obtain ⟨r, -, j, hj, -⟩ := exists_delimited_of_mem hy hi
  exact ⟨j, hj⟩

/-! ### Lines that do not pair -/

variable {y : Layout} {opener : List Char} {inner tail : List (List Char)}

theorem Unclosed.marks_eq (h : Unclosed d y opener inner tail) :
    marks d (y.lines ++ opener :: (inner ++ tail)) =
      marks d y.lines ++ (y.lines.length, LineKind.start) ::
        marksFrom d (y.lines.length + 1 + inner.length) tail := by
  rw [marks, marksFrom_append, marksFrom_cons, h.opener, if_neg (by decide), marksFrom_append,
    marksFrom_of_other h.inner, List.nil_append, Nat.zero_add]
  rfl

/-- An unclosed start line is the first that is not followed by an end line. -/
theorem Unclosed.firstUnpaired (h : Unclosed d y opener inner tail) :
    FirstUnpaired d (y.lines ++ opener :: (inner ++ tail)) y.lines.length where
  isStart := by simp [h.marks_eq]
  unpaired := by
    rintro j ⟨a, b, hab⟩
    have hmarks : marks d y.lines ++ (y.lines.length, LineKind.start) ::
          marksFrom d (y.lines.length + 1 + inner.length) tail =
        a ++ (y.lines.length, LineKind.start) :: ((j, .stop) :: b) := by
      rw [← h.marks_eq, ← hab]
      simp
    -- the start line is among the marker lines only once
    have habove : (y.lines.length, LineKind.start) ∉ marks d y.lines := by
      intro hmem
      have := (lt_of_mem_marksFrom hmem).2
      omega
    have hbelow : (y.lines.length, LineKind.start) ∉
        marksFrom d (y.lines.length + 1 + inner.length) tail := by
      intro hmem
      have := (lt_of_mem_marksFrom hmem).1
      omega
    obtain ⟨-, -, htail⟩ := (List.append_cons_inj_of_notMem habove hbelow).1 hmarks
    cases htl : tail with
    | nil =>
      rw [htl] at htail
      cases htail
    | cons l more =>
      have hl : lineKind d l = .start := h.tail l (by simp [htl])
      rw [htl, marksFrom_cons, hl, if_neg (by decide)] at htail
      cases htail
  earlier := by
    intro k hk hmem
    rw [h.marks_eq] at hmem
    rcases List.mem_append.1 hmem with hmem | hmem
    · obtain ⟨j, hj⟩ := paired_layout h.fits k hmem
      exact ⟨j, hj.append _⟩
    · rcases List.mem_cons.1 hmem with hmem | hmem
      · obtain ⟨rfl, -⟩ := Prod.mk.inj hmem
        omega
      · have := (lt_of_mem_marksFrom hmem).1
        omega

/-- The complaint about an unclosed start line says what follows it. -/
theorem Unclosed.complains (h : Unclosed d y opener inner tail) :
    Complains d (y.lines ++ opener :: (inner ++ tail)) y.lines.length
      (complaintFor d (1 + y.lines.length + 1 + inner.length) tail) := by
  have hmarks := h.marks_eq
  cases htail : tail with
  | nil =>
    rw [htail] at hmarks
    exact .missing (hmarks ▸ List.suffix_append _ _)
  | cons l more =>
    have hl : lineKind d l = .start := h.tail l (by simp [htail])
    have hline : 1 + y.lines.length + 1 + inner.length =
        y.lines.length + 1 + inner.length + 1 := by omega
    rw [htail, marksFrom_cons, hl, if_neg (by decide)] at hmarks
    rw [hline]
    refine .another ?_
    rw [hmarks]
    exact ⟨marks d y.lines, marksFrom d (y.lines.length + 1 + inner.length + 1) more, by simp⟩

/-! ### Scanning -/

/-- **A text scans if and only if its markers pair**: among the marker lines alone, every start
line is immediately followed by an end line. It then has one region for each start line, in order,
from that line to that end line, with the identity in its header. Otherwise the fault is that of
the first start line that is not followed by an end line. -/
theorem scan_iff_paired (d : Delimiters) (s : String) :
    ((∃ rs, scan d s = .ok rs) ↔ Paired d (Text.lines s.toList)) ∧
    (∀ rs, scan d s = .ok rs →
      List.Forall₂ (fun i r => ∃ j, Pairs d (Text.lines s.toList) i j ∧
        Delimited d (Text.lines s.toList) i j r) (starts d (Text.lines s.toList)) rs) ∧
    ∀ f, scan d s = .error f → ∃ i, FirstUnpaired d (Text.lines s.toList) i ∧
      f.line = i + 1 ∧ Complains d (Text.lines s.toList) i f.complaint := by
  rcases parted d (Text.lines s.toList) with ⟨y, hy, hlines⟩ | ⟨y, opener, inner, tail, hy, hlines⟩
  · have hscan : scan d s = .ok (regionsFrom d 0 y.stretches) :=
      scan_eq_ok.2 ⟨y, hy, hlines, rfl⟩
    rw [hscan, hlines]
    refine ⟨⟨fun _ => paired_layout hy, fun _ => ⟨_, rfl⟩⟩, fun rs hrs => ?_, fun f hf => ?_⟩
    · obtain rfl := Except.ok.inj hrs
      exact forall₂_delimited_layout hy
    · cases hf
  · have hscan := scanLines_unclosed hy 1 0
    rw [← hlines] at hscan
    rw [scan, hscan, hlines]
    refine ⟨⟨fun ⟨rs, hrs⟩ => ?_, fun hpaired => ?_⟩, fun rs hrs => ?_, fun f hf => ?_⟩
    · cases hrs
    · obtain ⟨j, hj⟩ := hpaired _ hy.firstUnpaired.isStart
      exact absurd hj (hy.firstUnpaired.unpaired j)
    · cases hrs
    · obtain rfl := Except.error.inj hf
      exact ⟨_, hy.firstUnpaired, Nat.add_comm _ _, hy.complains⟩

/-- An end line that follows no start line does not count, and of two start lines the one that
another start line follows is at fault. -/
theorem scan_iff_paired_of_stray_end_line :
    Paired (.ofOptions .default ⟨"a.ts"⟩)
        (Text.lines "// @scf-endregion\n// @scf-region\nx\n// @scf-endregion".toList) ∧
      FirstUnpaired (.ofOptions .default ⟨"a.ts"⟩)
        (Text.lines ("// @scf-region\n// @scf-endregion\n// @scf-region\nx\n" ++
          "// @scf-region\n// @scf-endregion\n").toList) 2 := by
  constructor
  · exact (scan_iff_paired _ _).1.1 ⟨[⟨18, 52, 33, 35, none⟩], rfl⟩
  · obtain ⟨i, hi, hline, -⟩ := (scan_iff_paired (.ofOptions .default ⟨"a.ts"⟩)
      ("// @scf-region\n// @scf-endregion\n// @scf-region\nx\n" ++
        "// @scf-region\n// @scf-endregion\n")).2.2
      ⟨3, .another "@scf-region" 5 "@scf-endregion"⟩ rfl
    obtain rfl := Nat.succ.inj hline
    exact hi

end Scaffold.Region
