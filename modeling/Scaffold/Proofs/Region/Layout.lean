import Scaffold.Region
import Scaffold.Proofs.Text

/-!
# The layout of a text with regions

The lines of a text that scans are parted into stretches, each of which ends with a region, and
the lines behind the last region (`Layout`). All other texts have a start line behind such lines
that the next marker line does not close (`parted`). Scanning gives the regions of the stretches
of a layout of the lines, and fails where there is none (`scan_eq_ok`). So what is said about
regions and their places can be proved on stretches.
-/

namespace Scaffold.Region

/-- The lines up to the end of a region. -/
structure Stretch where
  /-- The lines before the region. -/
  before : List (List Char)
  /-- The start line. -/
  opener : List Char
  /-- The lines inside the region. -/
  inner : List (List Char)
  /-- The end line. -/
  closer : List Char

/-- The lines of a text by its regions. -/
structure Layout where
  stretches : List Stretch
  /-- The lines behind the last region. -/
  rest : List (List Char)

/-- The lines of the region of a stretch. -/
def Stretch.regionLines (x : Stretch) : List (List Char) := x.opener :: (x.inner ++ [x.closer])

/-- The lines of a stretch. -/
def Stretch.lines (x : Stretch) : List (List Char) := x.before ++ x.regionLines

/-- The lines of stretches. -/
def stretchLines (xs : List Stretch) : List (List Char) := xs.flatMap Stretch.lines

/-- The lines of a layout. -/
def Layout.lines (y : Layout) : List (List Char) := stretchLines y.stretches ++ y.rest

/-- What stands between the regions, before the first and behind the last. -/
def Layout.gaps (y : Layout) : List (List Char) :=
  y.stretches.map (·.before.flatten) ++ [y.rest.flatten]

/-- The lines of the stretch are what its fields say: the start line and the end line stand in
their places only, but for end lines before the region. -/
structure Stretch.Fits (d : Delimiters) (x : Stretch) : Prop where
  before : ∀ l ∈ x.before, lineKind d l ≠ .start
  opener : lineKind d x.opener = .start
  inner : ∀ l ∈ x.inner, lineKind d l = .other
  closer : lineKind d x.closer = .stop

/-- Every stretch is one, and no start line stands behind the last region. -/
structure Layout.Fits (d : Delimiters) (y : Layout) : Prop where
  stretches : ∀ x ∈ y.stretches, x.Fits d
  rest : ∀ l ∈ y.rest, lineKind d l ≠ .start

@[simp] theorem stretchLines_nil : stretchLines [] = [] := rfl

@[simp] theorem stretchLines_cons (x : Stretch) (xs : List Stretch) :
    stretchLines (x :: xs) = x.lines ++ stretchLines xs := rfl

@[simp] theorem stretchLines_append (xs ys : List Stretch) :
    stretchLines (xs ++ ys) = stretchLines xs ++ stretchLines ys := List.flatMap_append

/-! ### The region of a stretch -/

/-- The lines of the region up to its content: the header and the blank line behind it. -/
def Stretch.head (x : Stretch) : List (List Char) :=
  match untilBlank? x.inner with
  | some (header, blank) => header ++ [blank]
  | none => []

/-- The lines of the content. -/
def Stretch.body (x : Stretch) : List (List Char) := x.inner.drop x.head.length

/-- The identity in the header. -/
def Stretch.identity? (d : Delimiters) (x : Stretch) : Option Identity :=
  match untilBlank? x.inner with
  | some (header, _) => Identity.ofHeader? d.comment header
  | none => none

/-- The region of a stretch whose first line begins at an offset. -/
def Stretch.region (d : Delimiters) (offset : Nat) (x : Stretch) : Region :=
  let start := offset + Text.width x.before.flatten
  let inside := start + Text.width x.opener
  let contentStop := inside + Text.width x.inner.flatten
  ⟨start, contentStop + Text.width x.closer, inside + Text.width x.head.flatten, contentStop,
    x.identity? d⟩

/-- The regions of stretches, of which the first begins at an offset. -/
def regionsFrom (d : Delimiters) : Nat → List Stretch → List Region
  | _, [] => []
  | offset, x :: xs =>
    x.region d offset :: regionsFrom d (offset + Text.width x.lines.flatten) xs

theorem Stretch.stop_region (d : Delimiters) (offset : Nat) (x : Stretch) :
    (x.region d offset).stop =
      offset + Text.width x.before.flatten + Text.width x.regionLines.flatten := by
  simp [Stretch.region, Stretch.regionLines]
  omega

theorem le_start_of_mem_regionsFrom {d : Delimiters} {offset : Nat} {xs : List Stretch} :
    ∀ r ∈ regionsFrom d offset xs, offset ≤ r.start := by
  induction xs generalizing offset with
  | nil => simp [regionsFrom]
  | cons x xs ih =>
    refine List.forall_mem_cons.2 ⟨?_, fun r hr => ?_⟩
    · simp [Stretch.region]
    · have := ih r hr
      omega

/-- The lines before the first blank line are not blank, and that line is. -/
theorem untilBlank?_eq_some {ls header : List (List Char)} {blank : List Char} :
    untilBlank? ls = some (header, blank) ↔
      (∃ more, ls = header ++ blank :: more) ∧ (∀ l ∈ header, Text.allBlank l = false) ∧
        Text.allBlank blank = true := by
  constructor
  · intro h
    induction ls generalizing header with
    | nil => simp [untilBlank?] at h
    | cons l ls ih =>
      rw [untilBlank?] at h
      split at h
      · rename_i hb
        obtain ⟨rfl, rfl⟩ := Prod.mk.inj (Option.some.inj h)
        exact ⟨⟨ls, rfl⟩, by simp, hb⟩
      · rename_i hb
        obtain ⟨⟨header', blank'⟩, hs, he⟩ := Option.map_eq_some_iff.1 h
        obtain ⟨rfl, rfl⟩ := Prod.mk.inj he
        obtain ⟨⟨more, rfl⟩, hh, hblank⟩ := ih hs
        exact ⟨⟨more, rfl⟩, List.forall_mem_cons.2 ⟨by simpa using hb, hh⟩, hblank⟩
  · rintro ⟨⟨more, rfl⟩, hh, hb⟩
    induction header with
    | nil => simp [untilBlank?, hb]
    | cons l header ih =>
      obtain ⟨hl, hh⟩ := List.forall_mem_cons.1 hh
      simp [untilBlank?, hl, ih hh]

theorem Stretch.head_append_body (x : Stretch) : x.head ++ x.body = x.inner := by
  suffices h : x.head <+: x.inner by
    obtain ⟨t, ht⟩ := h
    rw [body, ← ht, List.drop_left]
  rw [head]
  split
  · rename_i header blank h
    obtain ⟨⟨more, hm⟩, -⟩ := untilBlank?_eq_some.1 h
    exact ⟨more, by simp [hm]⟩
  · exact List.nil_prefix

/-- Lines that are not blank, a blank line and more lines are the header and the content of a
stretch. -/
theorem Stretch.parts_of_inner {x : Stretch} {header body : List (List Char)} {blank : List Char}
    (hx : x.inner = header ++ blank :: body) (hh : ∀ l ∈ header, Text.allBlank l = false)
    (hb : Text.allBlank blank = true) :
    x.head = header ++ [blank] ∧ x.body = body ∧
      ∀ d, x.identity? d = Identity.ofHeader? d.comment header := by
  have hu : untilBlank? x.inner = some (header, blank) :=
    untilBlank?_eq_some.2 ⟨⟨body, hx⟩, hh, hb⟩
  have hhead : x.head = header ++ [blank] := by simp [head, hu]
  refine ⟨hhead, ?_, fun d => by simp [identity?, hu]⟩
  have hinner : x.inner = header ++ [blank] ++ body := by rw [hx, List.append_cons]
  rw [Stretch.body, hhead, hinner, List.drop_left]

/-- The header of a stretch with an identity, and the blank line behind it. -/
theorem Stretch.exists_header {d : Delimiters} {x : Stretch} {i : Identity}
    (h : x.identity? d = some i) :
    ∃ header blank, x.inner = header ++ blank :: x.body ∧
      (∀ l ∈ header, Text.allBlank l = false) ∧ Text.allBlank blank = true ∧
      Identity.ofHeader? d.comment header = some i := by
  rw [identity?] at h
  split at h
  · rename_i header blank hu
    obtain ⟨⟨more, hm⟩, hh, hb⟩ := untilBlank?_eq_some.1 hu
    obtain ⟨-, hbody, -⟩ := parts_of_inner hm hh hb
    exact ⟨header, blank, hbody ▸ hm, hh, hb, h⟩
  · cases h

/-- An opened region that is closed is the region of its stretch. -/
theorem close_eq_region (d : Delimiters) (n offset : Nat) (x : Stretch) :
    Opened.close
        ⟨n, offset + Text.width x.before.flatten,
          offset + Text.width x.before.flatten + Text.width x.opener, x.inner⟩ d.comment
        (x.region d offset).contentStop (x.region d offset).stop = x.region d offset := by
  cases hb : untilBlank? x.inner <;>
    simp [Opened.close, Stretch.region, Stretch.head, Stretch.identity?, hb]

/-! ### Scanning, line by line -/

section
variable {d : Delimiters} {line : List Char}

theorem scanLines_start (h : lineKind d line = .start) (n offset : Nat) (ls : List (List Char)) :
    scanLines d none n offset (line :: ls) =
      scanLines d (some ⟨n, offset, offset + Text.width line, []⟩) (n + 1)
        (offset + Text.width line) ls := by
  simp [scanLines, h]

theorem scanLines_of_ne_start (h : lineKind d line ≠ .start) (n offset : Nat)
    (ls : List (List Char)) :
    scanLines d none n offset (line :: ls) =
      scanLines d none (n + 1) (offset + Text.width line) ls := by
  cases hk : lineKind d line with
  | start => exact absurd hk h
  | stop => simp [scanLines, hk]
  | other => simp [scanLines, hk]

theorem scanLines_some_start (h : lineKind d line = .start) (o : Opened) (n offset : Nat)
    (ls : List (List Char)) :
    scanLines d (some o) n offset (line :: ls) =
      .error ⟨o.line, .another d.startMarker n d.endMarker⟩ := by
  simp [scanLines, h]

theorem scanLines_some_stop (h : lineKind d line = .stop) (o : Opened) (n offset : Nat)
    (ls : List (List Char)) :
    scanLines d (some o) n offset (line :: ls) =
      (scanLines d none (n + 1) (offset + Text.width line) ls).map
        (o.close d.comment offset (offset + Text.width line) :: ·) := by
  simp only [scanLines, h]
  cases scanLines d none (n + 1) (offset + Text.width line) ls <;> rfl

theorem scanLines_some_other (h : lineKind d line = .other) (o : Opened) (n offset : Nat)
    (ls : List (List Char)) :
    scanLines d (some o) n offset (line :: ls) =
      scanLines d (some (o.add line)) (n + 1) (offset + Text.width line) ls := by
  simp [scanLines, h]

end

/-! ### Scanning a layout -/

/-- Lines outside of regions are passed over, as long as none of them starts one. -/
theorem scanLines_plain {d : Delimiters} {ls : List (List Char)}
    (h : ∀ l ∈ ls, lineKind d l ≠ .start) (n offset : Nat) (more : List (List Char)) :
    scanLines d none n offset (ls ++ more) =
      scanLines d none (n + ls.length) (offset + Text.width ls.flatten) more := by
  induction ls generalizing n offset with
  | nil => rfl
  | cons l ls ih =>
    obtain ⟨hl, hls⟩ := List.forall_mem_cons.1 h
    rw [List.cons_append, scanLines_of_ne_start hl, ih hls]
    simp [Nat.add_assoc, Nat.add_comm 1]

/-- Lines inside a region are collected, as long as none of them is a marker line. -/
theorem scanLines_inner {d : Delimiters} {ls : List (List Char)}
    (h : ∀ l ∈ ls, lineKind d l = .other) (o : Opened) (n offset : Nat)
    (more : List (List Char)) :
    scanLines d (some o) n offset (ls ++ more) =
      scanLines d (some ⟨o.line, o.start, o.inside, o.lines ++ ls⟩) (n + ls.length)
        (offset + Text.width ls.flatten) more := by
  induction ls generalizing o n offset with
  | nil => simp
  | cons l ls ih =>
    obtain ⟨hl, hls⟩ := List.forall_mem_cons.1 h
    rw [List.cons_append, scanLines_some_other hl, ih hls]
    simp [Opened.add, Nat.add_assoc, Nat.add_comm 1]

/-- A stretch gives its region, whatever follows it. -/
theorem scanLines_stretch {d : Delimiters} {x : Stretch} (h : x.Fits d) (n offset : Nat)
    (more : List (List Char)) :
    scanLines d none n offset (x.lines ++ more) =
      (scanLines d none (n + x.lines.length) (offset + Text.width x.lines.flatten) more).map
        (x.region d offset :: ·) := by
  have hlines : x.lines ++ more = x.before ++ x.opener :: (x.inner ++ x.closer :: more) := by
    simp [Stretch.lines, Stretch.regionLines]
  have hlength : n + x.lines.length =
      n + x.before.length + 1 + x.inner.length + 1 := by
    simp [Stretch.lines, Stretch.regionLines]; omega
  have hwidth : offset + Text.width x.lines.flatten = (x.region d offset).stop := by
    simp [Stretch.lines, Stretch.regionLines, Stretch.region]; omega
  rw [hlines, scanLines_plain h.before, scanLines_start h.opener, scanLines_inner h.inner,
    scanLines_some_stop h.closer, hlength, hwidth]
  simp only [List.nil_append]
  have hclose := close_eq_region d (n + x.before.length) offset x
  simp only [Stretch.region] at hclose ⊢
  rw [hclose]

/-- Stretches give their regions, whatever follows them. -/
theorem scanLines_stretches {d : Delimiters} {xs : List Stretch} (h : ∀ x ∈ xs, x.Fits d)
    (n offset : Nat) (more : List (List Char)) :
    scanLines d none n offset (stretchLines xs ++ more) =
      (scanLines d none (n + (stretchLines xs).length)
        (offset + Text.width (stretchLines xs).flatten) more).map
          (regionsFrom d offset xs ++ ·) := by
  induction xs generalizing n offset with
  | nil =>
    simp only [stretchLines_nil, List.nil_append, List.length_nil, List.flatten_nil,
      Text.width_nil, Nat.add_zero, regionsFrom]
    cases scanLines d none n offset more <;> rfl
  | cons x xs ih =>
    obtain ⟨hx, hxs⟩ := List.forall_mem_cons.1 h
    have hn : n + (stretchLines (x :: xs)).length =
        n + x.lines.length + (stretchLines xs).length := by simp; omega
    have hw : offset + Text.width (stretchLines (x :: xs)).flatten =
        offset + Text.width x.lines.flatten + Text.width (stretchLines xs).flatten := by simp; omega
    rw [hn, hw, stretchLines_cons, List.append_assoc, scanLines_stretch hx, ih hxs]
    generalize scanLines d none _ _ more = result
    cases result <;> rfl

/-- Lines that begin with a layout give the regions of its stretches, whatever follows them. -/
theorem scanLines_layout_append {d : Delimiters} {y : Layout} (h : y.Fits d) (n offset : Nat)
    (more : List (List Char)) :
    scanLines d none n offset (y.lines ++ more) =
      (scanLines d none (n + y.lines.length) (offset + Text.width y.lines.flatten) more).map
        (regionsFrom d offset y.stretches ++ ·) := by
  have hn : n + y.lines.length =
      n + (stretchLines y.stretches).length + y.rest.length := by simp [Layout.lines]; omega
  have hoffset : offset + Text.width y.lines.flatten =
      offset + Text.width (stretchLines y.stretches).flatten + Text.width y.rest.flatten := by
    simp [Layout.lines]; omega
  rw [hn, hoffset, Layout.lines, List.append_assoc, scanLines_stretches h.stretches,
    scanLines_plain h.rest]

/-- The lines of a layout give the regions of its stretches. -/
theorem scanLines_layout {d : Delimiters} {y : Layout} (h : y.Fits d) (n offset : Nat) :
    scanLines d none n offset y.lines = .ok (regionsFrom d offset y.stretches) := by
  have := scanLines_layout_append h n offset []
  simpa [scanLines, Except.map] using this

/-! ### Every text has a layout, or an unclosed start line behind one -/

section
variable {d : Delimiters}

/-- Behind a layout stands a start line that the next marker line, if there is one, does not
close. -/
structure Unclosed (d : Delimiters) (y : Layout) (opener : List Char)
    (inner tail : List (List Char)) : Prop where
  fits : y.Fits d
  opener : lineKind d opener = .start
  inner : ∀ l ∈ inner, lineKind d l = .other
  tail : ∀ l ∈ tail.head?, lineKind d l = .start

/-- The lines are those of a layout, or have an unclosed start line behind one. -/
def Parted (d : Delimiters) (ls : List (List Char)) : Prop :=
  (∃ y : Layout, y.Fits d ∧ ls = y.lines) ∨
    ∃ y opener inner tail, Unclosed d y opener inner tail ∧
      ls = y.lines ++ opener :: (inner ++ tail)

/-- Lines that can stand before every layout can stand before lines that are parted. -/
theorem Parted.append_left {before ls : List (List Char)}
    (hbefore : ∀ y : Layout, y.Fits d → ∃ y' : Layout, y'.Fits d ∧ y'.lines = before ++ y.lines)
    (h : Parted d ls) : Parted d (before ++ ls) := by
  rcases h with ⟨y, hy, rfl⟩ | ⟨y, opener, inner, tail, hy, rfl⟩
  · obtain ⟨y', hy', hlines⟩ := hbefore y hy
    exact .inl ⟨y', hy', hlines.symm⟩
  · obtain ⟨y', hy', hlines⟩ := hbefore y hy.fits
    refine .inr ⟨y', opener, inner, tail, ⟨hy', hy.opener, hy.inner, hy.tail⟩, ?_⟩
    rw [hlines, List.append_assoc]

/-- A line outside of regions can stand before every layout. -/
theorem exists_layout_cons {l : List Char} (hl : lineKind d l ≠ .start) (y : Layout)
    (hy : y.Fits d) : ∃ y' : Layout, y'.Fits d ∧ y'.lines = [l] ++ y.lines := by
  obtain ⟨xs, rest⟩ := y
  cases xs with
  | nil => exact ⟨⟨[], l :: rest⟩, ⟨by simp, List.forall_mem_cons.2 ⟨hl, hy.rest⟩⟩, rfl⟩
  | cons x xs =>
    obtain ⟨hx, hxs⟩ := List.forall_mem_cons.1 hy.stretches
    refine ⟨⟨⟨l :: x.before, x.opener, x.inner, x.closer⟩ :: xs, rest⟩, ⟨?_, hy.rest⟩, rfl⟩
    exact List.forall_mem_cons.2
      ⟨⟨List.forall_mem_cons.2 ⟨hl, hx.before⟩, hx.opener, hx.inner, hx.closer⟩, hxs⟩

/-- A stretch can stand before every layout. -/
theorem exists_layout_stretch {x : Stretch} (hx : x.Fits d) (y : Layout) (hy : y.Fits d) :
    ∃ y' : Layout, y'.Fits d ∧ y'.lines = x.lines ++ y.lines := by
  refine ⟨⟨x :: y.stretches, y.rest⟩, ⟨?_, hy.rest⟩, by simp [Layout.lines]⟩
  exact List.forall_mem_cons.2 ⟨hx, hy.stretches⟩

/-- **All lines are parted.** -/
theorem parted (d : Delimiters) (ls : List (List Char)) : Parted d ls := by
  match ls with
  | [] => exact .inl ⟨⟨[], []⟩, ⟨by simp, by simp⟩, rfl⟩
  | l :: ls =>
    by_cases hl : lineKind d l = .start
    · -- the next marker line decides
      have hinner : ∀ k ∈ ls.takeWhile (lineKind d · = .other), lineKind d k = .other :=
        fun k hk => by simpa using List.mem_takeWhile_imp hk
      have hsplit := List.takeWhile_append_dropWhile (p := (lineKind d · = .other)) (l := ls)
      have hhead := List.head?_dropWhile_not (lineKind d · = .other) ls
      generalize ls.takeWhile (lineKind d · = .other) = inner at hinner hsplit
      generalize ls.dropWhile (lineKind d · = .other) = tail at hsplit hhead
      have hempty : (⟨[], []⟩ : Layout).Fits d := ⟨by simp, by simp⟩
      cases tail with
      | nil =>
        exact .inr ⟨⟨[], []⟩, l, inner, [], ⟨hempty, hl, hinner, by simp⟩, by rw [hsplit]; rfl⟩
      | cons m more =>
        cases hm : lineKind d m with
        | other => simp [hm] at hhead
        | start =>
          exact .inr ⟨⟨[], []⟩, l, inner, m :: more, ⟨hempty, hl, hinner, by simpa using hm⟩,
            by rw [hsplit]; rfl⟩
        | stop =>
          have hshorter : more.length < ls.length + 1 := by
            rw [← hsplit, List.length_append, List.length_cons]
            omega
          have hx : (⟨[], l, inner, m⟩ : Stretch).Fits d := ⟨by simp, hl, hinner, hm⟩
          have hlines : l :: ls = (⟨[], l, inner, m⟩ : Stretch).lines ++ more := by
            simp [← hsplit, Stretch.lines, Stretch.regionLines]
          rw [hlines]
          exact (parted d more).append_left (exists_layout_stretch hx)
    · exact (parted d ls).append_left (exists_layout_cons hl)
termination_by ls.length

/-- The complaint about an unclosed start line, by what follows it. -/
def complaintFor (d : Delimiters) (line : Nat) : (tail : List (List Char)) → Complaint
  | [] => .missing d.endMarker
  | _ :: _ => .another d.startMarker line d.endMarker

/-- An unclosed start line fails the scan. -/
theorem scanLines_unclosed {y : Layout} {opener : List Char} {inner tail : List (List Char)}
    (h : Unclosed d y opener inner tail) (n offset : Nat) :
    scanLines d none n offset (y.lines ++ opener :: (inner ++ tail)) =
      .error ⟨n + y.lines.length,
        complaintFor d (n + y.lines.length + 1 + inner.length) tail⟩ := by
  rw [scanLines_layout_append h.fits, scanLines_start h.opener, scanLines_inner h.inner]
  cases htail : tail with
  | nil => rfl
  | cons l more =>
    have hl : lineKind d l = .start := h.tail l (by simp [htail])
    rw [scanLines_some_start hl]
    rfl

end

/-! ### Scanning, as a whole -/

/-- Scanning gives the regions of a layout of the lines, and nothing else. -/
theorem scanLines_eq_ok {d : Delimiters} {n offset : Nat} {ls : List (List Char)}
    {rs : List Region} :
    scanLines d none n offset ls = .ok rs ↔
      ∃ y : Layout, y.Fits d ∧ ls = y.lines ∧ rs = regionsFrom d offset y.stretches := by
  constructor
  · intro h
    rcases parted d ls with ⟨y, hy, rfl⟩ | ⟨y, opener, inner, tail, hy, rfl⟩
    · rw [scanLines_layout hy] at h
      exact ⟨y, hy, rfl, (Except.ok.inj h).symm⟩
    · rw [scanLines_unclosed hy] at h
      cases h
  · rintro ⟨y, hy, rfl, rfl⟩
    exact scanLines_layout hy n offset

theorem scan_eq_ok {d : Delimiters} {s : String} {rs : List Region} :
    scan d s = .ok rs ↔
      ∃ y : Layout, y.Fits d ∧ Text.lines s.toList = y.lines ∧ rs = regionsFrom d 0 y.stretches :=
  scanLines_eq_ok

end Scaffold.Region
