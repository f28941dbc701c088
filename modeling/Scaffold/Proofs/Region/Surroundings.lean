import Scaffold.Proofs.Region.Layout

/-!
# Regions in their surroundings

What stands around one region of a text (`Surroundings`): the text is the region put between the
lines above and below it (`Surroundings.fill`), and another region can be put there. Where the
region is and what it says is the same on stretches and on the text (`entry_region`,
`filter_matchesUnit_eq_singleton`).
-/

namespace Scaffold.Region

/-! ### What regions say -/

/-- What a region says. -/
structure Entry where
  /-- The identity in the header. -/
  identity? : Option Identity
  content : List Char

/-- The entry comes from the unit. -/
def Entry.matchesUnit (e : Entry) (u : UnitName) : Bool := e.identity?.any (·.unit == u)

/-- What a region of a text says. -/
def entry (s : List Char) (r : Region) : Entry := ⟨r.identity?, r.content s⟩

/-- What the region of a stretch says. -/
def Stretch.entry (d : Delimiters) (x : Stretch) : Entry := ⟨x.identity? d, x.body.flatten⟩

/-- The region of the stretch comes from the unit. -/
def Stretch.matchesUnit (d : Delimiters) (u : UnitName) (x : Stretch) : Bool :=
  (x.entry d).matchesUnit u

/-- The regions of a text say these things, in this order. -/
def Shows (d : Delimiters) (s : String) (es : List Entry) : Prop :=
  ∃ rs, scan d s = .ok rs ∧ rs.map (entry s.toList) = es

@[simp] theorem matchesUnit_region (d : Delimiters) (offset : Nat) (x : Stretch) (u : UnitName) :
    (x.region d offset).matchesUnit u = x.matchesUnit d u := rfl

@[simp] theorem matchesUnit_entry (d : Delimiters) (x : Stretch) (u : UnitName) :
    (x.entry d).matchesUnit u = x.matchesUnit d u := rfl

theorem matchesUnit_of_entry_eq {d : Delimiters} {x : Stretch} {i : Identity} {c : List Char}
    (h : x.entry d = ⟨some i, c⟩) : x.matchesUnit d i.unit = true := by
  rw [Stretch.matchesUnit, h]
  exact beq_self_eq_true i.unit

theorem forall_entry_matchesUnit {d : Delimiters} {u : UnitName} {xs : List Stretch} :
    (∀ e ∈ xs.map (Stretch.entry d), e.matchesUnit u = false) ↔
      ∀ x ∈ xs, x.matchesUnit d u = false := List.forall_mem_map

theorem slice_append (s m t : List Char) :
    Text.slice (Text.width s) (Text.width s + Text.width m) (s ++ m ++ t) = m := by
  rw [Text.slice, List.append_assoc, Text.dropBytes_width, Nat.add_sub_cancel_left,
    Text.takeBytes_width]

/-- A region says in the text what it says in its stretch. -/
theorem entry_region (d : Delimiters) (x : Stretch) (s t : List Char) :
    entry (s ++ x.lines.flatten ++ t) (x.region d (Text.width s)) = x.entry d := by
  have hinner : x.inner.flatten = x.head.flatten ++ x.body.flatten := by
    rw [← List.flatten_append, x.head_append_body]
  have hs : s ++ x.lines.flatten ++ t =
      (s ++ x.before.flatten ++ x.opener ++ x.head.flatten) ++ x.body.flatten ++
        (x.closer ++ t) := by
    simp [Stretch.lines, Stretch.regionLines, hinner]
  have hw : Text.width (s ++ x.before.flatten ++ x.opener ++ x.head.flatten) =
      (x.region d (Text.width s)).contentStart := by
    simp [Stretch.region, Nat.add_assoc]
  have hstop : (x.region d (Text.width s)).contentStop =
      (x.region d (Text.width s)).contentStart + Text.width x.body.flatten := by
    simp [Stretch.region, hinner, Nat.add_assoc]
  rw [entry, Region.content, hstop, ← hw, hs, slice_append]
  rfl

theorem map_entry_regionsFrom (d : Delimiters) (xs : List Stretch) (s t : List Char) :
    (regionsFrom d (Text.width s) xs).map (entry (s ++ (stretchLines xs).flatten ++ t)) =
      xs.map (Stretch.entry d) := by
  induction xs generalizing s with
  | nil => rfl
  | cons x xs ih =>
    have hhead := entry_region d x s ((stretchLines xs).flatten ++ t)
    have htail := ih (s ++ x.lines.flatten)
    simp only [Text.width_append, List.append_assoc] at hhead htail
    simp only [regionsFrom, List.map_cons, stretchLines_cons, List.flatten_append,
      List.append_assoc]
    rw [hhead, htail]

/-- A region that stands behind stretches says in the text what it says in its stretch. -/
theorem entry_of_lines_eq (d : Delimiters) {s : List Char} {xs : List Stretch} {x : Stretch}
    {more : List (List Char)} (h : Text.lines s = stretchLines xs ++ (x.lines ++ more)) :
    entry s (x.region d (Text.width (stretchLines xs).flatten)) = x.entry d := by
  have hs : s = (stretchLines xs).flatten ++ x.lines.flatten ++ more.flatten := by
    rw [← Text.flatten_lines s, h]
    simp
  rw [hs]
  exact entry_region d x (stretchLines xs).flatten more.flatten

/-- The regions of a text say what its stretches say. -/
theorem map_entry_layout (d : Delimiters) {y : Layout} {s : List Char}
    (h : Text.lines s = y.lines) :
    (regionsFrom d 0 y.stretches).map (entry s) = y.stretches.map (Stretch.entry d) := by
  have := map_entry_regionsFrom d y.stretches [] y.rest.flatten
  rwa [List.nil_append, ← List.flatten_append, ← Layout.lines, ← h, Text.flatten_lines] at this

theorem shows_iff {d : Delimiters} {s : String} {es : List Entry} :
    Shows d s es ↔
      ∃ y : Layout, y.Fits d ∧ Text.lines s.toList = y.lines ∧
        es = y.stretches.map (Stretch.entry d) := by
  constructor
  · rintro ⟨rs, hrs, rfl⟩
    obtain ⟨y, hy, hs, rfl⟩ := scan_eq_ok.1 hrs
    exact ⟨y, hy, hs, map_entry_layout d hs⟩
  · rintro ⟨y, hy, hs, rfl⟩
    exact ⟨_, scan_eq_ok.2 ⟨y, hy, hs, rfl⟩, map_entry_layout d hs⟩

theorem Shows.unique {d : Delimiters} {s : String} {es es' : List Entry} (h : Shows d s es)
    (h' : Shows d s es') : es = es' := by
  obtain ⟨rs, hrs, rfl⟩ := h
  obtain ⟨rs', hrs', rfl⟩ := h'
  rw [Except.ok.inj (hrs.symm.trans hrs')]

/-! ### Which regions come from a unit -/

theorem regionsFrom_append (d : Delimiters) (offset : Nat) (xs ys : List Stretch) :
    regionsFrom d offset (xs ++ ys) =
      regionsFrom d offset xs ++
        regionsFrom d (offset + Text.width (stretchLines xs).flatten) ys := by
  induction xs generalizing offset with
  | nil => simp [regionsFrom]
  | cons x xs ih => simp [regionsFrom, ih, Nat.add_assoc]

theorem filter_matchesUnit_eq_nil {d : Delimiters} {u : UnitName} {offset : Nat}
    {xs : List Stretch} :
    (regionsFrom d offset xs).filter (·.matchesUnit u) = [] ↔
      ∀ x ∈ xs, x.matchesUnit d u = false := by
  induction xs generalizing offset with
  | nil => simp [regionsFrom]
  | cons x xs ih =>
    cases hx : x.matchesUnit d u <;> simp [regionsFrom, hx, ih]

/-- One region comes from a unit where one stretch does. -/
theorem filter_matchesUnit_eq_singleton {d : Delimiters} {u : UnitName} {offset : Nat}
    {xs : List Stretch} {r : Region} :
    (regionsFrom d offset xs).filter (·.matchesUnit u) = [r] ↔
      ∃ before x after, xs = before ++ x :: after ∧ x.matchesUnit d u = true ∧
        (∀ z ∈ before ++ after, z.matchesUnit d u = false) ∧
        r = x.region d (offset + Text.width (stretchLines before).flatten) := by
  constructor
  · intro h
    induction xs generalizing offset with
    | nil => simp [regionsFrom] at h
    | cons x xs ih =>
      cases hx : x.matchesUnit d u with
      | true =>
        simp only [regionsFrom, List.filter_cons, matchesUnit_region, hx, if_true,
          List.cons.injEq] at h
        obtain ⟨rfl, hxs⟩ := h
        exact ⟨[], x, xs, rfl, hx, filter_matchesUnit_eq_nil.1 hxs, by simp⟩
      | false =>
        simp only [regionsFrom, List.filter_cons, matchesUnit_region, hx, Bool.false_eq_true,
          if_false] at h
        obtain ⟨before, z, after, rfl, hz, hno, rfl⟩ := ih h
        exact ⟨x :: before, z, after, rfl, hz, List.forall_mem_cons.2 ⟨hx, hno⟩,
          by simp [Nat.add_assoc]⟩
  · rintro ⟨before, x, after, rfl, hx, hno, rfl⟩
    obtain ⟨hbefore, hafter⟩ := List.forall_mem_append.1 hno
    rw [regionsFrom_append, List.filter_append, filter_matchesUnit_eq_nil.2 hbefore,
      regionsFrom, List.filter_cons, matchesUnit_region, hx, if_pos rfl,
      filter_matchesUnit_eq_nil.2 hafter]
    rfl

/-! ### Surroundings -/

/-- What stands around one region of a text. -/
structure Surroundings where
  earlier : List Stretch
  /-- The lines between the earlier regions and this one. -/
  before : List (List Char)
  later : List Stretch
  /-- The lines behind the last region. -/
  rest : List (List Char)

namespace Surroundings

/-- The lines above the region. -/
def above (z : Surroundings) : List (List Char) := stretchLines z.earlier ++ z.before

/-- The lines below the region. -/
def below (z : Surroundings) : List (List Char) := stretchLines z.later ++ z.rest

/-- The text with something put where the region stands. -/
def fill (z : Surroundings) (m : List Char) : List Char :=
  z.above.flatten ++ m ++ z.below.flatten

/-- The layout of the text with the region of a stretch put there. -/
def layout (z : Surroundings) (x : Stretch) : Layout := ⟨z.earlier ++ x :: z.later, z.rest⟩

/-- What stands between the regions of the text, the one that is put there among them. -/
def gaps (z : Surroundings) : List (List Char) :=
  z.earlier.map (·.before.flatten) ++
    z.before.flatten :: (z.later.map (·.before.flatten) ++ [z.rest.flatten])

theorem gaps_layout {z : Surroundings} {x : Stretch} (h : x.before = z.before) :
    (z.layout x).gaps = z.gaps := by
  simp [layout, gaps, Layout.gaps, h]

/-- What the regions of the text say if the one that is put there says `e`. -/
def entries (d : Delimiters) (z : Surroundings) (e : Entry) : List Entry :=
  z.earlier.map (Stretch.entry d) ++ e :: z.later.map (Stretch.entry d)

/-- The region of a stretch that is put there. -/
def region (d : Delimiters) (z : Surroundings) (x : Stretch) : Region :=
  x.region d (Text.width (stretchLines z.earlier).flatten)

/-- The lines around are lines of a text with a region between them. -/
structure Fits (d : Delimiters) (z : Surroundings) : Prop where
  earlier : ∀ x ∈ z.earlier, x.Fits d
  before : ∀ l ∈ z.before, lineKind d l ≠ .start
  later : ∀ x ∈ z.later, x.Fits d
  rest : ∀ l ∈ z.rest, lineKind d l ≠ .start
  full : ∀ l ∈ z.above, Text.IsFullLine l
  lines_below : Text.lines z.below.flatten = z.below

/-- No region around comes from the unit. -/
def Foreign (d : Delimiters) (u : UnitName) (z : Surroundings) : Prop :=
  ∀ x ∈ z.earlier ++ z.later, x.matchesUnit d u = false

/-- The region of a stretch can stand there: its lines are lines in the text, and the lines below
stay as they are. -/
structure Encloses (d : Delimiters) (z : Surroundings) (x : Stretch) : Prop where
  around : z.Fits d
  stretch : x.Fits d
  before : x.before = z.before
  lines : Text.lines x.regionLines.flatten = x.regionLines
  closed : Text.Closed x.regionLines.flatten ∨ z.below = []

variable {d : Delimiters} {z : Surroundings} {x : Stretch}

/-- Lines that are put into the surroundings stand between the lines above and below, if they
leave the lines below as they are. -/
theorem lines_fill (hz : z.Fits d) {m : List Char} (hm : Text.Closed m ∨ z.below = []) :
    Text.lines (z.fill m) = z.above ++ (Text.lines m ++ z.below) := by
  rw [fill, List.append_assoc, Text.lines_flatten_append hz.full]
  rcases hm with hm | hm
  · rw [Text.lines_append hm, hz.lines_below]
  · simp [hm]

theorem start_region (d : Delimiters) (hx : x.before = z.before) :
    (z.region d x).start = Text.width z.above.flatten := by
  simp [region, Stretch.region, above, hx]

theorem stop_region (d : Delimiters) (hx : x.before = z.before) :
    (z.region d x).stop = Text.width z.above.flatten + Text.width x.regionLines.flatten := by
  simp [region, Stretch.region, Stretch.regionLines, above, hx]
  omega

theorem Encloses.fits_layout (h : z.Encloses d x) : (z.layout x).Fits d where
  stretches := List.forall_mem_append.2
    ⟨h.around.earlier, List.forall_mem_cons.2 ⟨h.stretch, h.around.later⟩⟩
  rest := h.around.rest

/-- A text with a region put into the surroundings has the lines of a layout. -/
theorem Encloses.lines_layout (h : z.Encloses d x) {t : String}
    (ht : t.toList = z.fill x.regionLines.flatten) :
    Text.lines t.toList = (z.layout x).lines := by
  rw [ht, lines_fill h.around h.closed, h.lines]
  simp [layout, Layout.lines, Stretch.lines, above, below, h.before]

/-- Its regions are those around and the one that was put there. -/
theorem Encloses.shows (h : z.Encloses d x) {t : String}
    (ht : t.toList = z.fill x.regionLines.flatten) : Shows d t (z.entries d (x.entry d)) := by
  refine shows_iff.2 ⟨z.layout x, h.fits_layout, h.lines_layout ht, ?_⟩
  rw [layout, List.map_append]
  rfl

/-- If no region around comes from the unit, the one that was put there is the only one that
does. -/
theorem Encloses.exists_scan (h : z.Encloses d x) {u : UnitName} (hf : z.Foreign d u)
    (hm : x.matchesUnit d u = true) {t : String} (ht : t.toList = z.fill x.regionLines.flatten) :
    ∃ rs, scan d t = .ok rs ∧ rs.filter (·.matchesUnit u) = [z.region d x] := by
  refine ⟨_, scan_eq_ok.2 ⟨z.layout x, h.fits_layout, h.lines_layout ht, rfl⟩, ?_⟩
  refine filter_matchesUnit_eq_singleton.2 ⟨z.earlier, x, z.later, rfl, hm, hf, ?_⟩
  rw [Nat.zero_add]
  rfl

/-- The surroundings of a stretch in the layout of a text. -/
theorem encloses_of_layout {y : Layout} (hy : y.Fits d) {s : List Char}
    (hs : Text.lines s = y.lines) {before after : List Stretch}
    (hx : y.stretches = before ++ x :: after) :
    (⟨before, x.before, after, y.rest⟩ : Surroundings).Encloses d x ∧
      s = (⟨before, x.before, after, y.rest⟩ : Surroundings).fill x.regionLines.flatten := by
  have hfits := hy.stretches
  rw [hx] at hfits
  obtain ⟨hbefore, hfits⟩ := List.forall_mem_append.1 hfits
  obtain ⟨hxfits, hafter⟩ := List.forall_mem_cons.1 hfits
  have hlines : Text.lines s = (stretchLines before ++ x.before) ++
      (x.regionLines ++ (stretchLines after ++ y.rest)) := by
    rw [hs, Layout.lines, hx]
    simp [Stretch.lines]
  have hfull := (Text.lines_eq_append hlines).2 (by simp [Stretch.regionLines])
  have hregion := Text.lines_flatten_of_lines_eq hlines
  rw [← List.append_assoc] at hlines
  obtain ⟨hbelow, hclosed⟩ := Text.lines_eq_append hlines
  refine ⟨⟨⟨hbefore, hxfits.before, hafter, hy.rest, hfull, hbelow⟩, hxfits, rfl, hregion, ?_⟩, ?_⟩
  · by_cases hb : stretchLines after ++ y.rest = []
    · exact Or.inr hb
    · obtain ⟨t, -, ht⟩ := hclosed hb x.closer (by simp [Stretch.regionLines])
      have hl : x.regionLines.flatten = x.opener ++ x.inner.flatten ++ t ++ ['\n'] := by
        simp [Stretch.regionLines, ht]
      exact Or.inl (hl ▸ Text.closed_append_lineFeed _)
  · rw [← Text.flatten_lines s, hlines]
    simp [fill, above, below]

/-- The only region of a text that comes from a unit stands in surroundings without such
regions. -/
theorem exists_encloses {s : String} {rs : List Region} (hs : scan d s = .ok rs) {u : UnitName}
    {r : Region} (hf : rs.filter (·.matchesUnit u) = [r]) :
    ∃ (z : Surroundings) (x : Stretch), z.Encloses d x ∧ z.Foreign d u ∧
      x.matchesUnit d u = true ∧ s.toList = z.fill x.regionLines.flatten ∧ r = z.region d x := by
  obtain ⟨y, hy, hlines, rfl⟩ := scan_eq_ok.1 hs
  obtain ⟨earlier, x, later, hx, hmatch, hforeign, rfl⟩ := filter_matchesUnit_eq_singleton.1 hf
  obtain ⟨hencloses, hfill⟩ := encloses_of_layout hy hlines hx
  refine ⟨_, x, hencloses, hforeign, hmatch, hfill, ?_⟩
  rw [Nat.zero_add]
  rfl

end Surroundings

end Scaffold.Region
