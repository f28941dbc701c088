import Mathlib.Data.List.Flatten
import Scaffold.Proofs.Directive.Site

/-!
# Taking the lines of directives out

What `strip` leaves of a text are the lines that no directive meets whose lines begin behind those
of the one before that was taken out (`heeded`). A directive that begins on a line that is gone
already is not heeded, and its other lines stay. So the lines of all directives are gone exactly if
none of these has lines further on, but for one that the next directive begins with
(`strip_iff`).
-/

namespace Scaffold

namespace Text

/-- The lines with the offsets where they begin. -/
def placed : (offset : Nat) → List (List Char) → List (Nat × List Char)
  | _, [] => []
  | offset, line :: more => (offset, line) :: placed (offset + width line) more

variable {s : List Char} {offset n : Nat} {ls : List (List Char)} {l : Nat × List Char}

theorem placed_append (offset : Nat) (ls more : List (List Char)) :
    placed offset (ls ++ more) = placed offset ls ++ placed (offset + width ls.flatten) more := by
  induction ls generalizing offset with
  | nil => rfl
  | cons line ls ih => simp [placed, ih, Nat.add_assoc]

theorem map_snd_placed (offset : Nat) (ls : List (List Char)) :
    (placed offset ls).map Prod.snd = ls := by
  induction ls generalizing offset with
  | nil => rfl
  | cons line ls ih => simp [placed, ih]

theorem bounds_of_mem_placed (h : l ∈ placed offset ls) :
    l.2 ∈ ls ∧ offset ≤ l.1 ∧ l.1 + width l.2 ≤ offset + width ls.flatten := by
  induction ls generalizing offset with
  | nil => cases h
  | cons line ls ih =>
    rw [List.flatten_cons, width_append]
    rcases List.mem_cons.1 h with rfl | h
    · exact ⟨List.mem_cons_self, le_rfl, by dsimp only; omega⟩
    · obtain ⟨hmem, hlow, hhigh⟩ := ih h
      exact ⟨List.mem_cons_of_mem line hmem, by omega, by omega⟩

theorem lines_append_of_closed_or_nil {t : List Char} (h : Closed s ∨ t = []) :
    lines (s ++ t) = lines s ++ lines t := by
  rcases h with h | rfl
  · exact lines_append h t
  · simp [lines]

/-- In a part of the text without a line feed no line begins, but for its start. -/
theorem BeginsLine.le_or_lt {u line t : List Char} (h : BeginsLine (u ++ (line ++ t)) n)
    (hn : n < width (u ++ (line ++ t))) (hline : '\n' ∉ line) :
    n ≤ width u ∨ width u + width line < n := by
  obtain ⟨before, after, hs, rfl, hclosed⟩ := h
  refine or_iff_not_imp_left.2 fun hlow => Nat.lt_of_not_le fun hhigh => ?_
  obtain ⟨v, rfl, hv⟩ := exists_append_of_width_le hs (Nat.le_of_not_le hlow)
  rw [width_append] at hlow hhigh
  obtain ⟨w, rfl, -⟩ := exists_append_of_width_le hv.symm (by omega)
  rcases hclosed with hclosed | rfl
  · rcases List.eq_nil_or_concat' v with rfl | ⟨v, c, rfl⟩
    · simp at hlow
    · obtain rfl : c = '\n' := hclosed c (by simp)
      exact hline (by simp)
  · rw [hs, List.append_nil] at hn
    exact absurd hn (lt_irrefl _)

theorem mem_placed_iff : l ∈ placed offset ls ↔
    ∃ above below, ls = above ++ l.2 :: below ∧ l.1 = offset + width above.flatten := by
  induction ls generalizing offset with
  | nil => simp [placed]
  | cons line ls ih =>
    rw [placed, List.mem_cons, ih]
    constructor
    · rintro (rfl | ⟨above, below, rfl, hl⟩)
      · exact ⟨[], ls, rfl, rfl⟩
      · exact ⟨line :: above, below, rfl, by simp [hl, Nat.add_assoc]⟩
    · rintro ⟨_ | ⟨first, above⟩, below, hls, hl⟩
      · obtain ⟨rfl, rfl⟩ := List.cons.inj hls
        exact .inl (Prod.ext hl rfl)
      · obtain ⟨rfl, rfl⟩ := List.cons.inj hls
        exact .inr ⟨above, below, rfl, by simp [hl, Nat.add_assoc]⟩

theorem width_snd_pos (h : l ∈ placed offset (lines s)) : 0 < width l.2 :=
  width_pos_of_mem_lines (bounds_of_mem_placed h).1

/-- The offsets of the lines are where lines begin. -/
theorem exists_mem_placed_iff :
    (∃ l ∈ placed 0 (lines s), l.1 = n) ↔ BeginsLine s n ∧ n < width s := by
  constructor
  · rintro ⟨l, hl, rfl⟩
    obtain ⟨above, below, hlines, hoffset⟩ := mem_placed_iff.1 hl
    have hbegin := beginsLine_of_lines_eq hlines
    rw [hoffset, Nat.zero_add]
    have hpos := width_snd_pos hl
    have hbound := (bounds_of_mem_placed hl).2.2
    rw [flatten_lines] at hbound
    exact ⟨hbegin, by omega⟩
  · rintro ⟨⟨before, after, rfl, rfl, hclosed⟩, hlt⟩
    rw [width_append] at hlt
    have hlines := lines_append_of_closed_or_nil hclosed
    cases hafter : lines after with
    | nil =>
      have := flatten_lines after
      rw [hafter] at this
      subst this
      simp at hlt
    | cons line more =>
      exact ⟨(width before, line),
        mem_placed_iff.2 ⟨lines before, more, by rw [hlines, hafter], by simp⟩, rfl⟩

/-- Between the start of a line and the next one no line begins. -/
theorem stop_le_of_mem_placed (hl : l ∈ placed 0 (lines s)) (hn : BeginsLine s n)
    (hlt : l.1 < n) : l.1 + width l.2 ≤ n := by
  have hbound := (bounds_of_mem_placed hl).2.2
  rw [flatten_lines, Nat.zero_add] at hbound
  by_cases hend : n < width s
  · obtain ⟨above, below, hlines, hoffset⟩ := mem_placed_iff.1 hl
    rw [Nat.zero_add] at hoffset
    have hs : s = above.flatten ++ (l.2 ++ below.flatten) := by
      rw [← flatten_lines s, hlines, List.flatten_append, List.flatten_cons]
    rcases isLine_of_mem_lines (bounds_of_mem_placed hl).1 with ⟨text, htext, hline⟩ | hline
    · rw [hline, List.append_assoc] at hs
      rw [hs] at hn hend
      have hfeed : width ['\n'] = 1 := rfl
      have := (hn.le_or_lt hend htext).resolve_left (by omega)
      rw [hline, width_append]
      omega
    · rw [hs] at hn hend
      have := (hn.le_or_lt hend hline).resolve_left (by omega)
      omega
  · omega

/-- Parts of a list that are not empty make up the same text only if none is missing. -/
theorem eq_of_sublist_of_flatMap {α : Type} {f : α → List Char} {xs ys : List α}
    (h : xs.Sublist ys) (hne : ∀ y ∈ ys, f y ≠ []) (heq : xs.flatMap f = ys.flatMap f) :
    xs = ys := by
  induction h with
  | slnil => rfl
  | @cons xs ys y h _ =>
    have hlength := congrArg List.length heq
    have hle := (h.flatMap f).length_le
    rw [List.flatMap_cons, List.length_append] at hlength
    have := List.length_pos_of_ne_nil (hne y List.mem_cons_self)
    omega
  | cons_cons y _ ih =>
    rw [List.flatMap_cons, List.flatMap_cons] at heq
    exact congrArg (y :: ·)
      (ih (fun z hz => hne z (List.mem_cons_of_mem y hz)) (List.append_cancel_left heq))

end Text

namespace Directive

open Text (width BeginsLine placed)

/-- The lines of a directive meet a line of the text. -/
def meets (d : Directive) (l : Nat × List Char) : Bool :=
  l.1 < d.stop && d.start < l.1 + width l.2

/-- A line that no directive meets. -/
def isFree (ds : List Directive) (l : Nat × List Char) : Bool := ds.all fun d => !d.meets l

/-- The lines of a text that no directive meets, joined. -/
def unoccupied (ds : List Directive) (s : List Char) : List Char :=
  ((placed 0 (Text.lines s)).filter (isFree ds)).flatMap Prod.snd

/-- The directives that are heeded from a place on: their lines do not begin before the place, or
those of the one heeded before end there. -/
def heeded : (cursor : Nat) → List Directive → List Directive
  | _, [] => []
  | cursor, d :: ds => if d.start < cursor then heeded cursor ds else d :: heeded d.stop ds

/-- From a place on, no directive that is passed over leaves a line: it ends before the place, or
the next one begins there. -/
def LeavesNone : (cursor : Nat) → List Directive → Prop
  | _, [] => True
  | cursor, d :: ds =>
    if d.start < cursor then
      (d.stop ≤ cursor ∨ ∃ e ∈ ds.head?, e.start = cursor) ∧ LeavesNone cursor ds
    else LeavesNone d.stop ds

/-- The lines of the directives of a text: each has some, and another one begins its lines on the
last line of one before, or further on. -/
structure InLines (s : List Char) (ds : List Directive) : Prop where
  start : ∀ d ∈ ds, BeginsLine s d.start
  stop : ∀ d ∈ ds, BeginsLine s d.stop
  start_lt : ∀ d ∈ ds, d.start < d.stop
  follows : ds.Pairwise fun d e => ∀ n, BeginsLine s n → n < d.stop → n ≤ e.start

variable {s : List Char} {cursor : Nat} {d : Directive} {ds : List Directive}

theorem InLines.tail (h : InLines s (d :: ds)) : InLines s ds where
  start := fun e he => h.start e (List.mem_cons_of_mem d he)
  stop := fun e he => h.stop e (List.mem_cons_of_mem d he)
  start_lt := fun e he => h.start_lt e (List.mem_cons_of_mem d he)
  follows := h.follows.of_cons

theorem InLines.le_start (h : InLines s (d :: ds)) {e : Directive} (he : e ∈ ds) {n : Nat}
    (hn : BeginsLine s n) (hlt : n < d.stop) : n ≤ e.start :=
  List.rel_of_pairwise_cons h.follows he n hn hlt

theorem InLines.start_le (h : InLines s (d :: ds)) {e : Directive} (he : e ∈ ds) :
    d.start ≤ e.start :=
  h.le_start he (h.start d List.mem_cons_self) (h.start_lt d List.mem_cons_self)

theorem InLines.stop_le (h : InLines s (d :: ds)) {e : Directive} (he : e ∈ ds) :
    d.stop ≤ e.stop := by
  -- a stop before it would begin a line before the start
  refine Nat.le_of_not_lt fun hlt => ?_
  have hstop := h.le_start he (h.stop e (List.mem_cons_of_mem d he)) hlt
  exact absurd (h.start_lt e (List.mem_cons_of_mem d he)) (Nat.not_lt.2 hstop)

/-! ### Lines that are taken out -/

theorem mem_of_mem_heeded {e : Directive} (h : e ∈ heeded cursor ds) : e ∈ ds := by
  induction ds generalizing cursor with
  | nil => cases h
  | cons d ds ih =>
    rw [heeded] at h
    split at h
    · exact List.mem_cons_of_mem d (ih h)
    · rcases List.mem_cons.1 h with rfl | h
      · exact List.mem_cons_self
      · exact List.mem_cons_of_mem d (ih h)

/-- The line that begins at a place is one of the directive's lines. -/
def Spans (d : Directive) (n : Nat) : Prop := d.start ≤ n ∧ n < d.stop

/-- From a place on, every line of a directive is one of a heeded directive's. -/
def Cleared (s : List Char) (cursor : Nat) (ds : List Directive) : Prop :=
  ∀ n, BeginsLine s n → cursor ≤ n → (∃ d ∈ ds, d.Spans n) → ∃ d ∈ heeded cursor ds, d.Spans n

/-- A directive that is passed over leaves the line at the place, unless it has no line from there
on or the next directive begins there. -/
theorem cleared_of_passed (h : InLines s (d :: ds)) (hcursor : BeginsLine s cursor)
    (hpassed : d.start < cursor) : Cleared s cursor (d :: ds) ↔
      (d.stop ≤ cursor ∨ ∃ e ∈ ds.head?, e.start = cursor) ∧ Cleared s cursor ds := by
  rw [Cleared, heeded, if_pos hpassed]
  constructor
  · intro hall
    constructor
    · refine or_iff_not_imp_left.2 fun hend => ?_
      have hlt := Nat.lt_of_not_le hend
      obtain ⟨e, he, hstart, -⟩ :=
        hall cursor hcursor le_rfl ⟨d, List.mem_cons_self, hpassed.le, hlt⟩
      have he := mem_of_mem_heeded he
      cases ds with
      | nil => cases he
      | cons next ds =>
        refine ⟨next, rfl, Nat.le_antisymm ?_ (h.le_start List.mem_cons_self hcursor hlt)⟩
        rcases List.mem_cons.1 he with rfl | he
        · exact hstart
        · exact (h.tail.start_le he).trans hstart
    · rintro n hn hle ⟨e, he, hin⟩
      exact hall n hn hle ⟨e, List.mem_cons_of_mem d he, hin⟩
  · rintro ⟨hnext, hds⟩ n hn hle ⟨e, he, hstart, hstop⟩
    rcases List.mem_cons.1 he with rfl | he
    · -- the next directive takes its place
      rcases hnext with hend | ⟨next, hnext, hbegin⟩
      · omega
      · have hmem := List.mem_of_mem_head? hnext
        have := h.stop_le hmem
        exact hds n hn hle ⟨next, hmem, by omega, by omega⟩
    · exact hds n hn hle ⟨e, he, hstart, hstop⟩

/-- A directive that is heeded takes all lines up to its end. -/
theorem cleared_of_heeded (h : InLines s (d :: ds)) (hheeded : ¬ d.start < cursor) :
    Cleared s cursor (d :: ds) ↔ Cleared s d.stop ds := by
  rw [Cleared, heeded, if_neg hheeded]
  have hd := h.start_lt d List.mem_cons_self
  constructor
  · rintro hall n hn hle ⟨e, he, hin⟩
    obtain ⟨f, hf, hplace⟩ := hall n hn (by omega) ⟨e, List.mem_cons_of_mem d he, hin⟩
    rcases List.mem_cons.1 hf with rfl | hf
    · exact absurd hplace.2 (Nat.not_lt.2 hle)
    · exact ⟨f, hf, hplace⟩
  · rintro hds n hn - ⟨e, he, hstart, hstop⟩
    by_cases hin : n < d.stop
    · have hle : d.start ≤ e.start := by
        rcases List.mem_cons.1 he with rfl | he
        · exact le_rfl
        · exact h.start_le he
      exact ⟨d, List.mem_cons_self, hle.trans hstart, hin⟩
    · rcases List.mem_cons.1 he with rfl | he
      · exact absurd hstop hin
      · obtain ⟨f, hf, hplace⟩ := hds n hn (Nat.le_of_not_lt hin) ⟨e, he, hstart, hstop⟩
        exact ⟨f, List.mem_cons_of_mem d hf, hplace⟩

/-- **No line is left exactly if every line of a directive is one of a heeded directive's.** -/
theorem leavesNone_iff (h : InLines s ds) (hcursor : BeginsLine s cursor) :
    LeavesNone cursor ds ↔ Cleared s cursor ds := by
  induction ds generalizing cursor with
  | nil => simp [LeavesNone, Cleared]
  | cons d ds ih =>
    rw [LeavesNone]
    split
    · rename_i hpassed
      rw [cleared_of_passed h hcursor hpassed, ih h.tail hcursor]
    · rename_i hheeded
      rw [cleared_of_heeded h hheeded, ih h.tail (h.stop d List.mem_cons_self)]

theorem meets_iff {l : Nat × List Char} (hl : l ∈ placed 0 (Text.lines s))
    (hstart : BeginsLine s d.start) : d.meets l = true ↔ d.Spans l.1 := by
  have hpos := Text.width_snd_pos hl
  have hnext := Text.stop_le_of_mem_placed hl hstart
  simp only [meets, Spans, Bool.and_eq_true, decide_eq_true_eq]
  omega

theorem isFree_eq_false_iff {l : Nat × List Char} (hl : l ∈ placed 0 (Text.lines s))
    (hstart : ∀ d ∈ ds, BeginsLine s d.start) :
    isFree ds l = false ↔ ∃ d ∈ ds, d.Spans l.1 := by
  rw [isFree, List.all_eq_false]
  refine exists_congr fun d => and_congr_right fun hd => ?_
  rw [← meets_iff hl (hstart d hd)]
  simp

/-- More lines are free of the heeded directives than of all. -/
theorem sublist_filter_isFree (s : List Char) (ds : List Directive) :
    ((placed 0 (Text.lines s)).filter (isFree ds)).Sublist
      ((placed 0 (Text.lines s)).filter (isFree (heeded 0 ds))) := by
  refine List.monotone_filter_right _ fun l hl => ?_
  rw [isFree, List.all_eq_true] at hl ⊢
  exact fun d hd => hl d (mem_of_mem_heeded hd)

/-- The heeded directives leave the text that all leave only if the same lines are free of them. -/
theorem unoccupied_heeded_eq_iff (s : List Char) (ds : List Directive) :
    unoccupied (heeded 0 ds) s = unoccupied ds s ↔
      ∀ l ∈ placed 0 (Text.lines s), isFree (heeded 0 ds) l = isFree ds l := by
  constructor
  · intro heq l hl
    have hne : ∀ l ∈ (placed 0 (Text.lines s)).filter (isFree (heeded 0 ds)), l.2 ≠ [] := by
      intro l hl hnil
      have hpos := Text.width_snd_pos (List.mem_of_mem_filter hl)
      simp [hnil] at hpos
    have hlists := Text.eq_of_sublist_of_flatMap (sublist_filter_isFree s ds) hne heq.symm
    have hmem : l ∈ (placed 0 (Text.lines s)).filter (isFree (heeded 0 ds)) ↔
        l ∈ (placed 0 (Text.lines s)).filter (isFree ds) := by rw [hlists]
    simpa only [List.mem_filter, hl, true_and, ← Bool.eq_iff_iff] using hmem
  · intro hall
    exact congrArg _ (List.filter_congr hall)

/-- The lines that are free of the heeded directives are those that are free of all, exactly if no
line is left. -/
theorem unoccupied_heeded_iff (h : InLines s ds) :
    unoccupied (heeded 0 ds) s = unoccupied ds s ↔ LeavesNone 0 ds := by
  have hstart : ∀ d ∈ heeded 0 ds, BeginsLine s d.start :=
    fun d hd => h.start d (mem_of_mem_heeded hd)
  have hzero : BeginsLine s 0 := ⟨[], s, rfl, rfl, .inl (by simp [Text.Closed])⟩
  have hfree : ∀ l ∈ placed 0 (Text.lines s), isFree (heeded 0 ds) l = isFree ds l ↔
      ((∃ d ∈ heeded 0 ds, d.Spans l.1) ↔ ∃ d ∈ ds, d.Spans l.1) := fun l hl => by
    rw [← isFree_eq_false_iff hl hstart, ← isFree_eq_false_iff hl h.start]
    cases isFree (heeded 0 ds) l <;> cases isFree ds l <;> simp
  rw [unoccupied_heeded_eq_iff, leavesNone_iff h hzero]
  constructor
  · rintro hall n hn - ⟨d, hd, hin⟩
    obtain ⟨l, hl, rfl⟩ := Text.exists_mem_placed_iff.2
      ⟨hn, hin.2.trans_le (h.stop d hd).isPlace.le_width⟩
    exact ((hfree l hl).1 (hall l hl)).2 ⟨d, hd, hin⟩
  · intro hall l hl
    refine (hfree l hl).2 ⟨?_, ?_⟩
    · rintro ⟨d, hd, hin⟩
      exact ⟨d, mem_of_mem_heeded hd, hin⟩
    · have hbegin := (Text.exists_mem_placed_iff.1 ⟨l, hl, rfl⟩).1
      exact hall l.1 hbegin (Nat.zero_le _)

/-! ### What taking out leaves -/

theorem le_start_of_mem_heeded (h : InLines s ds) {e : Directive} (he : e ∈ heeded cursor ds) :
    cursor ≤ e.start := by
  induction ds generalizing cursor with
  | nil => cases he
  | cons d ds ih =>
    rw [heeded] at he
    split at he
    · exact ih h.tail he
    · rename_i hheeded
      have hd := h.start_lt d List.mem_cons_self
      rcases List.mem_cons.1 he with rfl | he
      · omega
      · have := ih h.tail he
        omega

/-- A place that begins a line parts a text between its lines, and another one further on parts what
is behind it. -/
theorem exists_lines_append {u t : List Char} (hu : Text.Closed u ∨ t = []) {n : Nat}
    (hn : BeginsLine (u ++ t) n) (hle : width u ≤ n) :
    ∃ v w, t = v ++ w ∧ n = width (u ++ v) ∧ (Text.Closed (u ++ v) ∨ w = []) ∧
      Text.lines t = Text.lines v ++ Text.lines w := by
  obtain ⟨before, w, hs, rfl, hclosed⟩ := hn
  obtain ⟨v, rfl, rfl⟩ := Text.exists_append_of_width_le hs hle
  exact ⟨v, w, rfl, rfl, hclosed, Text.lines_append_of_closed_or_nil
    (hclosed.imp_left Text.Closed.append_right)⟩

/-- The lines of a directive that is heeded are taken out, and those before it stay. -/
theorem filter_isFree_cons (offset : Nat) (ls : List (List Char)) {lines : List (List Char)}
    (more : List (List Char)) (hstart : offset + width ls.flatten = d.start)
    (hstop : d.start + width lines.flatten = d.stop) (hlines : ∀ line ∈ lines, 0 < width line)
    (hds : ∀ e ∈ ds, d.start ≤ e.start) :
    (placed offset (ls ++ (lines ++ more))).filter (isFree (d :: ds)) =
      placed offset ls ++ (placed d.stop more).filter (isFree ds) := by
  rw [Text.placed_append, Text.placed_append, hstart, hstop, List.filter_append,
    List.filter_append]
  have hbefore : (placed offset ls).filter (isFree (d :: ds)) = placed offset ls := by
    refine List.filter_eq_self.2 fun l hl => List.all_eq_true.2 fun e he => ?_
    have hbound := (Text.bounds_of_mem_placed hl).2.2
    have hle : d.start ≤ e.start := by
      rcases List.mem_cons.1 he with rfl | he
      · exact le_rfl
      · exact hds e he
    simp [meets]
    omega
  have hin : (placed d.start lines).filter (isFree (d :: ds)) = [] := by
    refine List.filter_eq_nil_iff.2 fun l hl hfree => ?_
    obtain ⟨hmem, hlow, hhigh⟩ := Text.bounds_of_mem_placed hl
    have hpos := hlines l.2 hmem
    have hd := List.all_eq_true.1 hfree d List.mem_cons_self
    simp [meets] at hd
    omega
  have hbehind : (placed d.stop more).filter (isFree (d :: ds)) =
      (placed d.stop more).filter (isFree ds) := by
    refine List.filter_congr fun l hl => ?_
    have hlow := (Text.bounds_of_mem_placed hl).2.1
    have hd : d.meets l = false := by
      simp [meets]
      omega
    rw [isFree, List.all_cons, hd, Bool.not_false, Bool.true_and, isFree]
  rw [hbefore, hin, hbehind, List.nil_append]

/-- From a place between lines on, the lines that no heeded directive meets are left. -/
theorem stripFrom_eq {u t : List Char} (h : InLines (u ++ t) ds) (hu : Text.Closed u ∨ t = []) :
    stripFrom (u ++ t) (width u) ds =
      ((placed (width u) (Text.lines t)).filter (isFree (heeded (width u) ds))).flatMap Prod.snd := by
  induction ds generalizing u t with
  | nil =>
    have hall : (placed (width u) (Text.lines t)).filter (isFree []) =
        placed (width u) (Text.lines t) := List.filter_eq_self.2 fun _ _ => rfl
    rw [heeded, hall, List.flatMap, Text.map_snd_placed, Text.flatten_lines, stripFrom,
      Text.dropBytes_width]
  | cons d ds ih =>
    rw [stripFrom, heeded]
    split
    · exact ih h.tail hu
    · rename_i hheeded
      have hlt := h.start_lt d List.mem_cons_self
      obtain ⟨v, w, rfl, hstart, hv, hlines⟩ :=
        exists_lines_append hu (h.start d List.mem_cons_self) (Nat.le_of_not_lt hheeded)
      have hstop := h.stop d List.mem_cons_self
      rw [← List.append_assoc] at hstop
      obtain ⟨x, z, rfl, hstop, hx, hmore⟩ := exists_lines_append hv hstop (by omega)
      have hrest : InLines (u ++ v ++ x ++ z) ds := by simpa using h.tail
      have hslice : Text.slice (width u) d.start (u ++ (v ++ (x ++ z))) = v := by
        rw [hstart, Text.slice, Text.dropBytes_width, Text.width_append, Nat.add_sub_cancel_left,
          Text.takeBytes_width]
      have hbefore : width u + width (Text.lines v).flatten = d.start := by
        rw [Text.flatten_lines, hstart, Text.width_append]
      have hin : d.start + width (Text.lines x).flatten = d.stop := by
        rw [Text.flatten_lines, hstart, hstop, Text.width_append (u ++ v)]
      have hfilter := filter_isFree_cons (width u) (Text.lines v) (Text.lines z) hbefore hin
        (fun line hline => Text.width_pos_of_mem_lines hline)
        (fun e he => hlt.le.trans (le_start_of_mem_heeded h.tail he))
      rw [hslice, hlines, hmore, hfilter, List.flatMap_append, List.flatMap, Text.map_snd_placed,
        Text.flatten_lines, hstop]
      have hih := ih hrest hx
      simp only [List.append_assoc] at hih ⊢
      rw [hih]

/-! ### The lines of directives -/

variable {marker : String} {frozen : List (Nat × Nat)} {x y : Site} {e : Directive}

theorem Site.Holds.beginsLine_start (h : x.Holds marker frozen s d) : BeginsLine s d.start := by
  obtain ⟨above, line, hbefore, habove, -, hstart⟩ := h.start
  exact ⟨above, line ++ (marker.toList ++ x.blanks ++ x.object ++ x.after),
    by rw [h.text, hbefore, List.append_assoc], hstart.symm, .inl habove⟩

theorem Site.Holds.beginsLine_stop (h : x.Holds marker frozen s d) : BeginsLine s d.stop := by
  obtain ⟨line, below, hafter, hline, hstop⟩ := h.stop
  refine ⟨x.before ++ (marker.toList ++ x.blanks ++ x.object) ++ line, below,
    by rw [h.text, hafter]; simp, ?_, ?_⟩
  · rw [Text.width_append, Text.width_append x.before]
    exact hstop.symm
  · rcases hline with ⟨text, -, rfl⟩ | ⟨-, rfl⟩
    · rw [← List.append_assoc]
      exact .inl (Text.closed_append_lineFeed _)
    · exact .inr rfl

theorem Site.Holds.start_lt_stop (h : x.Holds marker frozen s d) : d.start < d.stop := by
  obtain ⟨above, line, hbefore, -, -, hstart⟩ := h.start
  obtain ⟨line', below, -, -, hstop⟩ := h.stop
  have hoffset : x.offset = width above + width line := by
    rw [Site.offset, hbefore, Text.width_append]
  have := h.offset_lt_stop
  omega

/-- No line begins between the start of a directive's lines and the end of the lines of one before,
since the one is on the line of its marker and the other on that of its object. -/
theorem Site.Holds.le_start (hx : x.Holds marker frozen s d) (hy : y.Holds marker frozen s e)
    (hapart : x.stop marker ≤ y.offset) {n : Nat} (hn : BeginsLine s n) (hlt : n < d.stop) :
    n ≤ e.start := by
  have hend : n < width s := hlt.trans_le hx.beginsLine_stop.isPlace.le_width
  refine Nat.le_of_not_lt fun hstart => ?_
  -- the line would begin behind the second marker
  have hbehind : y.offset < n := by
    obtain ⟨above, line, hbefore, -, hline, heq⟩ := hy.start
    have hs : s = above ++ (line ++ (marker.toList ++ y.blanks ++ y.object ++ y.after)) := by
      conv_lhs => rw [hy.text, hbefore, List.append_assoc]
    rw [hs] at hn hend
    have := (hn.le_or_lt hend hline).resolve_left (by omega)
    rwa [Site.offset, hbefore, Text.width_append]
  -- and before the line feed behind the first object
  obtain ⟨line, below, hafter, hline, hstop⟩ := hx.stop
  have hs : s = x.before ++ (marker.toList ++ x.blanks ++ x.object) ++ (line ++ below) := by
    conv_lhs => rw [hx.text, hafter, List.append_assoc]
    simp
  have hwidth : width (x.before ++ (marker.toList ++ x.blanks ++ x.object)) = x.stop marker :=
    Text.width_append _ _
  rcases hline with ⟨text, htext, rfl⟩ | ⟨hline, -⟩
  · rw [List.append_assoc text] at hs
    rw [hs] at hn hend
    have hfeed : width ['\n'] = 1 := rfl
    have := (hn.le_or_lt hend htext).resolve_left (by omega)
    rw [Text.width_append] at hstop
    omega
  · rw [hs] at hn hend
    have := (hn.le_or_lt hend hline).resolve_left (by omega)
    omega

theorem inLines_of_scan {s : String} (h : scan marker frozen s = .ok ds) :
    InLines s.toList ds := by
  by_cases hm : marker = ""
  · subst hm
    obtain rfl : [] = ds := Except.ok.inj h
    exact ⟨by simp, by simp, by simp, .nil⟩
  · obtain ⟨xs, hxs⟩ := exists_located_of_scan hm h
    have hholds := hxs.holds
    rw [List.nil_append] at hholds
    have hmem := (exists_holds_of_mem hholds).2
    refine ⟨fun d hd => ?_, fun d hd => ?_, fun d hd => ?_, ?_⟩
    · obtain ⟨x, -, hx⟩ := hmem d hd
      exact hx.beginsLine_start
    · obtain ⟨x, -, hx⟩ := hmem d hd
      exact hx.beginsLine_stop
    · obtain ⟨x, -, hx⟩ := hmem d hd
      exact hx.start_lt_stop
    · exact pairwise_of_holds hholds hxs.apart fun x y d e hx hy hle n => hx.le_start hy hle

theorem toList_strip {s : String} (h : scan marker frozen s = .ok ds) :
    (strip s ds).toList = unoccupied (heeded 0 ds) s.toList := by
  rw [strip, String.toList_ofList]
  exact stripFrom_eq (u := []) (inLines_of_scan h) (.inl (by simp [Text.Closed]))

/-- Where each directive has lines of its own, or ends with those of the ones before that it begins
on, no line is left. -/
theorem leavesNone_of_pairwise
    (h : ds.Pairwise fun d e => d.stop ≤ e.start ∨ e.stop ≤ d.stop)
    (hcursor : ∀ d ∈ ds, cursor ≤ d.start ∨ d.stop ≤ cursor) : LeavesNone cursor ds := by
  induction ds generalizing cursor with
  | nil => trivial
  | cons d ds ih =>
    obtain ⟨hfirst, hrest⟩ := List.pairwise_cons.1 h
    obtain ⟨hd, hds⟩ := List.forall_mem_cons.1 hcursor
    rw [LeavesNone]
    split
    · exact ⟨.inl (by omega), ih hrest hds⟩
    · exact ih hrest hfirst

/-- Where each directive has lines of its own, or ends with those of the ones before, all lines of
directives are taken out. -/
theorem strip_of_pairwise {s : String} (h : scan marker frozen s = .ok ds)
    (hapart : ds.Pairwise fun d e => d.stop ≤ e.start ∨ e.stop ≤ d.stop) :
    (strip s ds).toList = unoccupied ds s.toList := by
  rw [toList_strip h]
  exact (unoccupied_heeded_iff (inLines_of_scan h)).2
    (leavesNone_of_pairwise hapart fun _ _ => .inl (Nat.zero_le _))

/-- **Taking out leaves the lines that no heeded directive meets**, and so those that no directive
meets exactly if no directive that is passed over leaves a line: it ends on the lines of the one
heeded before, or the next directive begins behind these. -/
theorem strip_iff {s : String} (h : scan marker frozen s = .ok ds) :
    (strip s ds).toList = unoccupied (heeded 0 ds) s.toList ∧
      ((strip s ds).toList = unoccupied ds s.toList ↔ LeavesNone 0 ds) := by
  rw [toList_strip h]
  exact ⟨rfl, unoccupied_heeded_iff (inLines_of_scan h)⟩

/-- Two directives on the first line, the second of which goes on on the next one. -/
theorem strip_iff_of_shared_line :
    let text := "@o \x7b\"a\":1\x7d @o \x7b\n\"b\":2\x7d\nx\n"
    ∃ ds, scan "@o" [] text = .ok ds ∧
      ds.map (fun d => (d.start, d.stop)) = [(0, 16), (0, 23)] ∧
      unoccupied ds text.toList = "x\n".toList ∧ strip text ds = "\"b\":2\x7d\nx\n" ∧
      ¬ LeavesNone 0 ds := by
  intro text
  have hread : (scan "@o" [] text).toOption.map
      (fun ds => (ds.map (fun d => (d.start, d.stop)), unoccupied ds text.toList, strip text ds)) =
        some ([(0, 16), (0, 23)], "x\n".toList, "\"b\":2\x7d\nx\n") := by
    decide +kernel
  obtain ⟨ds, hds, heq⟩ := Option.map_eq_some_iff.1 hread
  obtain ⟨hplaces, heq⟩ := Prod.mk.inj heq
  obtain ⟨hfree, hstrip⟩ := Prod.mk.inj heq
  have hscan := Outcome.toOption_eq_some.1 hds
  refine ⟨ds, hscan, hplaces, hfree, hstrip, fun hnone => ?_⟩
  have hequal := (strip_iff hscan).2.2 hnone
  rw [hfree, hstrip] at hequal
  exact absurd hequal (by decide)

end Directive
end Scaffold
