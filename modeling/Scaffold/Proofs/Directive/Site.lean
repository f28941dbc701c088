import Mathlib.Data.List.Infix
import Scaffold.Proofs.Directive.Cursor

/-!
# Where directives stand

Every directive of a scan stands at a site: the marker, blanks and an object in the text
(`Site.Holds`). The sites come one after another, and an object behind a marker is passed over only
where it is frozen or the marker stands in an object that was read before (`scan_sites`). The last
part needs a marker that does not overlap itself: behind a marker the scan goes on at its end, so
one that begins inside it is not seen.
-/

namespace Scaffold.Text

/-- A text that does not overlap itself: no start of it is an end of it, but for the empty text and
the whole one. -/
def Unbordered (m : List Char) : Prop := ∀ t, t <+: m → t <:+ m → t = [] ∨ t = m

instance (m : List Char) : Decidable (Unbordered m) :=
  decidable_of_iff (∀ t ∈ m.inits, t <:+ m → t = [] ∨ t = m) (by simp [Unbordered])

/-- Two occurrences of a text that does not overlap itself are the same, or one is behind the
other. -/
theorem Unbordered.eq_nil_or_append {m v after after' : List Char} (hu : Unbordered m)
    (h : m ++ after = v ++ (m ++ after')) :
    v = [] ∨ ∃ w, v = m ++ w ∧ after = w ++ (m ++ after') := by
  rcases List.append_eq_append_iff.1 h with ⟨w, hv, hafter⟩ | ⟨w, hm, hw⟩
  · exact .inr ⟨w, hv, hafter⟩
  · have hsuffix : w <:+ m := ⟨v, hm.symm⟩
    have hprefix : w <+: m :=
      List.prefix_of_prefix_length_le (hw ▸ List.prefix_append w after) (List.prefix_append m after')
        hsuffix.length_le
    rcases hu w hprefix hsuffix with rfl | rfl
    · exact .inr ⟨[], by simpa using hm.symm, by simpa using hw.symm⟩
    · exact .inl (by simpa using hm)

end Scaffold.Text

namespace Scaffold.Directive

open Text (width Braced Closed IsFullLine Unbordered)

/-! ### Sites -/

/-- Where a directive stands in a text: what is before its marker, the blanks behind the marker, the
object, and what follows. -/
structure Site where
  before : List Char
  blanks : List Char
  object : List Char
  after : List Char

/-- Where the marker begins. -/
def Site.offset (x : Site) : Nat := width x.before

/-- Where the object ends. -/
def Site.stop (marker : String) (x : Site) : Nat :=
  x.offset + width (marker.toList ++ x.blanks ++ x.object)

/-- A directive of a text stands at a site. -/
structure Site.Holds (marker : String) (frozen : List (Nat × Nat)) (s : List Char) (x : Site)
    (d : Directive) : Prop where
  text : s = x.before ++ (marker.toList ++ x.blanks ++ x.object ++ x.after)
  blanks : ∀ c ∈ x.blanks, Text.isBlank c
  braced : Braced x.object
  payload : Json.document Json.value x.object = .ok (.object d.payload)
  free : isFrozen frozen x.offset = false
  offset : d.offset = x.offset
  /-- The lines of the directive begin with the line of its marker. -/
  start : ∃ above line, x.before = above ++ line ∧ Closed above ∧ '\n' ∉ line ∧
    d.start = width above
  /-- They end with the line on which the object ends. -/
  stop : ∃ line below, x.after = line ++ below ∧ (IsFullLine line ∨ '\n' ∉ line ∧ below = []) ∧
    d.stop = x.stop marker + width line

/-- At an occurrence of the marker, with `before` in front of it and `after` behind, a directive has
to be read. -/
def Due (frozen : List (Nat × Nat)) (before after : List Char) : Prop :=
  isFrozen frozen (width before) = false ∧ (after.dropWhile Text.isBlank).head? = some '{'

instance (frozen : List (Nat × Nat)) (before after : List Char) :
    Decidable (Due frozen before after) := inferInstanceAs (Decidable (_ ∧ _))

/-- The directives of a text from a place on, with their sites. -/
structure Located (marker : String) (frozen : List (Nat × Nat)) (u t : List Char)
    (xs : List Site) (ds : List Directive) : Prop where
  holds : List.Forall₂ (Site.Holds marker frozen (u ++ t)) xs ds
  behind : ∀ x ∈ xs, width u ≤ x.offset
  apart : xs.Pairwise fun x y => x.stop marker ≤ y.offset
  complete : Unbordered marker.toList → ∀ v after, t = v ++ (marker.toList ++ after) →
    Due frozen (u ++ v) after →
    ∃ x ∈ xs, x.offset = width (u ++ v) ∨
      x.offset < width (u ++ v) ∧ width (u ++ v) < x.stop marker

variable {marker : String} {frozen : List (Nat × Nat)} {u v t : List Char} {xs : List Site}
  {ds : List Directive}

/-! ### Lines of a directive -/

theorem lineStart_behind {line : List Char} (h : '\n' ∉ line) (p : Place) :
    (p.behind line).lineStart = p.lineStart := by
  induction line generalizing p with
  | nil => rfl
  | cons c line ih =>
    obtain ⟨hc, hline⟩ := not_or.1 fun hm => h (List.mem_cons.2 hm)
    rw [Place.behind_cons, ih hline, Place.step, if_neg (Ne.symm hc)]

theorem lineStart_behind_closed {above : List Char} (h : Closed above) :
    (Place.first.behind above).lineStart = width above := by
  rcases List.eq_nil_or_concat' above with rfl | ⟨above, c, rfl⟩
  · rfl
  · obtain rfl : c = '\n' := h c (by simp)
    rw [Place.behind_append, Place.behind_cons, Place.behind_nil, Place.step, if_pos rfl,
      Place.offset_behind, Text.width_append]
    simp [Place.first]

theorem exists_start (before : List Char) : ∃ above line, before = above ++ line ∧ Closed above ∧
    '\n' ∉ line ∧ (Place.first.behind before).lineStart = width above := by
  obtain ⟨above, line, rfl, habove, hline⟩ := Text.exists_closed_append before
  refine ⟨above, line, rfl, habove, hline, ?_⟩
  rw [Place.behind_append, lineStart_behind hline, lineStart_behind_closed habove]

theorem exists_stop (after : List Char) : ∃ line below, after = line ++ below ∧
    (IsFullLine line ∨ '\n' ∉ line ∧ below = []) ∧ lineRest after = width line := by
  induction after with
  | nil => exact ⟨[], [], rfl, .inr ⟨by simp, rfl⟩, rfl⟩
  | cons c after ih =>
    by_cases hc : c = '\n'
    · exact ⟨[c], after, rfl, .inl ⟨[], by simp, by rw [hc]; rfl⟩, by simp [lineRest, hc]⟩
    · obtain ⟨line, below, rfl, hline, hrest⟩ := ih
      refine ⟨c :: line, below, rfl, ?_, by simp [lineRest, hc, hrest]⟩
      rcases hline with ⟨text, htext, rfl⟩ | ⟨hline, rfl⟩
      · exact .inl ⟨c :: text, by simp [htext, Ne.symm hc], rfl⟩
      · exact .inr ⟨by simp [hline, Ne.symm hc], rfl⟩

/-! ### What is found behind a marker -/

theorem head?_of_found_none {line : Nat} {after : List Char}
    (h : found marker line after = .ok none) : (after.dropWhile Text.isBlank).head? ≠ some '{' := by
  intro hopen
  cases hobject : object? (after.dropWhile Text.isBlank) with
  | none => cases (found_of_open hopen hobject line).symm.trans h
  | some cut => cases (found_of_object hopen hobject line).symm.trans h

theorem blank_and_braced_of_found {line : Nat} {after : List Char} {f : Found}
    (h : found marker line after = .ok (some f)) :
    (∀ c ∈ f.blanks, Text.isBlank c) ∧ Braced f.object := by
  rw [found] at h
  split at h
  · split at h
    · rename_i hobject
      obtain rfl := Option.some.inj (Except.ok.inj h)
      exact ⟨fun c hc => List.mem_takeWhile_imp hc, (object?_eq_some.1 hobject).2⟩
    · cases h
  · cases h

/-- The directive of an object stands where its marker does. -/
theorem holds_ofObject {line : Nat} {before after : List Char} {f : Found} {members : Json.Members}
    (hfree : isFrozen frozen (width before) = false)
    (hfound : found marker line after = .ok (some f))
    (hread : readPayload line f.object = .ok members) :
    Site.Holds marker frozen (before ++ (marker.toList ++ after))
      ⟨before, f.blanks, f.object, f.rest⟩
      (ofObject (Place.first.behind before) (marker.toList ++ f.blanks ++ f.object) f.rest members)
    where
  text := by rw [eq_append_of_found hfound]; simp
  blanks := (blank_and_braced_of_found hfound).1
  braced := (blank_and_braced_of_found hfound).2
  payload := readPayload_eq_ok.1 hread
  free := hfree
  offset := by simp [ofObject, Site.offset, Place.first]
  start := exists_start before
  stop := by
    obtain ⟨line, below, hafter, hline, hrest⟩ := exists_stop f.rest
    exact ⟨line, below, hafter, hline, by
      simp [ofObject, Site.stop, Site.offset, Place.first, hrest]⟩

/-! ### The scan -/

theorem located_nil (u : List Char) (hm : marker.toList ≠ []) :
    Located marker frozen u [] [] [] where
  holds := .nil
  behind := by simp
  apart := .nil
  complete _ v after h := absurd h (by simp [hm])

/-- The scan passes over a part of the text in which no directive has to be read. -/
theorem Located.pass (h : Located marker frozen (u ++ v) t xs ds)
    (hdue : Unbordered marker.toList → ∀ w after, v ++ t = w ++ (marker.toList ++ after) →
      Due frozen (u ++ w) after → ∃ w', w = v ++ w' ∧ t = w' ++ (marker.toList ++ after)) :
    Located marker frozen u (v ++ t) xs ds where
  holds := by simpa using h.holds
  behind x hx := by
    have := h.behind x hx
    rw [Text.width_append] at this
    omega
  apart := h.apart
  complete hu w after hw hd := by
    obtain ⟨w', rfl, ht⟩ := hdue hu w after hw hd
    rw [← List.append_assoc] at hd ⊢
    exact h.complete hu w' after ht hd

theorem Located.plain {c : Char} (hnone : Text.stripStart? marker.toList (c :: t) = none)
    (h : Located marker frozen (u ++ [c]) t xs ds) : Located marker frozen u (c :: t) xs ds := by
  refine h.pass (v := [c]) fun _ w after hw _ => ?_
  cases w with
  | nil =>
    rw [List.singleton_append, List.nil_append] at hw
    rw [hw, Text.stripStart?_append] at hnone
    cases hnone
  | cons d w =>
    obtain ⟨rfl, ht⟩ := List.cons.inj hw
    exact ⟨w, rfl, ht⟩

theorem Located.prose {after : List Char}
    (hskip : isFrozen frozen (width u) = true ∨
      (after.dropWhile Text.isBlank).head? ≠ some '{')
    (h : Located marker frozen (u ++ marker.toList) after xs ds) :
    Located marker frozen u (marker.toList ++ after) xs ds := by
  refine h.pass fun hu w after' hw hd => ?_
  rcases hu.eq_nil_or_append hw with rfl | hbehind
  · obtain rfl := List.append_cancel_left (hw.trans (List.nil_append _))
    rw [List.append_nil] at hd
    rcases hskip with hfrozen | hhead
    · exact absurd (hd.1.symm.trans hfrozen) Bool.false_ne_true
    · exact absurd hd.2 hhead
  · exact hbehind

theorem Located.cons {x : Site} {d : Directive} (hx : x.Holds marker frozen (u ++ t) d)
    (hbefore : x.before = u)
    (h : Located marker frozen (u ++ (marker.toList ++ x.blanks ++ x.object)) x.after xs ds) :
    Located marker frozen u t (x :: xs) (d :: ds) := by
  have hstop : x.stop marker = width (u ++ (marker.toList ++ x.blanks ++ x.object)) := by
    rw [Site.stop, Site.offset, hbefore, Text.width_append u]
  have ht : t = marker.toList ++ x.blanks ++ x.object ++ x.after := by
    have htext := hx.text
    rw [hbefore] at htext
    exact List.append_cancel_left htext
  refine ⟨.cons hx ?_, List.forall_mem_cons.2 ⟨?_, fun y hy => ?_⟩,
    List.pairwise_cons.2 ⟨fun y hy => hstop ▸ h.behind y hy, h.apart⟩, fun hu v after hv hd => ?_⟩
  · have hholds := h.holds
    rwa [List.append_assoc, ← ht] at hholds
  · rw [Site.offset, hbefore]
  · have := h.behind y hy
    rw [Text.width_append] at this
    omega
  · -- the occurrence stands in the part that is taken, or behind it
    rw [ht] at hv
    by_cases hin : width v < width (marker.toList ++ x.blanks ++ x.object)
    · refine ⟨x, List.mem_cons_self, ?_⟩
      rw [Site.stop, Site.offset, hbefore, Text.width_append]
      omega
    · obtain ⟨w, rfl, hafter⟩ := Text.exists_append_of_width_le hv (Nat.le_of_not_lt hin)
      rw [← List.append_assoc] at hd ⊢
      obtain ⟨y, hy, hplace⟩ := h.complete hu w after hafter hd
      exact ⟨y, List.mem_cons_of_mem x hy, hplace⟩

/-- **Every scan that succeeds locates its directives.** -/
theorem exists_located (hm : marker.toList ≠ []) {u t : List Char} {ds : List Directive}
    (h : scanFrom marker frozen 0 (Place.first.behind u) t = .ok ds) :
    ∃ xs, Located marker frozen u t xs ds := by
  induction t using cut_induction hm generalizing u ds with
  | nil =>
    obtain rfl := Except.ok.inj h
    exact ⟨[], located_nil u hm⟩
  | plain c t hnone ih =>
    have hrest : scanFrom marker frozen 0 (Place.first.behind (u ++ [c])) t = .ok ds := by
      rw [Place.behind_append]
      exact scanFrom_of_none hnone ▸ h
    obtain ⟨xs, hxs⟩ := ih hrest
    exact ⟨xs, hxs.plain hnone⟩
  | mark after ih =>
    have hoffset : (Place.first.behind u).offset = width u := by simp [Place.first]
    rcases (scanFrom_marker_eq_ok hm).1 h with
      ⟨hskip, hrest⟩ | ⟨hfree, f, members, ds', hfound, hread, hrest, rfl⟩
    · rw [← Place.behind_append] at hrest
      obtain ⟨xs, hxs⟩ := ih after List.suffix_rfl hrest
      exact ⟨xs, hxs.prose (hskip.imp (hoffset ▸ ·) head?_of_found_none)⟩
    · rw [← Place.behind_append] at hrest
      have hsuffix : f.rest <:+ after := ⟨f.blanks ++ f.object, by simp [eq_append_of_found hfound]⟩
      obtain ⟨xs, hxs⟩ := ih f.rest hsuffix hrest
      exact ⟨_, .cons (holds_ofObject (hoffset ▸ hfree) hfound hread) rfl hxs⟩

theorem exists_located_of_scan {s : String} (hm : marker ≠ "")
    (h : scan marker frozen s = .ok ds) : ∃ xs, Located marker frozen [] s.toList xs ds := by
  have hempty : ¬ marker.isEmpty := by simpa [String.isEmpty_iff] using hm
  rw [scan, if_neg hempty] at h
  exact exists_located (by simpa using hm) h

theorem Site.Holds.offset_lt_stop {s : List Char} {x : Site} {d : Directive}
    (h : x.Holds marker frozen s d) : x.offset < x.stop marker := by
  obtain ⟨t, -, hobject⟩ := h.braced
  have := '{'.utf8Size_pos
  rw [Site.stop, hobject, Text.width_append, Text.width_cons]
  omega

theorem exists_holds_of_mem {s : List Char}
    (h : List.Forall₂ (Site.Holds marker frozen s) xs ds) :
    (∀ x ∈ xs, ∃ d ∈ ds, x.Holds marker frozen s d) ∧
      ∀ d ∈ ds, ∃ x ∈ xs, x.Holds marker frozen s d := by
  induction h with
  | nil => simp
  | @cons x d xs ds hx _ ih =>
    refine ⟨List.forall_mem_cons.2 ⟨⟨d, List.mem_cons_self, hx⟩, fun y hy => ?_⟩,
      List.forall_mem_cons.2 ⟨⟨x, List.mem_cons_self, hx⟩, fun e he => ?_⟩⟩
    · obtain ⟨e, he, hholds⟩ := ih.1 y hy
      exact ⟨e, List.mem_cons_of_mem d he, hholds⟩
    · obtain ⟨y, hy, hholds⟩ := ih.2 e he
      exact ⟨y, List.mem_cons_of_mem x hy, hholds⟩

theorem pairwise_of_holds {s : List Char} {r : Site → Site → Prop}
    {q : Directive → Directive → Prop} (h : List.Forall₂ (Site.Holds marker frozen s) xs ds)
    (hr : xs.Pairwise r)
    (hq : ∀ x y d e, x.Holds marker frozen s d → y.Holds marker frozen s e → r x y → q d e) :
    ds.Pairwise q := by
  induction h with
  | nil => exact .nil
  | @cons x d xs ds hx htail ih =>
    obtain ⟨hfirst, hrest⟩ := List.pairwise_cons.1 hr
    refine List.pairwise_cons.2 ⟨fun e he => ?_, ih hrest⟩
    obtain ⟨y, hy, hholds⟩ := (exists_holds_of_mem htail).2 e he
    exact hq x y d e hx hholds (hfirst y hy)

theorem Located.pairwise_offset (h : Located marker frozen u t xs ds) :
    (ds.map Directive.offset).Pairwise (· < ·) := by
  refine List.pairwise_map.2 (pairwise_of_holds h.holds h.apart fun x y d e hd he hle => ?_)
  rw [hd.offset, he.offset]
  exact hd.offset_lt_stop.trans_le hle

/-- **A scan finds exactly the directives of a text.** It comes to no grief. Each directive stands
at a site that is not frozen, with the lines from that of the marker to that on which the object
ends. The sites come one behind the other. And where a marker that is not frozen has an object
behind it, it is that of a directive, or it stands in the marker and the object of one before. -/
theorem scan_sites (hm : marker ≠ "") (hu : Unbordered marker.toList) (frozen : List (Nat × Nat))
    (s : String) :
    Cursor.scan marker frozen s = .ok (scan marker frozen s) ∧
    ∀ ds, scan marker frozen s = .ok ds → ∃ xs : List Site,
      List.Forall₂ (Site.Holds marker frozen s.toList) xs ds ∧
      (ds.map Directive.offset).Pairwise (· < ·) ∧
      (xs.Pairwise fun x y => x.stop marker ≤ y.offset) ∧
      ∀ before after, s.toList = before ++ (marker.toList ++ after) → Due frozen before after →
        (∃ d ∈ ds, d.offset = width before) ∨
          ∃ x ∈ xs, x.offset < width before ∧ width before < x.stop marker := by
  refine ⟨Cursor.scan_eq marker frozen s, fun ds h => ?_⟩
  obtain ⟨xs, hxs⟩ := exists_located_of_scan hm h
  refine ⟨xs, hxs.holds, hxs.pairwise_offset, hxs.apart, fun before after hs hdue => ?_⟩
  obtain ⟨x, hx, hoffset | hin⟩ := hxs.complete hu before after hs hdue
  · obtain ⟨d, hd, hholds⟩ := (exists_holds_of_mem hxs.holds).1 x hx
    exact .inl ⟨d, hd, hholds.offset.trans hoffset⟩
  · exact .inr ⟨x, hx, hin⟩

/-- A character of two bytes, a marker in a string of an object, a marker that is prose, and one
that is frozen. -/
theorem scan_sites_of_marker_in_string :
    let text := "é @o \x7b\"a\": \"@o \x7b\"\x7d\n@o prose\n@o \x7b\x7d\n"
    "@o" ≠ "" ∧ Unbordered "@o".toList ∧ ∃ (ds : List Directive) (xs : List Site),
      scan "@o" [(29, 40)] text = .ok ds ∧
      ds.map (fun d => (d.offset, d.start, d.stop)) = [(3, 0, 20)] ∧
      List.Forall₂ (Site.Holds "@o" [(29, 40)] text.toList) xs ds ∧
      ∃ x ∈ xs, x.offset < 13 ∧ 13 < x.stop "@o" := by
  intro text
  have hm : "@o" ≠ "" := by decide
  have hu : Unbordered "@o".toList := by decide
  have hread : (scan "@o" [(29, 40)] text).toOption.map
      (List.map fun d => (d.offset, d.start, d.stop)) = some [(3, 0, 20)] := by
    decide +kernel
  obtain ⟨ds, hds, hplaces⟩ := Option.map_eq_some_iff.1 hread
  have hscan := Outcome.toOption_eq_some.1 hds
  obtain ⟨xs, hholds, -, -, hcomplete⟩ := (scan_sites hm hu [(29, 40)] text).2 ds hscan
  refine ⟨hm, hu, ds, xs, hscan, hplaces, hholds, ?_⟩
  rcases hcomplete "é @o \x7b\"a\": \"".toList " \x7b\"\x7d\n@o prose\n@o \x7b\x7d\n".toList
    (by decide) (by decide) with ⟨d, hd, hoffset⟩ | hinside
  · -- the only directive stands elsewhere
    have hmem := List.mem_map_of_mem (f := fun d : Directive => (d.offset, d.start, d.stop)) hd
    rw [hplaces, List.mem_singleton, Prod.mk.injEq, hoffset] at hmem
    exact absurd hmem.1 (by decide)
  · exact hinside

end Scaffold.Directive
