import Scaffold.Directive
import Scaffold.Proofs.Outcome
import Scaffold.Proofs.Text

/-!
# Scanning for directives

The scanner goes from one cut of the text to the next (`cut_induction`): behind a character at
which no marker begins, behind a marker that is prose or frozen, or behind an object. What
follows from the cuts is that frozen text is passed over whatever it says
(`scanFrom_frozenText`), and that every directive stands on a place that is not frozen
(`isFrozen_of_mem_scanFrom`).
-/

namespace Scaffold.Directive

/-! ### Places -/

/-- The place behind a text. -/
def Place.behind (p : Place) (s : List Char) : Place := s.foldl Place.step p

@[simp] theorem Place.behind_nil (p : Place) : p.behind [] = p := rfl

@[simp] theorem Place.behind_cons (p : Place) (c : Char) (s : List Char) :
    p.behind (c :: s) = (p.step c).behind s := rfl

@[simp] theorem Place.behind_append (p : Place) (s t : List Char) :
    p.behind (s ++ t) = (p.behind s).behind t := List.foldl_append

@[simp] theorem Place.offset_step (p : Place) (c : Char) :
    (p.step c).offset = p.offset + c.utf8Size := by
  rw [Place.step]
  split <;> rfl

@[simp] theorem Place.offset_behind (p : Place) (s : List Char) :
    (p.behind s).offset = p.offset + Text.width s := by
  induction s generalizing p with
  | nil => rfl
  | cons c s ih => simp [ih, Nat.add_assoc]

/-- Every byte of a text that begins at an offset is frozen. -/
def Frozen (frozen : List (Nat × Nat)) (offset : Nat) (s : List Char) : Prop :=
  ∀ o, offset ≤ o → o < offset + Text.width s → isFrozen frozen o = true

/-- No byte of a text that begins at an offset is frozen. -/
def Unfrozen (frozen : List (Nat × Nat)) (offset : Nat) (s : List Char) : Prop :=
  ∀ o, offset ≤ o → o < offset + Text.width s → isFrozen frozen o = false

theorem Frozen.append_right {frozen : List (Nat × Nat)} {offset : Nat} {s t : List Char}
    (h : Frozen frozen offset (s ++ t)) : Frozen frozen (offset + Text.width s) t := by
  intro o hlow hhigh
  rw [Nat.add_assoc, ← Text.width_append] at hhigh
  exact h o (by omega) hhigh

theorem Unfrozen.append_right {frozen : List (Nat × Nat)} {offset : Nat} {s t : List Char}
    (h : Unfrozen frozen offset (s ++ t)) : Unfrozen frozen (offset + Text.width s) t := by
  intro o hlow hhigh
  rw [Nat.add_assoc, ← Text.width_append] at hhigh
  exact h o (by omega) hhigh

/-! ### Objects -/

theorem untilClosed?_eq_some {mode : Mode} {depth : Nat} {s object rest : List Char}
    (h : untilClosed? mode depth s = some (object, rest)) :
    s = object ++ rest ∧ '}' ∈ object := by
  induction s generalizing mode depth object with
  | nil => cases h
  | cons c s ih =>
    have hcons : ∀ {mode depth},
        (untilClosed? mode depth s).map (fun r => (c :: r.1, r.2)) = some (object, rest) →
          c :: s = object ++ rest ∧ '}' ∈ object := by
      intro mode depth h
      obtain ⟨⟨o, t⟩, ho, h⟩ := Option.map_eq_some_iff.1 h
      obtain ⟨rfl, rfl⟩ := Prod.mk.inj h
      obtain ⟨rfl, hm⟩ := ih ho
      exact ⟨rfl, List.mem_cons_of_mem c hm⟩
    simp only [untilClosed?] at h
    split_ifs at h with _ hclose
    · exact hcons h
    · obtain ⟨rfl, rfl⟩ := Prod.mk.inj (Option.some.inj h)
      have hc : c = '}' := by simpa using (Bool.and_eq_true_iff.1 hclose).2
      exact ⟨rfl, by simp [hc]⟩
    · exact hcons h
    · exact hcons h

/-- What follows an object does not matter. -/
theorem untilClosed?_append {mode : Mode} {depth : Nat} {s object rest : List Char}
    (h : untilClosed? mode depth s = some (object, rest)) (t : List Char) :
    untilClosed? mode depth (s ++ t) = some (object, rest ++ t) := by
  induction s generalizing mode depth object with
  | nil => cases h
  | cons c s ih =>
    have hcons : ∀ {mode depth},
        (untilClosed? mode depth s).map (fun r => (c :: r.1, r.2)) = some (object, rest) →
          (untilClosed? mode depth (s ++ t)).map (fun r => (c :: r.1, r.2)) =
            some (object, rest ++ t) := by
      intro mode depth h
      obtain ⟨⟨o, r⟩, ho, h⟩ := Option.map_eq_some_iff.1 h
      obtain ⟨rfl, rfl⟩ := Prod.mk.inj h
      rw [ih ho]
      rfl
    simp only [untilClosed?, List.cons_append] at h ⊢
    split_ifs at h ⊢
    · exact hcons h
    · obtain ⟨rfl, rfl⟩ := Prod.mk.inj (Option.some.inj h)
      rfl
    · exact hcons h
    · exact hcons h

/-- An object that a text leaves open is closed by what follows the text. -/
theorem untilClosed?_append_of_none {mode : Mode} {depth : Nat} {s t object rest : List Char}
    (hs : untilClosed? mode depth s = none)
    (h : untilClosed? mode depth (s ++ t) = some (object, rest)) :
    ∃ more, object = s ++ more ∧ t = more ++ rest ∧ '}' ∈ more := by
  induction s generalizing mode depth object with
  | nil =>
    obtain ⟨ht, hm⟩ := untilClosed?_eq_some h
    exact ⟨object, rfl, ht, hm⟩
  | cons c s ih =>
    have hcons : ∀ {mode depth},
        (untilClosed? mode depth s).map (fun r => (c :: r.1, r.2)) = none →
          (untilClosed? mode depth (s ++ t)).map (fun r => (c :: r.1, r.2)) =
            some (object, rest) →
          ∃ more, object = c :: s ++ more ∧ t = more ++ rest ∧ '}' ∈ more := by
      intro mode depth hs h
      obtain ⟨⟨o, r⟩, ho, h⟩ := Option.map_eq_some_iff.1 h
      obtain ⟨rfl, rfl⟩ := Prod.mk.inj h
      obtain ⟨more, rfl, ht, hm⟩ := ih (Option.map_eq_none_iff.1 hs) ho
      exact ⟨more, rfl, ht, hm⟩
    simp only [untilClosed?, List.cons_append] at hs h
    split_ifs at hs h
    · exact hcons hs h
    · exact hcons hs h
    · exact hcons hs h

/-! ### Cuts -/

variable {marker : String} {frozen : List (Nat × Nat)} {p : Place} {c : Char} {s after : List Char}

theorem scanFrom_skip (marker : String) (frozen : List (Nat × Nat)) (p : Place)
    (taken s : List Char) :
    scanFrom marker frozen taken.length p (taken ++ s) =
      scanFrom marker frozen 0 (p.behind taken) s := by
  induction taken generalizing p with
  | nil => rfl
  | cons c taken ih =>
    rw [List.length_cons, List.cons_append, scanFrom, ih]
    rfl

theorem scanFrom_of_none (h : Text.stripStart? marker.toList (c :: s) = none) :
    scanFrom marker frozen 0 p (c :: s) = scanFrom marker frozen 0 (p.step c) s := by
  simp [scanFrom, h]

/-- The directive of an object whose marker stands at a place, with the text from the marker to the
end of the object. -/
def ofObject (p : Place) (taken rest : List Char) (members : Json.Members) : Directive :=
  ⟨p.offset, p.lineStart, p.offset + Text.width taken + lineRest rest, members⟩

theorem eq_append_of_found {line : Nat} {f : Found} (h : found marker line after = .ok (some f)) :
    after = f.blanks ++ (f.object ++ f.rest) := by
  simp only [found] at h
  split at h
  · rename_i rest hd
    split at h
    · rename_i object rest' hobject
      obtain rfl := Option.some.inj (Except.ok.inj h)
      rw [← (untilClosed?_eq_some hobject).1, ← hd, List.takeWhile_append_dropWhile]
    · cases h
  · cases h

/-- At a marker the scanner passes on behind the marker, or behind the object that it reads. -/
theorem scanFrom_marker (hm : marker.toList ≠ []) (after : List Char) :
    scanFrom marker frozen 0 p (marker.toList ++ after) =
      if isFrozen frozen p.offset then scanFrom marker frozen 0 (p.behind marker.toList) after
      else do
        match ← found marker p.line after with
        | none => scanFrom marker frozen 0 (p.behind marker.toList) after
        | some f =>
          let members ← readPayload p.line f.object
          let taken := marker.toList ++ f.blanks ++ f.object
          return ofObject p taken f.rest members ::
            (← scanFrom marker frozen 0 (p.behind taken) f.rest) := by
  obtain ⟨c, m, hcm⟩ := List.exists_cons_of_ne_nil hm
  have hstrip := Text.stripStart?_append marker.toList after
  have hlength : marker.length - 1 = m.length := by rw [← String.length_toList, hcm]; rfl
  have hprose : scanFrom marker frozen (marker.length - 1) (p.step c) (m ++ after) =
      scanFrom marker frozen 0 (p.behind marker.toList) after := by
    rw [hlength, scanFrom_skip, hcm]
    rfl
  have hobject : ∀ f, found marker p.line after = .ok (some f) →
      scanFrom marker frozen ((marker.toList ++ f.blanks ++ f.object).length - 1) (p.step c)
          (m ++ after) =
        scanFrom marker frozen 0 (p.behind (marker.toList ++ f.blanks ++ f.object)) f.rest := by
    intro f hf
    have hskip := scanFrom_skip marker frozen (p.step c) (m ++ f.blanks ++ f.object) f.rest
    rw [eq_append_of_found hf, hcm]
    simpa using hskip
  rw [hcm, List.cons_append] at hstrip
  conv_lhs => rw [hcm, List.cons_append, scanFrom, hcm, hstrip]
  dsimp only
  rw [hprose]
  congr 1
  cases hf : found marker p.line after with
  | error e => rfl
  | ok f? =>
    cases f? with
    | none => rfl
    | some f =>
      have hobject := hobject f hf
      rw [hcm] at hobject ⊢
      simp only [bind, Except.bind]
      rw [hobject]
      rfl

/-- What scanning does at a marker where it gives directives. -/
theorem scanFrom_marker_eq_ok (hm : marker.toList ≠ []) {ds : List Directive} :
    scanFrom marker frozen 0 p (marker.toList ++ after) = .ok ds ↔
      (isFrozen frozen p.offset = true ∨ found marker p.line after = .ok none) ∧
          scanFrom marker frozen 0 (p.behind marker.toList) after = .ok ds ∨
        isFrozen frozen p.offset = false ∧ ∃ f members ds',
          found marker p.line after = .ok (some f) ∧ readPayload p.line f.object = .ok members ∧
          scanFrom marker frozen 0 (p.behind (marker.toList ++ f.blanks ++ f.object)) f.rest =
            .ok ds' ∧
          ds = ofObject p (marker.toList ++ f.blanks ++ f.object) f.rest members :: ds' := by
  rw [scanFrom_marker hm]
  cases hf : isFrozen frozen p.offset with
  | true => simp
  | false =>
    rw [if_neg Bool.false_ne_true, Outcome.bind_eq_ok]
    constructor
    · rintro ⟨f?, hfound, h⟩
      cases f? with
      | none => exact .inl ⟨.inr hfound, h⟩
      | some f =>
        obtain ⟨members, hread, h⟩ := Outcome.bind_eq_ok.1 h
        obtain ⟨ds', hrest, h⟩ := Outcome.bind_eq_ok.1 h
        exact .inr ⟨rfl, f, members, ds', hfound, hread, hrest, (Except.ok.inj h).symm⟩
    · rintro (⟨h | hfound, h⟩ | ⟨-, f, members, ds', hfound, hread, hrest, rfl⟩)
      · cases h
      · exact ⟨none, hfound, h⟩
      · refine ⟨some f, hfound, ?_⟩
        dsimp only
        rw [hread]
        simp only [bind, Except.bind, hrest]
        rfl

/-- A marker without an object behind it is prose. -/
theorem found_of_prose (h : (after.dropWhile Text.isBlank).head? ≠ some '{') (line : Nat) :
    found marker line after = .ok none := by
  rw [found]
  split
  · rename_i hd
    exact absurd (by rw [hd]; rfl) h
  · rfl

theorem found_of_open (h : (after.dropWhile Text.isBlank).head? = some '{')
    (hobject : object? (after.dropWhile Text.isBlank) = none) (line : Nat) :
    found marker line after = .error ⟨line, .unbalanced marker⟩ := by
  obtain ⟨t, hd⟩ := List.head?_eq_some_iff.1 h
  rw [hd] at hobject
  simp [found, hd, hobject]

theorem found_of_object (h : (after.dropWhile Text.isBlank).head? = some '{')
    {object rest : List Char}
    (hobject : object? (after.dropWhile Text.isBlank) = some (object, rest)) (line : Nat) :
    found marker line after = .ok (some ⟨after.takeWhile Text.isBlank, object, rest⟩) := by
  obtain ⟨t, hd⟩ := List.head?_eq_some_iff.1 h
  rw [hd] at hobject
  simp [found, hd, hobject]

/-- **Scanning goes from cut to cut.** What holds of the empty text, and of a text if it holds
behind its first cut, holds of every text. -/
theorem cut_induction (hm : marker.toList ≠ []) {P : List Char → Prop} (nil : P [])
    (plain : ∀ c s, Text.stripStart? marker.toList (c :: s) = none → P s → P (c :: s))
    (mark : ∀ after, (∀ s, s <:+ after → P s) → P (marker.toList ++ after)) (s : List Char) :
    P s := by
  suffices h : ∀ n (s : List Char), s.length ≤ n → P s from h s.length s le_rfl
  intro n
  induction n with
  | zero =>
    intro s hs
    rw [List.eq_nil_of_length_eq_zero (Nat.le_zero.1 hs)]
    exact nil
  | succ n ih =>
    intro s hs
    cases s with
    | nil => exact nil
    | cons c s =>
      cases hstrip : Text.stripStart? marker.toList (c :: s) with
      | none => exact plain c s hstrip (ih s (by simpa using hs))
      | some after =>
        have hcut := Text.stripStart?_eq_some.1 hstrip
        have hpos := List.length_pos_of_ne_nil hm
        rw [hcut, List.length_append] at hs
        rw [hcut]
        exact mark after fun t ht => ih t (by have := ht.length_le; omega)

/-! ### What is frozen -/

theorem isFrozen_append (frozen more : List (Nat × Nat)) (offset : Nat) :
    isFrozen (frozen ++ more) offset = (isFrozen frozen offset || isFrozen more offset) :=
  List.any_append

/-- A marker that is found where a text ends is found in the text, if a line ends there. -/
theorem stripStart?_append_of_none {m s t : List Char} (hn : '\n' ∉ m) (hs : s ≠ [])
    (ht : Text.Closed s ∨ ∀ c ∈ t.head?, c = '\n') (h : Text.stripStart? m s = none) :
    Text.stripStart? m (s ++ t) = none := by
  refine Option.eq_none_iff_forall_ne_some.2 fun after ha => ?_
  have hcut := Text.stripStart?_eq_some.1 ha
  rcases List.append_eq_append_iff.1 hcut with ⟨u, rfl, rfl⟩ | ⟨u, rfl, -⟩
  · rcases ht with ht | ht
    · obtain ⟨a, c, rfl⟩ := List.eq_nil_or_concat s |>.resolve_left hs
      obtain rfl := ht c (by simp)
      exact hn (by simp)
    · cases u with
      | nil =>
        have hself := Text.stripStart?_append s []
        rw [List.append_nil] at h hself
        rw [h] at hself
        cases hself
      | cons c u =>
        obtain rfl := ht c rfl
        exact hn (by simp)
  · rw [Text.stripStart?_append] at h
    cases h

/-- Frozen text is passed over, whatever it says. -/
theorem scanFrom_frozenText (hm : marker.toList ≠ []) (hn : '\n' ∉ marker.toList)
    {s rest : List Char} (hs : Text.Closed s ∨ rest = []) (hf : Frozen frozen p.offset s) :
    scanFrom marker frozen 0 p (s ++ rest) = scanFrom marker frozen 0 (p.behind s) rest := by
  induction s using cut_induction hm generalizing p with
  | nil => rfl
  | plain c s hnone ih =>
    have hnone' : Text.stripStart? marker.toList (c :: s ++ rest) = none := by
      refine stripStart?_append_of_none hn (by simp) ?_ hnone
      exact hs.imp_right fun h => by simp [h]
    rw [List.cons_append] at hnone' ⊢
    rw [scanFrom_of_none hnone', ih (hs.imp_left Text.Closed.tail)]
    · rfl
    · simpa using Frozen.append_right (s := [c]) hf
  | mark after ih =>
    have hfirst : isFrozen frozen p.offset = true := by
      refine hf p.offset le_rfl ?_
      obtain ⟨c, m, hcm⟩ := List.exists_cons_of_ne_nil hm
      have := c.utf8Size_pos
      simp only [hcm, List.cons_append, Text.width_cons]
      omega
    rw [List.append_assoc, scanFrom_marker hm, if_pos hfirst,
      ih after List.suffix_rfl (hs.imp_left Text.Closed.append_right), Place.behind_append]
    simpa using hf.append_right

/-- Every directive stands on a place that is not frozen. -/
theorem isFrozen_of_mem_scanFrom (hm : marker.toList ≠ []) {ds : List Directive}
    (h : scanFrom marker frozen 0 p s = .ok ds) : ∀ d ∈ ds, isFrozen frozen d.offset = false := by
  induction s using cut_induction hm generalizing p ds with
  | nil =>
    obtain rfl := Except.ok.inj h
    simp
  | plain c s hnone ih => exact ih (scanFrom_of_none hnone ▸ h)
  | mark after ih =>
    rcases (scanFrom_marker_eq_ok hm).1 h with
      ⟨-, h⟩ | ⟨hf, f, members, ds', hfound, -, htail, rfl⟩
    · exact ih after List.suffix_rfl h
    · have hrest : f.rest <:+ after := ⟨f.blanks ++ f.object, by simp [eq_append_of_found hfound]⟩
      exact List.forall_mem_cons.2 ⟨hf, ih f.rest hrest htail⟩

/-- More ranges change nothing where no directive stands in them. -/
theorem scanFrom_append (hm : marker.toList ≠ []) {more : List (Nat × Nat)} {ds : List Directive}
    (h : scanFrom marker frozen 0 p s = .ok ds)
    (hmore : ∀ d ∈ ds, isFrozen more d.offset = false) :
    scanFrom marker (frozen ++ more) 0 p s = .ok ds := by
  induction s using cut_induction hm generalizing p ds with
  | nil => exact h
  | plain c s hnone ih =>
    rw [scanFrom_of_none hnone] at h ⊢
    exact ih h hmore
  | mark after ih =>
    refine (scanFrom_marker_eq_ok hm).2 ?_
    rw [isFrozen_append]
    rcases (scanFrom_marker_eq_ok hm).1 h with
      ⟨hskip, h⟩ | ⟨hf, f, members, ds', hfound, hread, htail, rfl⟩
    · exact .inl ⟨hskip.imp_left fun hf => by rw [hf, Bool.true_or],
        ih after List.suffix_rfl h hmore⟩
    · obtain ⟨hd, hmore⟩ := List.forall_mem_cons.1 hmore
      have hrest : f.rest <:+ after := ⟨f.blanks ++ f.object, by simp [eq_append_of_found hfound]⟩
      have hfirst : isFrozen more p.offset = false := hd
      exact .inr ⟨by rw [hf, hfirst, Bool.or_false], f, members, ds', hfound, hread,
        ih f.rest hrest htail hmore, rfl⟩

theorem forall_isFrozen_of_scan {marker : String} {frozen : List (Nat × Nat)} {s : String}
    {ds : List Directive} (h : scan marker frozen s = .ok ds) :
    ∀ d ∈ ds, isFrozen frozen d.offset = false := by
  rw [scan] at h
  split at h
  · obtain rfl := Except.ok.inj h
    simp
  · rename_i hempty
    exact isFrozen_of_mem_scanFrom (by simpa [String.isEmpty_iff] using hempty) h

/-- **Ranges hold no directive exactly if freezing them changes nothing.** -/
theorem scan_append_iff {marker : String} {frozen more : List (Nat × Nat)} {s : String}
    {ds : List Directive} (h : scan marker frozen s = .ok ds) :
    scan marker (frozen ++ more) s = .ok ds ↔ ∀ d ∈ ds, isFrozen more d.offset = false := by
  constructor
  · intro hmore d hd
    have hfree := forall_isFrozen_of_scan hmore d hd
    rw [isFrozen_append, Bool.or_eq_false_iff] at hfree
    exact hfree.2
  · intro hmore
    rw [scan] at h ⊢
    split at h
    · rwa [if_pos ‹_›]
    · rename_i hempty
      rw [if_neg hempty]
      exact scanFrom_append (by simpa [String.isEmpty_iff] using hempty) h hmore

end Scaffold.Directive
