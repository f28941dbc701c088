import Scaffold.Proofs.Merge.Text

/-!
# Runs of merges

A file that is merged into again and again is a map from units to blocks in which the last write
wins (`run_refines_put`). What one merge does to the map is `put` (`exists_text_of_regular`); the
invariant that carries it along a run is that no unit has two regions (`Tidy`).
-/

namespace Scaffold.Merge

open Region

/-- What is merged into a file whose delimiters are known. -/
structure Call where
  content : String
  identity : Identity
  options : Options

/-- The input of a call on a file. -/
def Call.input (d : Delimiters) (destination? : Option String) (c : Call) : MergeInput :=
  ⟨destination?, c.content, c.identity, d, c.options⟩

/-- What the region of a call says. -/
def Call.entry (c : Call) : Region.Entry := Block.entryOf c.identity c.content

/-- The file after calls, one after the other. A call that gives no text leaves the file alone. -/
def run (render : Template.Renderer) (d : Delimiters) :
    Option String → List Call → Except Failure (Option String)
  | destination?, [] => .ok destination?
  | destination?, c :: calls => do
    match ← text (c.input d destination?) render with
    | some t => run render d (some t) calls
    | none => run render d destination? calls

/-- A call that adds to the file in the usual way: its content is annotated, and stands behind the
text if the unit has no region yet. -/
structure Call.Regular (d : Delimiters) (present : Bool) (c : Call) : Prop where
  annotate : c.options.annotate = true
  template : c.options.annotationTemplate = none
  strategy : c.options.appendStrategy = .append ∨
    c.options.appendStrategy = .appendIfExists ∧ present = true
  identity : c.identity.HeaderSafe
  content : NoMarkers d c.content.toList

/-- Every call is regular. Behind the first one the file is present. -/
def AllRegular (d : Delimiters) : Bool → List Call → Prop
  | _, [] => True
  | present, c :: calls => c.Regular d present ∧ AllRegular d true calls

variable {render : Template.Renderer}

/-- No unit has two entries. -/
def Tidy (es : List Region.Entry) : Prop := ∀ u, (es.filter (·.matchesUnit u)).length ≤ 1

/-- The entry of a unit. -/
def lookup (u : UnitName) (es : List Region.Entry) : Option Region.Entry :=
  es.find? (·.matchesUnit u)

/-- The entries after calls. -/
def putAll (calls : List Call) (es : List Region.Entry) : List Region.Entry :=
  calls.foldl (fun es c => put c.identity.unit c.entry es) es

/-! ### Putting an entry -/

section
variable {u v : UnitName} {e : Region.Entry} {es : List Region.Entry}

theorem Call.matchesUnit_entry (c : Call) : c.entry.matchesUnit c.identity.unit = true :=
  beq_self_eq_true c.identity.unit

/-- An entry comes from one unit at most. -/
theorem matchesUnit_eq_false (h : e.matchesUnit u = true) (hne : u ≠ v) :
    e.matchesUnit v = false := by
  obtain ⟨identity?, content⟩ := e
  cases identity? with
  | none => rfl
  | some i =>
    have hu : i.unit = u := by simpa [Region.Entry.matchesUnit] using h
    simpa [Region.Entry.matchesUnit, hu] using hne

theorem filter_put_self (he : e.matchesUnit u = true) (es : List Region.Entry) :
    (put u e es).filter (·.matchesUnit u) = e :: (es.filter (·.matchesUnit u)).tail := by
  induction es with
  | nil => simp [put, he]
  | cons old es ih =>
    cases hold : old.matchesUnit u with
    | true => simp [put, hold, he]
    | false => simp [put, hold, ih]

theorem filter_put_of_ne (he : e.matchesUnit u = true) (hne : u ≠ v) (es : List Region.Entry) :
    (put u e es).filter (·.matchesUnit v) = es.filter (·.matchesUnit v) := by
  have hev := matchesUnit_eq_false he hne
  induction es with
  | nil => simp [put, hev]
  | cons old es ih =>
    cases hold : old.matchesUnit u with
    | true => simp [put, hold, hev, matchesUnit_eq_false hold hne]
    | false => simp [put, hold, List.filter_cons, ih]

theorem Tidy.put (he : e.matchesUnit u = true) (h : Tidy es) : Tidy (put u e es) := by
  intro v
  by_cases hv : u = v
  · subst hv
    have := h u
    rw [filter_put_self he, List.length_cons, List.length_tail]
    omega
  · rw [filter_put_of_ne he hv]
    exact h v

theorem lookup_put (he : e.matchesUnit u = true) (v : UnitName) (es : List Region.Entry) :
    lookup v (put u e es) = if u = v then some e else lookup v es := by
  rw [lookup, lookup, ← List.head?_filter, ← List.head?_filter]
  split
  · rename_i hv
    subst hv
    rw [filter_put_self he]
    rfl
  · rename_i hv
    rw [filter_put_of_ne he hv]

/-- The entry of a unit after calls is that of its last call. -/
theorem lookup_putAll (u : UnitName) (calls : List Call) (es : List Region.Entry) :
    lookup u (putAll calls es) =
      ((calls.filter (·.identity.unit == u)).getLast?.map Call.entry).or (lookup u es) := by
  induction calls generalizing es with
  | nil => rfl
  | cons c calls ih =>
    rw [putAll, List.foldl_cons, ← putAll, ih, lookup_put c.matchesUnit_entry]
    by_cases hu : c.identity.unit = u
    · rw [if_pos hu, List.filter_cons_of_pos (by simpa using hu), List.getLast?_cons]
      cases (calls.filter (·.identity.unit == u)).getLast? <;> rfl
    · rw [if_neg hu, List.filter_cons_of_neg (by simpa using hu)]

end

/-! ### One call -/

/-- A regular call on a file in which its unit has one region at most gives a text. -/
theorem exists_text_of_holds {d : Delimiters} {destination? : Option String}
    {es : List Region.Entry} (hs : Holds d destination? es) {c : Call}
    (hu : (es.filter (·.matchesUnit c.identity.unit)).length ≤ 1)
    (hd : d.Safe) (hc : c.Regular d destination?.isSome) :
    ∃ t, text (c.input d destination?) render = .ok (some t) := by
  have hann : Annotates (c.input d destination?) := ⟨hc.annotate, hc.template, hd, hc.identity⟩
  simp only [text_eq_ok (hann.block_eq render)]
  generalize Block.usual _ _ _ = fresh
  cases destination? with
  | none =>
    have happend : c.options.appendStrategy = .append := by
      rcases hc.strategy with h | ⟨-, h⟩
      · exact h
      · cases h
    refine ⟨fresh, ?_⟩
    have : append c.options.appendStrategy none fresh = some fresh := by rw [happend]; rfl
    rw [← this]
    exact .missing rfl
  | some s =>
    obtain ⟨rs, hrs, rfl⟩ := hs
    cases hf : rs.filter (·.matchesUnit c.identity.unit) with
    | nil =>
      refine ⟨behind s fresh, ?_⟩
      have : append c.options.appendStrategy (some s) fresh = some (behind s fresh) := by
        rcases hc.strategy with h | ⟨h, -⟩ <;> rw [h] <;> rfl
      rw [← this]
      exact .unmatched rfl hrs hf
    | cons r more =>
      cases more with
      | nil => exact ⟨_, .matched rfl hrs hf⟩
      | cons r' more =>
        have hlength : (rs.filter (·.matchesUnit c.identity.unit)).length ≤ 1 := by
          rw [List.filter_map, List.length_map] at hu
          exact hu
        rw [hf] at hlength
        simp at hlength

/-- **A regular call puts its entry among the entries of the file.** -/
theorem exists_text_of_regular {d : Delimiters} (hd : d.Safe) {destination? : Option String}
    {es : List Region.Entry} (hs : Holds d destination? es) (hu : Tidy es) {c : Call}
    (hc : c.Regular d destination?.isSome) :
    ∃ t, text (c.input d destination?) render = .ok (some t) ∧
      Shows d t (put c.identity.unit c.entry es) := by
  obtain ⟨t, ht⟩ := exists_text_of_holds hs (hu _) hd hc
  obtain ⟨p, hfill, hput, -⟩ := exists_place ⟨hc.annotate, hc.template, hd, hc.identity⟩ ht
  have hstrategy : c.options.appendStrategy ≠ .replace := by
    rcases hc.strategy with h | ⟨h, -⟩ <;> rw [h] <;> decide
  refine ⟨t, ht, ?_⟩
  have hes := hput hstrategy es c.entry hs
  exact hes ▸ p.shows hd hc.identity hc.content hfill

/-! ### A run -/

/-- **A run of regular calls is a run of writes to a map from units to blocks.** No call fails, no
unit has two regions behind the run, the regions stand where `put` has them, and each unit's
region says what its last call wrote, or what it said before if there was none. -/
theorem run_refines_put {d : Delimiters} (hd : d.Safe) {start : Option String}
    {es : List Region.Entry} (hs : Holds d start es) (hu : Tidy es) {calls : List Call}
    (hc : AllRegular d start.isSome calls) :
    ∃ final, run render d start calls = .ok final ∧ Holds d final (putAll calls es) ∧
      Tidy (putAll calls es) ∧
      ∀ u, lookup u (putAll calls es) =
        ((calls.filter (·.identity.unit == u)).getLast?.map Call.entry).or (lookup u es) := by
  suffices h : ∃ final, run render d start calls = .ok final ∧ Holds d final (putAll calls es) ∧
      Tidy (putAll calls es) by
    obtain ⟨final, hrun, hholds, htidy⟩ := h
    exact ⟨final, hrun, hholds, htidy, fun u => lookup_putAll u calls es⟩
  induction calls generalizing start es with
  | nil => exact ⟨start, rfl, hs, hu⟩
  | cons c calls ih =>
    obtain ⟨hreg, hcalls⟩ := hc
    obtain ⟨t, ht, hshows⟩ := exists_text_of_regular hd hs hu hreg
    have htidy : Tidy (put c.identity.unit c.entry es) := hu.put c.matchesUnit_entry
    have hholds : Holds d (some t) (put c.identity.unit c.entry es) := hshows
    obtain ⟨final, hrun, hfinal⟩ := ih hholds htidy hcalls
    refine ⟨final, ?_, hfinal⟩
    rw [run, ht]
    exact hrun

/-- Two units in a file that is not there yet, the first of them twice. -/
theorem run_refines_put_of_missing_file :
    ∃ final, run Template.render (.ofOptions .default ⟨"a.ts"⟩) none
        [⟨"one\n", ⟨⟨"t", "1", "a"⟩, []⟩, .default⟩, ⟨"two", ⟨⟨"t", "1", "b"⟩, []⟩, .default⟩,
          ⟨"three", ⟨⟨"t", "1", "a"⟩, []⟩, .default⟩] = .ok final ∧
      Holds (.ofOptions .default ⟨"a.ts"⟩) final
        [.mk (some ⟨⟨"t", "1", "a"⟩, []⟩) "three\n".toList,
          .mk (some ⟨⟨"t", "1", "b"⟩, []⟩) "two\n".toList] := by
  have hd := Delimiters.safe_ofOptions (o := .default) rfl rfl rfl ⟨"a.ts"⟩
  have hone : (⟨"t", "1", "a"⟩ : UnitName).HeaderSafe := by decide
  have htwo : (⟨"t", "1", "b"⟩ : UnitName).HeaderSafe := by decide
  have hstart : Holds (.ofOptions .default ⟨"a.ts"⟩) none [] := rfl
  have hempty : Tidy [] := fun _ => Nat.zero_le _
  have hcalls : AllRegular (.ofOptions .default ⟨"a.ts"⟩) (none : Option String).isSome
      [⟨"one\n", ⟨⟨"t", "1", "a"⟩, []⟩, .default⟩, ⟨"two", ⟨⟨"t", "1", "b"⟩, []⟩, .default⟩,
        ⟨"three", ⟨⟨"t", "1", "a"⟩, []⟩, .default⟩] :=
    ⟨⟨rfl, rfl, .inl rfl, hone.identity, by decide +kernel⟩,
      ⟨rfl, rfl, .inl rfl, htwo.identity, by decide +kernel⟩,
      ⟨rfl, rfl, .inl rfl, hone.identity, by decide +kernel⟩, trivial⟩
  obtain ⟨final, hrun, hholds, -, -⟩ := run_refines_put hd hstart hempty hcalls
  exact ⟨final, hrun, hholds⟩

end Scaffold.Merge
