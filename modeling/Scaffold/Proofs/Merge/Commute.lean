import Scaffold.Proofs.Merge.Idempotence

/-!
# Merges of two units commute

A merge into a text in which one region comes from its unit puts other lines in the place of that
region (`renew`) and leaves every other line as it is (`text_renews`). What it puts there depends
on that region alone, it keeps the unit, and it ends as the region ended. So merges of two units
touch different lines of one layout, and their order does not show in the text (`text_comm`): the
places that the first merge moves are looked up again by the second.
-/

namespace Scaffold.Merge

open Region

/-- A merge of content that can stand between markers: the block has the usual shape, the markers
are safe, the header of the identity is read as that identity, and no line of the content is a
marker line. -/
structure Renews (input : MergeInput) : Prop where
  template : input.options.annotationTemplate = none
  delimiters : input.delimiters.Safe
  decodes : input.identity.Decodes input.delimiters.comment
  content : NoMarkers input.delimiters input.content.toList

theorem Renews.identity {input : MergeInput} (h : Renews input) : input.identity.HeaderSafe :=
  (Identity.decodes_iff h.delimiters.proper).1 h.decodes

/-! ### What a merge puts in the place of a region -/

/-- The stretch with a fresh block as its region. -/
def withBlock (input : MergeInput) (x : Stretch) : Stretch :=
  ⟨x.before, Text.row input.delimiters.startLine,
    Block.inner input.delimiters input.identity input.content,
    closerLike input.delimiters x.regionLines.flatten⟩

/-- The stretch behind a merge: a region of the unit gets a fresh block or fresh content, and any
other stays as it is. -/
def renew (input : MergeInput) (x : Stretch) : Stretch :=
  if x.matchesUnit input.delimiters input.identity.unit then
    if input.options.annotate then withBlock input x
    else x.withBody (bareLines input.content)
  else x

/-- The layout behind a merge. -/
def renewAll (input : MergeInput) (y : Layout) : Layout := ⟨y.stretches.map (renew input), y.rest⟩

variable {render : Template.Renderer} {input : MergeInput}

theorem renew_of_matches {x : Stretch}
    (h : x.matchesUnit input.delimiters input.identity.unit = true) :
    renew input x = if input.options.annotate then withBlock input x
      else x.withBody (bareLines input.content) := if_pos h

theorem renew_of_not_matches {x : Stretch}
    (h : x.matchesUnit input.delimiters input.identity.unit = false) : renew input x = x := by
  rw [renew, h]
  rfl

/-- The units of a stretch are at most one. -/
theorem unit_eq_of_matchesUnit {d : Delimiters} {u v : UnitName} {x : Stretch}
    (hu : x.matchesUnit d u = true) (hv : x.matchesUnit d v = true) : u = v := by
  obtain ⟨i, hi, hiu⟩ := (Option.any_eq_true _ _).1 hu
  obtain ⟨j, hj, hjv⟩ := (Option.any_eq_true _ _).1 hv
  obtain rfl := Option.some.inj (hi.symm.trans hj)
  exact (beq_iff_eq.1 hiu).symm.trans (beq_iff_eq.1 hjv)

/-- A merge keeps the unit of every region. -/
theorem matchesUnit_renew (h : Renews input) (v : UnitName) (x : Stretch) :
    (renew input x).matchesUnit input.delimiters v = x.matchesUnit input.delimiters v := by
  cases hx : x.matchesUnit input.delimiters input.identity.unit with
  | false => rw [renew_of_not_matches hx]
  | true =>
    obtain ⟨i, hi, hunit⟩ := (Option.any_eq_true _ _).1 hx
    have hold : x.matchesUnit input.delimiters v = (i.unit == v) := by
      rw [Stretch.matchesUnit, Entry.matchesUnit, hi]
      rfl
    rw [renew_of_matches hx, hold]
    split
    · have hentry := Block.entry_of_inner (x := withBlock input x) h.delimiters h.identity rfl
      rw [Stretch.matchesUnit, hentry, beq_iff_eq.1 hunit]
      rfl
    · obtain ⟨-, -, hidentity⟩ := Stretch.parts_withBody hi (bareLines input.content)
      have hentry : ((x.withBody (bareLines input.content)).entry input.delimiters).identity? =
          some i := hidentity
      rw [Stretch.matchesUnit, Entry.matchesUnit, hentry]
      rfl

/-- Stretches of a unit are as many behind a merge as before. -/
theorem filter_map_renew (h : Renews input) (v : UnitName) (xs : List Stretch) :
    (xs.map (renew input)).filter (·.matchesUnit input.delimiters v) =
      (xs.filter (·.matchesUnit input.delimiters v)).map (renew input) := by
  rw [List.filter_map]
  congr 2
  funext x
  exact matchesUnit_renew h v x

/-! ### One merge -/

/-- The lines that a merge puts in the place of a region can stand where the region stood. -/
theorem Renews.encloses (h : Renews input) {z : Surroundings} {x : Stretch}
    (hz : z.Encloses input.delimiters x)
    (hf : z.Foreign input.delimiters input.identity.unit) :
    z.Encloses input.delimiters (renew input x) := by
  cases hx : x.matchesUnit input.delimiters input.identity.unit with
  | false => rwa [renew_of_not_matches hx]
  | true =>
    rw [renew_of_matches hx]
    split
    · have hblock := (Place.instead h.delimiters hz hf).encloses h.delimiters h.identity h.content
      simp only [Place.instead, Place.stretch, ← hz.before] at hblock
      exact hblock
    · exact hz.withBody h.delimiters (isFullLine_of_mem_bareLines input.content)
        (lineKind_of_mem_bareLines h.delimiters h.content)

/-- A merge puts these lines there. -/
theorem Renews.exists_text (h : Renews input) {z : Surroundings} {x : Stretch}
    (hz : z.Encloses input.delimiters x) (hf : z.Foreign input.delimiters input.identity.unit)
    (hx : x.matchesUnit input.delimiters input.identity.unit = true) {s : String}
    (hs : s.toList = z.fill x.regionLines.flatten) :
    ∃ t, text { input with destination? := some s } render = .ok (some t) ∧
      t.toList = z.fill (renew input x).regionLines.flatten := by
  obtain ⟨rs, hscan, hfilter⟩ := hz.exists_scan hf hx hs
  cases ha : input.options.annotate with
  | true =>
    have hann : Annotates { input with destination? := some s } :=
      ⟨ha, h.template, h.delimiters, h.identity⟩
    refine ⟨_, (text_eq_ok (hann.block_eq render)).2 (.matched rfl hscan hfilter), ?_⟩
    have hregion : (withBlock input x).regionLines.flatten =
        Block.text input.delimiters input.identity input.content
          (closerLike input.delimiters x.regionLines.flatten) := by
      simp [withBlock, Stretch.regionLines, Block.text]
    rw [if_pos ha, toList_swapRegion h.delimiters hz hs, renew_of_matches hx, if_pos ha, hregion]
  | false =>
    have hblock : block { input with destination? := some s } render = .ok input.content := by
      simp [block, ha]
    refine ⟨_, (text_eq_ok hblock).2 (.matched rfl hscan hfilter), ?_⟩
    simp only [ha, Bool.false_eq_true, if_false]
    rw [toList_swapContent hz.before hs, renew_of_matches hx, ha]
    rfl

/-- Stretches of other units stay as they are. -/
theorem map_renew_of_foreign {zs : List Stretch}
    (h : ∀ z ∈ zs, z.matchesUnit input.delimiters input.identity.unit = false) :
    zs.map (renew input) = zs := by
  have hsame : ∀ z ∈ zs, renew input z = id z := fun z hz => renew_of_not_matches (h z hz)
  rw [List.map_congr_left hsame, List.map_id]

/-- **A merge into a text with one region of the unit** gives the text in which that region is
renewed, and every other line is what it was. -/
theorem text_renews (h : Renews input) {y : Layout} (hy : y.Fits input.delimiters) {s : String}
    (hs : Text.lines s.toList = y.lines) {x : Stretch}
    (hx : y.stretches.filter (·.matchesUnit input.delimiters input.identity.unit) = [x]) :
    ∃ t, text { input with destination? := some s } render = .ok (some t) ∧
      (renewAll input y).Fits input.delimiters ∧
      Text.lines t.toList = (renewAll input y).lines := by
  obtain ⟨before, after, hsplit, hbefore, hmatch, hafter⟩ := List.filter_eq_cons_iff.1 hx
  have hforeign : ∀ z ∈ before ++ after,
      z.matchesUnit input.delimiters input.identity.unit = false := by
    refine List.forall_mem_append.2 ⟨fun z hz => ?_, fun z hz => ?_⟩
    · exact Bool.eq_false_iff.2 (hbefore z hz)
    · exact Bool.eq_false_iff.2 (List.filter_eq_nil_iff.1 hafter z hz)
  obtain ⟨hencloses, hfill⟩ := Surroundings.encloses_of_layout hy hs hsplit
  obtain ⟨t, htext, ht⟩ := h.exists_text hencloses hforeign hmatch hfill
  have hnew := h.encloses hencloses hforeign
  obtain ⟨hbefore, hafter⟩ := List.forall_mem_append.1 hforeign
  have hlayout : renewAll input y =
      (⟨before, x.before, after, y.rest⟩ : Surroundings).layout (renew input x) := by
    rw [renewAll, hsplit, List.map_append, List.map_cons, map_renew_of_foreign hbefore,
      map_renew_of_foreign hafter]
    rfl
  rw [hlayout]
  exact ⟨t, htext, hnew.fits_layout, hnew.lines_layout ht⟩

/-! ### Two merges -/

variable {a b : MergeInput}

/-- Two units renew different stretches. -/
theorem renew_comm (ha : Renews a) (hb : Renews b) (hd : a.delimiters = b.delimiters)
    (hne : a.identity.unit ≠ b.identity.unit) (x : Stretch) :
    renew b (renew a x) = renew a (renew b x) := by
  cases hxa : x.matchesUnit a.delimiters a.identity.unit with
  | false =>
    have hxa' : (renew b x).matchesUnit a.delimiters a.identity.unit = false := by
      rw [hd, matchesUnit_renew hb, ← hd, hxa]
    rw [renew_of_not_matches hxa, renew_of_not_matches hxa']
  | true =>
    have hxb : x.matchesUnit b.delimiters b.identity.unit = false := by
      refine Bool.eq_false_iff.2 fun h => hne ?_
      exact unit_eq_of_matchesUnit hxa (hd ▸ h)
    have hxb' : (renew a x).matchesUnit b.delimiters b.identity.unit = false := by
      rw [← hd, matchesUnit_renew ha, hd, hxb]
    rw [renew_of_not_matches hxb, renew_of_not_matches hxb']

theorem renewAll_comm (ha : Renews a) (hb : Renews b) (hd : a.delimiters = b.delimiters)
    (hne : a.identity.unit ≠ b.identity.unit) (y : Layout) :
    renewAll b (renewAll a y) = renewAll a (renewAll b y) := by
  simp only [renewAll, List.map_map, Layout.mk.injEq, and_true]
  refine List.map_congr_left fun x _ => ?_
  exact renew_comm ha hb hd hne x

/-- A merge behind a merge of another unit renews its own region there. -/
theorem text_renews_both (ha : Renews a) (hb : Renews b) (hd : a.delimiters = b.delimiters)
    {y : Layout} (hy : y.Fits a.delimiters) {s : String} (hs : Text.lines s.toList = y.lines)
    {xa xb : Stretch}
    (hxa : y.stretches.filter (·.matchesUnit a.delimiters a.identity.unit) = [xa])
    (hxb : y.stretches.filter (·.matchesUnit b.delimiters b.identity.unit) = [xb]) :
    ∃ sa t, text { a with destination? := some s } render = .ok (some sa) ∧
      text { b with destination? := some sa } render = .ok (some t) ∧
      Text.lines t.toList = (renewAll b (renewAll a y)).lines := by
  obtain ⟨sa, hsa, hfits, hlines⟩ := text_renews ha hy hs hxa
  have hone : (renewAll a y).stretches.filter (·.matchesUnit b.delimiters b.identity.unit) =
      [renew a xb] := by
    rw [← hd, renewAll, filter_map_renew ha, hd, hxb]
    rfl
  obtain ⟨t, ht, -, hlines'⟩ := text_renews hb (hd ▸ hfits) hlines hone
  exact ⟨sa, t, hsa, ht, hlines'⟩

/-- One region of a text comes from a unit where one stretch does. -/
theorem exists_filter_eq_singleton {d : Delimiters} {u : UnitName} {offset : Nat}
    {xs : List Stretch} {r : Region}
    (h : (regionsFrom d offset xs).filter (·.matchesUnit u) = [r]) :
    ∃ x, xs.filter (·.matchesUnit d u) = [x] := by
  obtain ⟨before, x, after, rfl, hx, hforeign, -⟩ := filter_matchesUnit_eq_singleton.1 h
  obtain ⟨hbefore, hafter⟩ := List.forall_mem_append.1 hforeign
  refine ⟨x, List.filter_eq_cons_iff.2 ⟨before, after, rfl, ?_, hx, ?_⟩⟩
  · intro z hz
    exact Bool.eq_false_iff.1 (hbefore z hz)
  · refine List.filter_eq_nil_iff.2 fun z hz => ?_
    exact Bool.eq_false_iff.1 (hafter z hz)

/-- **Merges of two units commute.** A text with one region of each of two units takes in the
content of both, annotated or bare, and is the same text afterwards in whichever order. -/
theorem text_comm (render : Template.Renderer) (hd : a.delimiters = b.delimiters) (ha : Renews a)
    (hb : Renews b) (hne : a.identity.unit ≠ b.identity.unit) {s : String} {rs : List Region}
    (hs : scan a.delimiters s = .ok rs) {ra rb : Region}
    (hra : rs.filter (·.matchesUnit a.identity.unit) = [ra])
    (hrb : rs.filter (·.matchesUnit b.identity.unit) = [rb]) :
    ∃ sa sb t, text { a with destination? := some s } render = .ok (some sa) ∧
      text { b with destination? := some sa } render = .ok (some t) ∧
      text { b with destination? := some s } render = .ok (some sb) ∧
      text { a with destination? := some sb } render = .ok (some t) := by
  obtain ⟨y, hy, hlines, rfl⟩ := scan_eq_ok.1 hs
  obtain ⟨xa, hxa⟩ := exists_filter_eq_singleton hra
  obtain ⟨xb, hxb⟩ := exists_filter_eq_singleton hrb
  rw [hd] at hxb
  obtain ⟨sa, t, hsa, ht, hab⟩ := text_renews_both ha hb hd hy hlines hxa hxb
  obtain ⟨sb, t', hsb, ht', hba⟩ := text_renews_both hb ha hd.symm (hd ▸ hy) hlines hxb hxa
  -- both texts have the lines of one layout
  have hsame : t = t' := by
    refine String.toList_inj.1 ?_
    rw [← Text.flatten_lines t.toList, ← Text.flatten_lines t'.toList, hab, hba,
      renewAll_comm ha hb hd hne]
  exact ⟨sa, sb, t, hsa, ht, hsb, hsame ▸ ht'⟩

set_option maxRecDepth 1000 in
/-- A block for the first region, and bare content for the second, which ends the text without a
line feed. -/
theorem text_comm_of_bare_content_at_end :
    ∃ s sa sb t,
      s = "// @scf-region\n// template: t@1\n// partial: p\n\nx\n// @scf-endregion\n" ++
        "// @scf-region\n// template: t@1\n// partial: q\n\n// @scf-endregion" ∧
      text ⟨some s, "a\nb", ⟨⟨"t", "1", "p"⟩, []⟩, .ofOptions .default ⟨"a.ts"⟩, .default⟩ =
        .ok (some sa) ∧
      text ⟨some sa, "c", ⟨⟨"t", "1", "q"⟩, []⟩, .ofOptions .default ⟨"a.ts"⟩,
        { Options.default with annotate := false }⟩ = .ok (some t) ∧
      text ⟨some s, "c", ⟨⟨"t", "1", "q"⟩, []⟩, .ofOptions .default ⟨"a.ts"⟩,
        { Options.default with annotate := false }⟩ = .ok (some sb) ∧
      text ⟨some sb, "a\nb", ⟨⟨"t", "1", "p"⟩, []⟩, .ofOptions .default ⟨"a.ts"⟩, .default⟩ =
        .ok (some t) := by
  have hd : (Delimiters.ofOptions .default ⟨"a.ts"⟩).Safe :=
    Delimiters.safe_ofOptions rfl rfl rfl ⟨"a.ts"⟩
  have hp : (⟨"t", "1", "p"⟩ : UnitName).HeaderSafe := by decide
  have hq : (⟨"t", "1", "q"⟩ : UnitName).HeaderSafe := by decide
  have ha : Renews
      ⟨none, "a\nb", ⟨⟨"t", "1", "p"⟩, []⟩, .ofOptions .default ⟨"a.ts"⟩, .default⟩ :=
    ⟨rfl, hd, (Identity.decodes_iff hd.proper).2 hp.identity, by decide +kernel⟩
  have hb : Renews ⟨none, "c", ⟨⟨"t", "1", "q"⟩, []⟩, .ofOptions .default ⟨"a.ts"⟩,
      { Options.default with annotate := false }⟩ :=
    ⟨rfl, hd, (Identity.decodes_iff hd.proper).2 hq.identity, by decide +kernel⟩
  obtain ⟨s, heq, hs⟩ : ∃ s,
      s = "// @scf-region\n// template: t@1\n// partial: p\n\nx\n// @scf-endregion\n" ++
        "// @scf-region\n// template: t@1\n// partial: q\n\n// @scf-endregion" ∧
      scan (.ofOptions .default ⟨"a.ts"⟩) s =
        .ok [⟨0, 67, 47, 49, some ⟨⟨"t", "1", "p"⟩, []⟩⟩,
          ⟨67, 131, 114, 114, some ⟨⟨"t", "1", "q"⟩, []⟩⟩] := ⟨_, rfl, rfl⟩
  obtain ⟨sa, sb, t, hcomm⟩ :=
    text_comm Template.render (by rfl) ha hb (by decide) hs (by rfl) (by rfl)
  exact ⟨s, sa, sb, t, heq, hcomm⟩

end Scaffold.Merge
