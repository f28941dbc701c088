import Scaffold.Proofs.Region.Layout

/-!
# Scanning texts one behind the other

Behind a line outside of regions scanning begins anew, further down and further on
(`scanLines_shift`). So the regions of two texts, one behind the other, are those of the first and
those of the second, moved behind the first, and a second text that does not scan has the same
fault there (`scan_append`). The first text has to scan and to end its last line: an open region
would go on in the second text, and an open line would be one with its first line.
-/

namespace Scaffold

namespace Text

/-- Full lines have one line feed each. -/
theorem count_flatten {ls : List (List Char)} (h : ∀ l ∈ ls, IsFullLine l) :
    ls.flatten.count '\n' = ls.length := by
  induction ls with
  | nil => rfl
  | cons l ls ih =>
    obtain ⟨⟨t, ht, rfl⟩, hls⟩ := List.forall_mem_cons.1 h
    have hcount : t.count '\n' = 0 := List.count_eq_zero.2 ht
    simp only [List.flatten_cons, List.count_append, hcount, ih hls, List.length_cons]
    simp
    omega

/-- A closed text has as many lines as it has line feeds. -/
theorem length_lines {s : List Char} (h : Closed s) : (lines s).length = s.count '\n' := by
  rw [← count_flatten (isFullLine_of_mem_lines h), flatten_lines]

end Text

namespace Region

/-! ### Further down and further on -/

/-- The region, so many bytes further on. -/
def shift (r : Region) (bytes : Nat) : Region :=
  ⟨r.start + bytes, r.stop + bytes, r.contentStart + bytes, r.contentStop + bytes, r.identity?⟩

/-- The complaint, so many lines further down. -/
def Complaint.shift (lines : Nat) : Complaint → Complaint
  | .another startMarker line endMarker => .another startMarker (line + lines) endMarker
  | .missing endMarker => .missing endMarker

/-- The fault, so many lines further down. -/
def Fault.shift (f : Fault) (lines : Nat) : Fault := ⟨f.line + lines, f.complaint.shift lines⟩

/-- The open region, so many lines further down and so many bytes further on. -/
def Opened.shift (o : Opened) (lines bytes : Nat) : Opened :=
  ⟨o.line + lines, o.start + bytes, o.inside + bytes, o.lines⟩

/-- The outcome of a scan, so many lines further down and so many bytes further on. -/
def shiftOutcome (lines bytes : Nat) : Except Fault (List Region) → Except Fault (List Region)
  | .ok rs => .ok (rs.map (·.shift bytes))
  | .error f => .error (f.shift lines)

variable {d : Delimiters}

theorem Opened.shift_add (o : Opened) (lines bytes : Nat) (line : List Char) :
    (o.shift lines bytes).add line = (o.add line).shift lines bytes := rfl

theorem Opened.shift_close (o : Opened) (c : Comment) (lines bytes lineStart lineStop : Nat) :
    (o.shift lines bytes).close c (lineStart + bytes) (lineStop + bytes) =
      (o.close c lineStart lineStop).shift bytes := by
  rw [close, close]
  simp only [Opened.shift]
  split
  · simp only [Region.shift, Region.mk.injEq, and_true, true_and]
    omega
  · rfl

theorem shiftOutcome_cons (lines bytes : Nat) (r : Region)
    (outcome : Except Fault (List Region)) :
    shiftOutcome lines bytes (outcome.map (r :: ·)) =
      (shiftOutcome lines bytes outcome).map (r.shift bytes :: ·) := by
  cases outcome <;> rfl

/-- **Scanning does not depend on where it begins**: lines that begin further down and further on
have the same regions there, or the same fault. -/
theorem scanLines_shift (d : Delimiters) (lines bytes : Nat) (opened? : Option Opened)
    (n offset : Nat) (ls : List (List Char)) :
    scanLines d (opened?.map (·.shift lines bytes)) (n + lines) (offset + bytes) ls =
      shiftOutcome lines bytes (scanLines d opened? n offset ls) := by
  induction ls generalizing opened? n offset with
  | nil => cases opened? <;> rfl
  | cons line ls ih =>
    have hn : n + lines + 1 = n + 1 + lines := by omega
    have hoffset : offset + bytes + Text.width line = offset + Text.width line + bytes := by omega
    cases opened? with
    | none =>
      simp only [Option.map_none]
      by_cases hk : lineKind d line = .start
      · rw [scanLines_start hk, scanLines_start hk, hn, hoffset]
        exact ih (some ⟨n, offset, offset + Text.width line, []⟩) (n + 1) _
      · rw [scanLines_of_ne_start hk, scanLines_of_ne_start hk, hn, hoffset]
        exact ih none (n + 1) _
    | some o =>
      simp only [Option.map_some]
      cases hk : lineKind d line with
      | start =>
        rw [scanLines_some_start hk, scanLines_some_start hk]
        rfl
      | stop =>
        rw [scanLines_some_stop hk, scanLines_some_stop hk, hn, hoffset, Opened.shift_close,
          shiftOutcome_cons]
        exact congrArg _ (ih none (n + 1) _)
      | other =>
        rw [scanLines_some_other hk, scanLines_some_other hk, hn, hoffset, Opened.shift_add]
        exact ih (some (o.add line)) (n + 1) _

/-! ### One behind the other -/

/-- Behind lines that scan, scanning begins anew. -/
theorem scanLines_append {n offset : Nat} {ls : List (List Char)} {rs : List Region}
    (h : scanLines d none n offset ls = .ok rs) (more : List (List Char)) :
    scanLines d none n offset (ls ++ more) =
      (scanLines d none (n + ls.length) (offset + Text.width ls.flatten) more).map (rs ++ ·) := by
  obtain ⟨y, hy, rfl, rfl⟩ := scanLines_eq_ok.1 h
  exact scanLines_layout_append hy n offset more

/-- **Scanning is compositional between lines.** Behind a text that scans and ends its last line,
a text that scans adds its regions, as many bytes further on as the first text has, with the same
identities; and a text that does not scan has its fault as many lines further down as the first
text has line feeds. -/
theorem scan_append {a b : String} (ha : Text.Closed a.toList) {ra : List Region}
    (hra : scan d a = .ok ra) :
    (∀ rb, scan d b = .ok rb →
      scan d (a ++ b) = .ok (ra ++ rb.map (·.shift (Text.width a.toList)))) ∧
    ∀ f, scan d b = .error f → scan d (a ++ b) = .error (f.shift (a.toList.count '\n')) := by
  have hlines : Text.lines (a ++ b).toList = Text.lines a.toList ++ Text.lines b.toList := by
    rw [String.toList_append, Text.lines_append ha]
  have hscan : scan d (a ++ b) =
      (shiftOutcome (a.toList.count '\n') (Text.width a.toList) (scan d b)).map (ra ++ ·) := by
    rw [scan, hlines, scanLines_append hra, Text.length_lines ha, Text.flatten_lines]
    exact congrArg _ (scanLines_shift d _ _ none 1 0 _)
  refine ⟨fun rb hrb => ?_, fun f hf => ?_⟩
  · rw [hscan, hrb]
    rfl
  · rw [hscan, hf]
    rfl

/-- Behind a region that follows a wide character, another region that ends the text without a
line feed, and a region that is not closed. -/
theorem scan_append_of_wide_character :
    ∃ a, Text.Closed a.toList ∧
      scan (.ofOptions .default ⟨"a.ts"⟩) a =
        .ok [⟨4, 71, 51, 53, some ⟨⟨"t", "1", "p"⟩, []⟩⟩] ∧
      scan (.ofOptions .default ⟨"a.ts"⟩) (a ++ "// @scf-region\n// @scf-endregion") =
        .ok [⟨4, 71, 51, 53, some ⟨⟨"t", "1", "p"⟩, []⟩⟩, ⟨71, 103, 86, 86, none⟩] ∧
      scan (.ofOptions .default ⟨"a.ts"⟩)
          (a ++ "// @scf-endregion\n// @scf-region\ny\n// @scf-region\n") =
        .error ⟨9, .another "@scf-region" 11 "@scf-endregion"⟩ := by
  obtain ⟨a, ha, hra, hwidth, hcount⟩ : ∃ a : String, Text.Closed a.toList ∧
      scan (.ofOptions .default ⟨"a.ts"⟩) a =
        .ok [⟨4, 71, 51, 53, some ⟨⟨"t", "1", "p"⟩, []⟩⟩] ∧
      Text.width a.toList = 71 ∧ a.toList.count '\n' = 7 := by
    refine ⟨"é\r\n// @scf-region\n// template: t@1\n// partial: p\n\nx\n// @scf-endregion\n",
      ?_, rfl, rfl, rfl⟩
    intro c hc
    exact (Option.some.inj hc).symm
  have hregion := (scan_append (b := "// @scf-region\n// @scf-endregion") ha hra).1
    [⟨0, 32, 15, 15, none⟩] rfl
  have hfault := (scan_append
    (b := "// @scf-endregion\n// @scf-region\ny\n// @scf-region\n") ha hra).2
    ⟨2, .another "@scf-region" 4 "@scf-endregion"⟩ rfl
  rw [hwidth] at hregion
  rw [hcount] at hfault
  exact ⟨a, ha, hra, hregion, hfault⟩

end Region

end Scaffold
