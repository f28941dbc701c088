import Scaffold.FileOptions
import Scaffold.Proofs.Comment
import Scaffold.Proofs.Directive.Scan
import Scaffold.Proofs.Json.Stray
import Scaffold.Proofs.Region.Layout

/-!
# Directives between regions

A directive reads on to the end of its object, and so it could read into the region behind it.
It does not get past the start line: no JSON text goes on there (`Fence`). So what stands before a
region is read as if nothing followed it (`payloads?_append`), and the payloads of a text with
regions are those of the gaps between its regions, each gap read alone (`payloads?_layout`).
-/

namespace Scaffold

namespace Directive

/-! ### Payloads -/

/-- The payloads of directives, if all of them can be read. -/
def payloads? (r : Except Fault (List Directive)) : Option (List Json.Members) :=
  r.toOption.map (·.map Directive.payload)

/-- The payload of an object, wherever it stands. -/
def payload? (object : List Char) : Option Json.Members :=
  (Json.document Json.value object).toOption.bind fun v => (membersOf v).toOption

/-- The members of one list behind those of another. -/
def both {α : Type} (a b : Option (List α)) : Option (List α) := a.bind fun x => b.map (x ++ ·)

section
variable {α : Type}

@[simp] theorem both_none (b : Option (List α)) : both none b = none := rfl

@[simp] theorem both_nil (b : Option (List α)) : both (some []) b = b := by simp [both]

@[simp] theorem nil_both (a : Option (List α)) : both a (some []) = a := by simp [both]

theorem both_cons (x : α) (a b : Option (List α)) :
    both (a.map (x :: ·)) b = (both a b).map (x :: ·) := by
  cases a <;> cases b <;> rfl

end

theorem toOption_readPayload (line : Nat) (object : List Char) :
    (readPayload line object).toOption = payload? object := by
  rw [readPayload, payload?]
  cases Json.document Json.value object with
  | error e => rfl
  | ok v =>
    dsimp only [Except.toOption, Option.bind]
    cases membersOf v <;> rfl

/-- The payloads of a text that is read alone. -/
def alone (marker : String) (s : List Char) : Option (List Json.Members) :=
  payloads? (scanFrom marker [] 0 .first s)

variable {marker : String} {frozen : List (Nat × Nat)} {p : Place} {after : List Char}

theorem payloads?_of_prose (hm : marker.toList ≠ []) (hf : isFrozen frozen p.offset = false)
    (h : (after.dropWhile Text.isBlank).head? ≠ some '{') :
    payloads? (scanFrom marker frozen 0 p (marker.toList ++ after)) =
      payloads? (scanFrom marker frozen 0 (p.behind marker.toList) after) := by
  rw [scanFrom_marker hm, hf, found_of_prose h]
  rfl

theorem payloads?_of_open (hm : marker.toList ≠ []) (hf : isFrozen frozen p.offset = false)
    (h : (after.dropWhile Text.isBlank).head? = some '{')
    (hobject : object? (after.dropWhile Text.isBlank) = none) :
    payloads? (scanFrom marker frozen 0 p (marker.toList ++ after)) = none := by
  rw [scanFrom_marker hm, hf, found_of_open h hobject]
  rfl

theorem payloads?_of_object (hm : marker.toList ≠ []) (hf : isFrozen frozen p.offset = false)
    (h : (after.dropWhile Text.isBlank).head? = some '{') {object rest : List Char}
    (hobject : object? (after.dropWhile Text.isBlank) = some (object, rest)) :
    payloads? (scanFrom marker frozen 0 p (marker.toList ++ after)) =
      (payload? object).bind fun members =>
        (payloads? (scanFrom marker frozen 0
          (p.behind (marker.toList ++ after.takeWhile Text.isBlank ++ object)) rest)).map
            (members :: ·) := by
  rw [scanFrom_marker hm, hf, found_of_object h hobject, ← toOption_readPayload p.line]
  simp only [bind, Except.bind, Bool.false_eq_true, if_false]
  cases readPayload p.line object with
  | error e => rfl
  | ok members =>
    cases scanFrom marker frozen 0
      (p.behind (marker.toList ++ after.takeWhile Text.isBlank ++ object)) rest <;> rfl

/-! ### Fences -/

theorem takeWhile_append_of_dropWhile_ne_nil {q : Char → Bool} {s : List Char}
    (h : s.dropWhile q ≠ []) (t : List Char) :
    (s ++ t).takeWhile q = s.takeWhile q ∧ (s ++ t).dropWhile q = s.dropWhile q ++ t := by
  induction s with
  | nil => exact absurd rfl h
  | cons c s ih =>
    by_cases hc : q c
    · rw [List.dropWhile_cons_of_pos hc] at h
      simp [hc, ih h]
    · simp [hc]

/-- A text that no directive before it reads into: it begins a line, no object begins there, and an
object that goes on there has a line that no JSON text has. -/
structure Fence (r : List Char) : Prop where
  head : ∀ c ∈ r.head?, c = '\n'
  prose : (r.dropWhile Text.isBlank).head? ≠ some '{'
  stray : ∀ a b, r = a ++ b → '}' ∈ a → ∃ l, '\n' :: l <:+ a ∧ Json.Stray (Json.skipSpace l)

theorem fence_nil : Fence [] where
  head := by simp
  prose := by simp
  stray a b h hm := by
    obtain ⟨rfl, -⟩ := List.append_eq_nil_iff.1 h.symm
    cases hm

theorem fence_lineFeed : Fence ['\n'] where
  head := by simp
  prose := by decide
  stray a b h hm := by
    have : '}' ∈ ['\n'] := h ▸ List.mem_append_left b hm
    simp at this

/-- Text behind a mark that no object follows is no object before a fence either. -/
theorem head?_append_of_prose {r : List Char} (hr : Fence r)
    (h : (after.dropWhile Text.isBlank).head? ≠ some '{') :
    ((after ++ r).dropWhile Text.isBlank).head? ≠ some '{' := by
  rw [List.dropWhile_append]
  split
  · exact hr.prose
  · next hne => rwa [List.head?_append_of_ne_nil _ (by simpa using hne)]

/-- Text behind a mark that begins with a brace has the same blanks before it, whatever follows. -/
theorem cut_append_of_brace (h : (after.dropWhile Text.isBlank).head? = some '{') (r : List Char) :
    (after ++ r).takeWhile Text.isBlank = after.takeWhile Text.isBlank ∧
      (after ++ r).dropWhile Text.isBlank = after.dropWhile Text.isBlank ++ r ∧
      ((after ++ r).dropWhile Text.isBlank).head? = some '{' := by
  obtain ⟨w, hw⟩ := List.head?_eq_some_iff.1 h
  have hne : after.dropWhile Text.isBlank ≠ [] := hw ▸ List.cons_ne_nil _ _
  obtain ⟨htake, hdrop⟩ := takeWhile_append_of_dropWhile_ne_nil hne r
  exact ⟨htake, hdrop, by rw [hdrop, hw]; rfl⟩

/-- An object that is open at a fence is not read: it stays open, or it has a stray line in it. -/
theorem payloads?_append_of_open (hm : marker.toList ≠ []) (hf : isFrozen frozen p.offset = false)
    {r : List Char} (hr : Fence r) (h : (after.dropWhile Text.isBlank).head? = some '{')
    (hobject : object? (after.dropWhile Text.isBlank) = none) :
    payloads? (scanFrom marker frozen 0 p (marker.toList ++ (after ++ r))) = none := by
  obtain ⟨-, hdrop, hhead⟩ := cut_append_of_brace h r
  cases hcross : object? ((after ++ r).dropWhile Text.isBlank) with
  | none => exact payloads?_of_open hm hf hhead hcross
  | some cut =>
    obtain ⟨object, rest⟩ := cut
    rw [payloads?_of_object hm hf hhead hcross]
    rw [hdrop] at hcross
    obtain ⟨more, rfl, hmore, hbrace⟩ := untilClosed?_append_of_none hobject hcross
    obtain ⟨l, hl, hstray⟩ := hr.stray more rest hmore hbrace
    have hrefused := Json.document_ne_ok hstray
      (hl.trans (List.suffix_append (after.dropWhile Text.isBlank) more))
    rw [payload?]
    cases hd : Json.document Json.value (after.dropWhile Text.isBlank ++ more) with
    | error e => rfl
    | ok v => exact absurd hd (hrefused v)

/-- **What stands before a fence is read as if nothing followed it.** -/
theorem payloads?_append (hm : marker.toList ≠ []) (hn : '\n' ∉ marker.toList) {g r : List Char}
    (hr : Fence r) (q : Place) (hg : Unfrozen frozen p.offset g) :
    payloads? (scanFrom marker frozen 0 p (g ++ r)) =
      both (payloads? (scanFrom marker [] 0 q g))
        (payloads? (scanFrom marker frozen 0 (p.behind g) r)) := by
  induction g using cut_induction hm generalizing p q with
  | nil => exact (both_nil _).symm
  | plain c g hnone ih =>
    have hnone' := stripStart?_append_of_none hn (by simp) (.inr hr.head) hnone
    rw [List.cons_append] at hnone' ⊢
    rw [scanFrom_of_none hnone', scanFrom_of_none hnone, Place.behind_cons]
    refine ih (q.step c) ?_
    simpa using Unfrozen.append_right (s := [c]) hg
  | mark after ih =>
    have hfirst : isFrozen frozen p.offset = false := by
      refine hg p.offset le_rfl ?_
      obtain ⟨c, m, hcm⟩ := List.exists_cons_of_ne_nil hm
      have := c.utf8Size_pos
      simp only [hcm, List.cons_append, Text.width_cons]
      omega
    rw [List.append_assoc, Place.behind_append]
    by_cases hhead : (after.dropWhile Text.isBlank).head? = some '{'
    · obtain ⟨htake, hdrop, hhead'⟩ := cut_append_of_brace hhead r
      cases hobject : object? (after.dropWhile Text.isBlank) with
      | none =>
        rw [payloads?_append_of_open hm hfirst hr hhead hobject,
          payloads?_of_open hm rfl hhead hobject, both_none]
      | some cut =>
        obtain ⟨object, rest⟩ := cut
        have hobject' : object? ((after ++ r).dropWhile Text.isBlank) =
            some (object, rest ++ r) := by
          rw [hdrop]
          exact untilClosed?_append hobject r
        have hparts : after.takeWhile Text.isBlank ++ object ++ rest = after := by
          rw [List.append_assoc, ← (untilClosed?_eq_some hobject).1,
            List.takeWhile_append_dropWhile]
        rw [payloads?_of_object hm hfirst hhead' hobject',
          payloads?_of_object hm rfl hhead hobject, htake]
        generalize after.takeWhile Text.isBlank = blanks at hparts ⊢
        cases payload? object with
        | none => rfl
        | some members =>
          have hrest :
              Unfrozen frozen (p.behind (marker.toList ++ blanks ++ object)).offset rest := by
            rw [Place.offset_behind]
            refine Unfrozen.append_right ?_
            simpa [← hparts] using hg
          dsimp only [Option.bind]
          rw [ih rest ⟨blanks ++ object, hparts⟩
            (q.behind (marker.toList ++ blanks ++ object)) hrest, both_cons, ← hparts]
          simp
    · rw [payloads?_of_prose hm hfirst (head?_append_of_prose hr hhead),
        payloads?_of_prose hm rfl hhead]
      refine ih after List.suffix_rfl (q.behind marker.toList) ?_
      simpa using hg.append_right

/-! ### Start lines as fences -/

/-- What comments open with in files that declare nothing. -/
theorem opener_forPath (path : Path) :
    (Comment.forPath path).opener ∈ ["//", "<!--", "/*", "--", "%", "::", "#"] := by
  unfold Comment.forPath Comment.forExtension
  simp only
  split_ifs <;> decide

/-- No object begins with what a comment opens with, none ends in it, and no JSON text goes on
there. -/
structure Bars (opener : List Char) : Prop where
  word : Text.IsWord opener
  open_not_mem : '{' ∉ opener
  close_not_mem : '}' ∉ opener
  stray : ∀ s, Json.Stray (opener ++ s)

theorem bars_forPath (path : Path) : Bars (Comment.forPath path).opener.toList := by
  have h := opener_forPath path
  simp only [List.mem_cons, List.not_mem_nil, or_false] at h
  rcases h with h | h | h | h | h | h | h <;>
    rw [h] <;> refine ⟨by decide, by decide, by decide, ?_⟩
  · exact fun s => .other (by decide)
  · exact fun s => .other (by decide)
  · exact fun s => .other (by decide)
  · exact fun s => .dashes
  · exact fun s => .other (by decide)
  · exact fun s => .colons
  · exact fun s => .other (by decide)

/-- White space of JSON is blank. -/
theorem isBlank_of_isSpace {c : Char} (h : Json.isSpace c) : Text.isBlank c := by
  simp only [Json.isSpace, Bool.or_eq_true, beq_iff_eq] at h
  rcases h with ((rfl | rfl) | rfl) | rfl <;> decide

theorem not_isDigit_of_isBlank {c : Char} (h : Text.isBlank c) : c.isDigit = false := by
  by_contra hd
  simp only [Char.isDigit, Bool.not_eq_false, Bool.and_eq_true, decide_eq_true_eq,
    UInt32.le_iff_toNat_le, ge_iff_le] at hd
  simp only [Text.isBlank, Bool.or_eq_true, Bool.and_eq_true, decide_eq_true_eq, beq_iff_eq,
    Char.toNat] at h
  have hlow : 48 ≤ c.val.toNat := hd.1
  have hhigh : c.val.toNat ≤ 57 := hd.2
  omega

/-- A blank that JSON does not know begins no lexeme. -/
theorem beginsLexeme_of_isBlank {c : Char} (h : Text.isBlank c) (hs : Json.isSpace c = false) :
    Json.beginsLexeme c = false := by
  rw [Json.beginsLexeme, hs, not_isDigit_of_isBlank h]
  by_contra hm
  rw [Bool.not_eq_false, Bool.false_or, Bool.false_or, List.contains_iff_mem] at hm
  have hblank : ['"', '{', '}', '[', ']', ':', ',', '-', 'n', 't', 'f'].all
      (!Text.isBlank ·) = true := by decide
  exact absurd h (by simpa using List.all_eq_true.1 hblank c hm)

theorem Bars.stray_skipSpace {opener : List Char} (h : Bars opener) {before : List Char}
    (hb : ∀ c ∈ before, Text.isBlank c) (s : List Char) :
    Json.Stray (Json.skipSpace (before ++ (opener ++ s))) := by
  induction before with
  | nil =>
    obtain ⟨c, t, rfl⟩ := List.exists_cons_of_ne_nil h.word.1
    have hspace : ¬ Json.isSpace c := fun hc =>
      absurd (isBlank_of_isSpace hc) (by simp [h.word.2 c List.mem_cons_self])
    rw [List.nil_append, List.cons_append, Json.skipSpace, List.dropWhile_cons_of_neg hspace]
    exact h.stray s
  | cons c before ih =>
    obtain ⟨hc, hb⟩ := List.forall_mem_cons.1 hb
    cases hs : Json.isSpace c with
    | true =>
      rw [List.cons_append, Json.skipSpace, List.dropWhile_cons_of_pos hs]
      exact ih hb
    | false =>
      rw [List.cons_append, Json.skipSpace, List.dropWhile_cons_of_neg (by simp [hs])]
      exact .other (beginsLexeme_of_isBlank hc hs)

/-- A line that is a comment is a fence, whatever stands on it and below. -/
theorem Bars.fence {c : Comment} (h : Bars c.opener.toList) {line text : List Char}
    (hl : c.strip? line = some text) (r : List Char) : Fence ('\n' :: (line ++ r)) := by
  obtain ⟨t, ht, -⟩ := Option.bind_eq_some_iff.1 hl
  obtain ⟨before, after, hbefore, -, hline⟩ := Text.exists_pad line
  rw [Text.stripStart?_eq_some.1 ht] at hline
  obtain ⟨s, hs⟩ : ∃ s, line ++ r = before ++ (c.opener.toList ++ s) :=
    ⟨t ++ after ++ r, by simp [hline]⟩
  have hblank : ∀ x ∈ '\n' :: before, Text.isBlank x := List.forall_mem_cons.2 ⟨by decide, hbefore⟩
  rw [hs]
  refine ⟨by simp, ?_, fun a b hab hbrace => ?_⟩
  · have hdrop := Text.trimStart_append_of_blank hblank (c.opener.toList ++ s)
    rw [Text.trimStart_eq_self (h.word.head? s), Text.trimStart] at hdrop
    rw [← List.cons_append, hdrop]
    intro hhead
    obtain ⟨d, u, hd⟩ := List.exists_cons_of_ne_nil h.word.1
    rw [hd] at hhead
    obtain rfl : d = '{' := by simpa using hhead
    exact h.open_not_mem (by simp [hd])
  · -- a closing brace stands behind the opener
    rw [← List.cons_append, ← List.append_assoc] at hab
    rcases List.append_eq_append_iff.1 hab with ⟨u, rfl, -⟩ | ⟨u, hu, -⟩
    · exact ⟨before ++ (c.opener.toList ++ u), by simp, h.stray_skipSpace hbefore u⟩
    · exfalso
      have hmem : '}' ∈ '\n' :: before ++ c.opener.toList := hu ▸ List.mem_append_left u hbrace
      rcases List.mem_append.1 hmem with hm | hm
      · exact absurd (hblank _ hm) (by decide)
      · exact h.close_not_mem hm

/-! ### Gaps -/

theorem unfrozen_nil (offset : Nat) (s : List Char) : Unfrozen [] offset s := fun _ _ _ => rfl

theorem isFrozen_of_past {offset : Nat} (h : ∀ range ∈ frozen, range.2 ≤ offset) :
    isFrozen frozen offset = false := by
  refine List.any_eq_false.2 fun range hr => ?_
  have := h range hr
  simp only [Bool.and_eq_true, decide_eq_true_eq, not_and, not_lt]
  exact fun _ => this

theorem scanFrom_lineFeed (hm : marker.toList ≠ []) (hn : '\n' ∉ marker.toList) (s : List Char) :
    scanFrom marker frozen 0 p ('\n' :: s) = scanFrom marker frozen 0 (p.step '\n') s := by
  obtain ⟨c, m, hcm⟩ := List.exists_cons_of_ne_nil hm
  refine scanFrom_of_none ?_
  rw [hcm] at hn ⊢
  have hc : c ≠ '\n' := fun hc => hn (by simp [hc])
  simp [Text.stripStart?, hc]

/-- A line feed behind a text changes nothing. -/
theorem alone_append_lineFeed (hm : marker.toList ≠ []) (hn : '\n' ∉ marker.toList)
    (g : List Char) : alone marker (g ++ ['\n']) = alone marker g := by
  rw [alone, payloads?_append hm hn fence_lineFeed .first (unfrozen_nil _ g),
    scanFrom_lineFeed hm hn]
  exact nil_both _

/-- What ends with a line before a fence is read alone. -/
theorem payloads?_closed_append (hm : marker.toList ≠ []) (hn : '\n' ∉ marker.toList)
    {g r : List Char} (hc : Text.Closed g) (hr : Fence ('\n' :: r))
    (hg : Unfrozen frozen p.offset g) :
    payloads? (scanFrom marker frozen 0 p (g ++ r)) =
      both (alone marker g) (payloads? (scanFrom marker frozen 0 (p.behind g) r)) := by
  rcases List.eq_nil_or_concat' g with rfl | ⟨g, c, rfl⟩
  · exact (both_nil _).symm
  · obtain rfl : c = '\n' := hc c (by simp)
    have hg' : Unfrozen frozen p.offset g := fun o hlow hhigh => hg o hlow (by simp; omega)
    rw [List.append_assoc, List.singleton_append, alone_append_lineFeed hm hn,
      payloads?_append hm hn hr .first hg', scanFrom_lineFeed hm hn, Place.behind_append]
    rfl

/-- The payloads of texts, each read alone. -/
def apart (marker : String) (gaps : List (List Char)) : Option (List Json.Members) :=
  gaps.foldr (fun g rest => both (alone marker g) rest) (some [])

end Directive

namespace Region

theorem isFrozen_spans (rs : List Region) (offset : Nat) :
    Directive.isFrozen (spans rs) offset = rs.any (·.contains offset) := by
  simp [Directive.isFrozen, spans, List.any_map, Function.comp_def, contains]

/-- Where a stretch stands in a text, the lines before its region are full, and so are those of the
region unless they are the last ones. -/
theorem full_of_lines_stretch {x : Stretch} {more : List (List Char)}
    (h : Text.lines (x.lines ++ more).flatten = x.lines ++ more) :
    (∀ l ∈ x.before, Text.IsFullLine l) ∧
      (Text.Closed x.regionLines.flatten ∨ more = []) ∧ Text.lines more.flatten = more := by
  obtain ⟨hmore, hfull⟩ := Text.lines_eq_append h
  refine ⟨?_, ?_, hmore⟩
  · rw [Stretch.lines, List.append_assoc] at h
    exact (Text.lines_eq_append h).2 (by simp [Stretch.regionLines])
  · by_cases hne : more = []
    · exact .inr hne
    · exact .inl (Text.closed_flatten fun l hl => hfull hne l (List.mem_append_right _ hl))

theorem exists_strip?_of_start {d : Delimiters} {line : List Char} (h : lineKind d line = .start) :
    ∃ text, d.comment.strip? line = some text := by
  rw [lineKind] at h
  split at h
  · exact ⟨_, ‹_›⟩
  · cases h

/-- The lines before a region are not frozen, and those of the region are. -/
theorem frozen_stretch {frozen : List (Nat × Nat)} {offset : Nat}
    (hpast : ∀ range ∈ frozen, range.2 ≤ offset) (d : Delimiters) (x : Stretch)
    (xs : List Stretch) :
    Directive.Unfrozen (frozen ++ spans (regionsFrom d offset (x :: xs))) offset
        x.before.flatten ∧
      Directive.Frozen (frozen ++ spans (regionsFrom d offset (x :: xs)))
        (offset + Text.width x.before.flatten) x.regionLines.flatten := by
  have hstart : (x.region d offset).start = offset + Text.width x.before.flatten := rfl
  have hlines : Text.width x.lines.flatten =
      Text.width x.before.flatten + Text.width x.regionLines.flatten := by simp [Stretch.lines]
  constructor
  · intro o hlow hhigh
    rw [Directive.isFrozen_append, Directive.isFrozen_of_past fun r hr => (hpast r hr).trans hlow,
      isFrozen_spans, regionsFrom, List.any_cons, Bool.false_or, Bool.or_eq_false_iff]
    refine ⟨by simp [contains, hstart]; omega, List.any_eq_false.2 fun r hr => ?_⟩
    have := le_start_of_mem_regionsFrom r hr
    simp [contains]
    omega
  · intro o hlow hhigh
    have hin : (x.region d offset).contains o = true := by
      simp [contains, hstart, Stretch.stop_region]
      omega
    rw [Directive.isFrozen_append, isFrozen_spans, regionsFrom, List.any_cons, hin, Bool.true_or,
      Bool.or_true]

end Region

namespace Directive

open Region

/-- The payloads of stretches and what follows them, behind ranges that end before them. -/
theorem payloads?_stretches (frozen : List (Nat × Nat)) (p : Place) (hm : marker.toList ≠ [])
    (hn : '\n' ∉ marker.toList) {d : Delimiters} (hd : Bars d.comment.opener.toList)
    {xs : List Stretch} (hx : ∀ x ∈ xs, x.Fits d)
    {rest : List (List Char)}
    (hlines : Text.lines (stretchLines xs ++ rest).flatten = stretchLines xs ++ rest)
    (hpast : ∀ range ∈ frozen, range.2 ≤ p.offset) :
    payloads? (scanFrom marker (frozen ++ spans (regionsFrom d p.offset xs)) 0 p
        (stretchLines xs ++ rest).flatten) =
      apart marker (Layout.gaps ⟨xs, rest⟩) := by
  induction xs generalizing frozen p with
  | nil =>
    have hg : Unfrozen (frozen ++ []) p.offset rest.flatten := by
      intro o hlow _
      rw [List.append_nil]
      exact isFrozen_of_past fun range hr => (hpast range hr).trans hlow
    have hread := payloads?_append hm hn fence_nil .first hg
    rw [List.append_nil rest.flatten] at hread
    exact hread
  | cons x xs ih =>
    obtain ⟨hfit, hx⟩ := List.forall_mem_cons.1 hx
    obtain ⟨hgap, hregion⟩ := frozen_stretch hpast d x xs
    rw [stretchLines_cons, List.append_assoc] at hlines ⊢
    obtain ⟨hfull, hclosed, htail⟩ := full_of_lines_stretch hlines
    have hclosed := hclosed.imp_right (congrArg List.flatten)
    obtain ⟨text, htext⟩ := exists_strip?_of_start hfit.opener
    have hfence : Fence ('\n' :: (x.regionLines.flatten ++ (stretchLines xs ++ rest).flatten)) := by
      simpa [Stretch.regionLines] using hd.fence htext _
    have hstop : (x.region d p.offset).stop = (p.behind x.lines.flatten).offset := by
      rw [Stretch.stop_region]
      simp [Stretch.lines, Nat.add_assoc]
    have hpast' : ∀ range ∈ frozen ++ [((x.region d p.offset).start, (x.region d p.offset).stop)],
        range.2 ≤ (p.behind x.lines.flatten).offset := by
      refine List.forall_mem_append.2 ⟨fun range hr => ?_, by simp [hstop]⟩
      rw [Place.offset_behind]
      exact (hpast range hr).trans (Nat.le_add_right _ _)
    have hrest := ih _ (p.behind x.lines.flatten) hx htail hpast'
    have hspans : frozen ++ [((x.region d p.offset).start, (x.region d p.offset).stop)] ++
          spans (regionsFrom d (p.behind x.lines.flatten).offset xs) =
        frozen ++ spans (regionsFrom d p.offset (x :: xs)) := by
      simp [regionsFrom, spans]
    rw [hspans] at hrest
    rw [Stretch.lines, List.append_assoc, List.flatten_append, List.flatten_append,
      payloads?_closed_append hm hn (Text.closed_flatten hfull) hfence hgap,
      scanFrom_frozenText hm hn hclosed (by rwa [Place.offset_behind]), ← Place.behind_append,
      ← List.flatten_append]
    exact congrArg (both (alone marker x.before.flatten)) hrest

/-- **The payloads of a text with regions are those of its gaps, each read alone.** -/
theorem payloads?_layout (hm : marker.toList ≠ []) (hn : '\n' ∉ marker.toList) {d : Delimiters}
    (hd : Bars d.comment.opener.toList) {y : Layout} (hy : y.Fits d) {s : String}
    (hs : Text.lines s.toList = y.lines) :
    payloads? (scan marker (spans (regionsFrom d 0 y.stretches)) s) = apart marker y.gaps := by
  have htext : s.toList = (stretchLines y.stretches ++ y.rest).flatten := by
    rw [← Text.flatten_lines s.toList, hs]
    rfl
  have hempty : marker.isEmpty = false := by
    rw [Bool.eq_false_iff]
    simpa [String.isEmpty_iff] using hm
  rw [scan, hempty, htext]
  exact payloads?_stretches [] .first hm hn hd hy.stretches (htext ▸ hs) (by simp)

end Directive
end Scaffold
