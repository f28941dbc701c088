import Scaffold.Proofs.Directive.Object
import Scaffold.Proofs.Text.Cut

/-!
# Scanning with a cursor

The scan as it goes by byte offsets: a cursor moves through the text, a table of line starts gives
the line of an offset, and braces are counted up and down. A program that does this can come to
grief (`Mishap`): a slice may begin or end inside a character or behind the text, a brace may be
closed when none is open, and the cursor may stand still. None of this happens, and what the cursor
finds is what scanning the characters finds (`scan_eq`).
-/

namespace Scaffold.Directive.Cursor

open Text (width)

/-- What a scan by byte offsets could come to grief on. -/
inductive Mishap where
  /-- A slice ends inside a character or behind the text, or the table has no such line. -/
  | outOfRange
  /-- A brace is closed and none is open. -/
  | underflow
  /-- The cursor stands still. -/
  | endless
deriving DecidableEq, Inhabited

/-! ### Slices and lines -/

/-- The text from an offset on. -/
def textFrom (s : List Char) (n : Nat) : Except Mishap (List Char) :=
  if width (Text.takeBytes n s) = n then .ok (Text.dropBytes n s) else .error .outOfRange

/-- The text from an offset up to another one. -/
def textBetween (s : List Char) (a b : Nat) : Except Mishap (List Char) := do
  let rest ← textFrom s a
  if a + width (Text.takeBytes (b - a) rest) = b then return Text.takeBytes (b - a) rest
  else .error .outOfRange

/-- The offsets where lines begin, behind the first line. -/
def laterLines : (offset : Nat) → List Char → List Nat
  | _, [] => []
  | offset, c :: rest =>
    let next := offset + c.utf8Size
    if c = '\n' then next :: laterLines next rest else laterLines next rest

/-- The offsets where lines begin. -/
def lineTable (s : List Char) : List Nat := 0 :: laterLines 0 s

/-- The number of the line that holds an offset, which is the number of lines that begin there or
before. -/
def lineOf (table : List Nat) (offset : Nat) : Nat := (table.filter (· ≤ offset)).length

/-- Where the line begins that holds an offset. -/
def lineStart (table : List Nat) (offset : Nat) : Except Mishap Nat :=
  match table[lineOf table offset - 1]? with
  | some n => .ok n
  | none => .error .outOfRange

/-- Where the line ends that holds an offset, with its line feed. -/
def lineEnd (s : List Char) (offset : Nat) : Except Mishap Nat := do
  match Text.splitFirst? '\n' (← textFrom s offset) with
  | none => return width s
  | some (line, _) => return offset + width line + 1

/-! ### The scan -/

/-- The end of the object, if it is closed: behind the brace that closes the last of `depth` open
ones. -/
def closing : Mode → (depth offset : Nat) → List Char → Except Mishap (Option Nat)
  | _, _, _, [] => .ok none
  | mode, depth, offset, c :: rest =>
    let next := offset + c.utf8Size
    if mode = .outside && c == '{' then closing .outside (depth + 1) next rest
    else if mode = .outside && c == '}' then
      match depth with
      | 0 => .error .underflow
      | 1 => .ok (some (offset + 1))
      | depth + 2 => closing .outside (depth + 1) next rest
    else closing (mode.step c) depth next rest

/-- The end of the object that begins at an offset. -/
def objectEnd (s : List Char) (start : Nat) : Except Mishap (Option Nat) := do
  closing .outside 0 start (← textFrom s start)

/-- What comes of the object between two offsets behind a marker, where `more` scans from a cursor
on. -/
def takeObject (s : List Char) (more : Nat → Except Mishap (Except Fault (List Directive)))
    (offset start stop : Nat) : Except Mishap (Except Fault (List Directive)) := do
  match readPayload (lineOf (lineTable s) offset) (← textBetween s start stop) with
  | .error fault => return .error fault
  | .ok members =>
    let d : Directive := ⟨offset, ← lineStart (lineTable s) offset, ← lineEnd s stop, members⟩
    return (← more stop).map (d :: ·)

/-- What comes of a marker at an offset. -/
def visit (marker : String) (frozen : List (Nat × Nat)) (s : List Char)
    (more : Nat → Except Mishap (Except Fault (List Directive))) (offset : Nat) :
    Except Mishap (Except Fault (List Directive)) := do
  let next := offset + width marker.toList
  if isFrozen frozen offset then more next
  else
    let rest ← textFrom s next
    let start := next + (width rest - width (Text.trimStart rest))
    if (← textFrom s start).head? ≠ some '{' then more next
    else
      match ← objectEnd s start with
      | none => return .error ⟨lineOf (lineTable s) offset, .unbalanced marker⟩
      | some stop => takeObject s more offset start stop

/-- The directives from a cursor on. -/
def scanFrom (marker : String) (frozen : List (Nat × Nat)) (s : List Char) :
    (rounds cursor : Nat) → Except Mishap (Except Fault (List Directive))
  | 0, _ => .error .endless
  | rounds + 1, cursor => do
    match Text.splitAround? marker.toList (← textFrom s cursor) with
    | none => return .ok []
    | some (before, _) =>
      visit marker frozen s (scanFrom marker frozen s rounds) (cursor + width before)

/-- The directives of a text. A round takes a marker at least, so there are not more rounds than
characters, and one that finds none. -/
def scan (marker : String) (frozen : List (Nat × Nat)) (s : String) :
    Except Mishap (Except Fault (List Directive)) :=
  if marker.isEmpty then .ok (.ok []) else scanFrom marker frozen s.toList (s.toList.length + 1) 0

/-! ### Places are in range -/

@[simp] theorem textFrom_width (u t : List Char) : textFrom (u ++ t) (width u) = .ok t := by
  rw [textFrom, Text.takeBytes_width, if_pos rfl, Text.dropBytes_width]

theorem textBetween_width (u v t : List Char) :
    textBetween (u ++ (v ++ t)) (width u) (width u + width v) = .ok v := by
  rw [textBetween, textFrom_width]
  simp [bind, Except.bind, pure, Except.pure]

theorem laterLines_append (offset : Nat) (u t : List Char) :
    laterLines offset (u ++ t) = laterLines offset u ++ laterLines (offset + width u) t := by
  induction u generalizing offset with
  | nil => rfl
  | cons c u ih =>
    rw [List.cons_append, laterLines, laterLines, ih, Text.width_cons, Nat.add_assoc]
    split <;> rfl

theorem mem_laterLines {offset n : Nat} {s : List Char} (h : n ∈ laterLines offset s) :
    offset < n ∧ n ≤ offset + width s := by
  induction s generalizing offset with
  | nil => cases h
  | cons c s ih =>
    have hc := c.utf8Size_pos
    rw [Text.width_cons]
    rw [laterLines] at h
    split at h
    · rcases List.mem_cons.1 h with rfl | h
      · omega
      · have := ih h
        omega
    · have := ih h
      omega

theorem filter_lineTable (u t : List Char) :
    (lineTable (u ++ t)).filter (· ≤ width u) = lineTable u := by
  have hbefore : (laterLines 0 u).filter (· ≤ width u) = laterLines 0 u := by
    refine List.filter_eq_self.2 fun n hn => ?_
    have := mem_laterLines hn
    simpa using this.2
  have hbehind : (laterLines (0 + width u) t).filter (· ≤ width u) = [] := by
    refine List.filter_eq_nil_iff.2 fun n hn => ?_
    have := (mem_laterLines hn).1
    simpa using this
  rw [lineTable, laterLines_append, List.filter_cons_of_pos (by simp), List.filter_append, hbefore,
    hbehind, List.append_nil, lineTable]

/-- The place behind a text knows its line from the table. -/
theorem line_behind (p : Place) (u : List Char) :
    (p.behind u).line = p.line + (laterLines p.offset u).length ∧
      (p.behind u).lineStart = (laterLines p.offset u).getLastD p.lineStart := by
  induction u generalizing p with
  | nil => exact ⟨rfl, rfl⟩
  | cons c u ih =>
    have hrest := ih (p.step c)
    rw [Place.offset_step] at hrest
    rw [Place.behind_cons, hrest.1, hrest.2, laterLines, Place.step]
    split
    · exact ⟨by rw [List.length_cons, Nat.add_right_comm, Nat.add_assoc],
        List.getLastD_cons.symm⟩
    · exact ⟨rfl, rfl⟩

theorem lineOf_width (u t : List Char) :
    lineOf (lineTable (u ++ t)) (width u) = (Place.first.behind u).line := by
  rw [lineOf, filter_lineTable, (line_behind .first u).1, lineTable, List.length_cons, Nat.add_comm]
  rfl

theorem lineStart_width (u t : List Char) :
    lineStart (lineTable (u ++ t)) (width u) = .ok (Place.first.behind u).lineStart := by
  have hentry : (lineTable (u ++ t))[(lineTable u).length - 1]? =
      some ((laterLines 0 u).getLastD 0) := by
    have happend : lineTable (u ++ t) = lineTable u ++ laterLines (0 + width u) t := by
      rw [lineTable, laterLines_append]
      rfl
    rw [happend, List.getElem?_append_left (by simp [lineTable]), ← List.getLast?_eq_getElem?,
      lineTable, List.getLast?_cons, List.getLastD_eq_getLast?]
  rw [lineStart, lineOf, filter_lineTable, hentry, (line_behind .first u).2]
  rfl

theorem lineRest_eq (s : List Char) : lineRest s = match Text.splitFirst? '\n' s with
    | none => width s
    | some (line, _) => width line + 1 := by
  induction s with
  | nil => rfl
  | cons c s ih =>
    rw [lineRest, Text.splitFirst?]
    split
    · rename_i hc
      subst hc
      rfl
    · rw [ih]
      cases Text.splitFirst? '\n' s with
      | none => rfl
      | some cut => exact (Nat.add_assoc ..).symm

theorem lineEnd_width (u t : List Char) :
    lineEnd (u ++ t) (width u) = .ok (width u + lineRest t) := by
  rw [lineEnd, textFrom_width, lineRest_eq]
  simp only [bind, Except.bind]
  cases Text.splitFirst? '\n' t with
  | none => exact congrArg Except.ok (Text.width_append u t)
  | some cut => rfl

/-! ### Objects -/

theorem closing_pass {mode : Mode} {c : Char} (hopen : mode = .outside → c ≠ '{')
    (hclose : mode = .outside → c ≠ '}') (depth offset : Nat) (s : List Char) :
    closing mode depth offset (c :: s) =
      closing (mode.step c) depth (offset + c.utf8Size) s := by
  unfold closing
  rw [if_neg (by simpa using hopen), if_neg (by simpa using hclose)]
  cases s <;> rfl

theorem closing_open (depth offset : Nat) (s : List Char) :
    closing .outside depth offset ('{' :: s) =
      closing .outside (depth + 1) (offset + '{'.utf8Size) s := rfl

theorem closing_close (depth offset : Nat) (s : List Char) :
    closing .outside (depth + 2) offset ('}' :: s) =
      closing .outside (depth + 1) (offset + '}'.utf8Size) s := rfl

/-- **No brace is closed before it is opened**, and the end is that of the object that is found. -/
theorem closing_eq (mode : Mode) (depth offset : Nat) (s : List Char) :
    closing mode (depth + 1) offset s =
      .ok ((untilClosed? mode (depth + 1) s).map fun r => offset + width r.1) := by
  induction s generalizing mode depth offset with
  | nil => rfl
  | cons c s ih =>
    by_cases hopen : mode = .outside ∧ c = '{'
    · obtain ⟨rfl, rfl⟩ := hopen
      rw [closing_open, ih, untilClosed?_open]
      simp [Function.comp_def, Nat.add_assoc]
    · by_cases hclose : mode = .outside ∧ c = '}'
      · obtain ⟨rfl, rfl⟩ := hclose
        cases depth with
        | zero => rfl
        | succ depth =>
          rw [closing_close, ih, untilClosed?_close]
          simp [Function.comp_def, Nat.add_assoc]
      · have hopen := not_and.1 hopen
        have hclose := not_and.1 hclose
        rw [closing_pass hopen hclose, ih, untilClosed?_pass hopen hclose]
        simp [Function.comp_def, Nat.add_assoc]

theorem objectEnd_width (u s : List Char) :
    objectEnd (u ++ '{' :: s) (width u) =
      .ok ((object? ('{' :: s)).map fun r => width u + width r.1) := by
  rw [objectEnd, textFrom_width, object?, untilClosed?_open]
  simp [bind, Except.bind, closing_open, closing_eq, Function.comp_def, Nat.add_assoc]

/-! ### The scan -/

variable {marker : String} {frozen : List (Nat × Nat)}

theorem scanFrom_of_splitAround? {p : Place} {s : List Char} (hm : marker.toList ≠ []) :
    Directive.scanFrom marker frozen 0 p s = match Text.splitAround? marker.toList s with
      | none => .ok []
      | some (before, after) =>
        Directive.scanFrom marker frozen 0 (p.behind before) (marker.toList ++ after) := by
  induction s generalizing p with
  | nil => simp [Text.splitAround?, List.isEmpty_iff, hm, Directive.scanFrom]
  | cons c s ih =>
    rw [Text.splitAround?]
    cases hstrip : Text.stripStart? marker.toList (c :: s) with
    | none =>
      rw [scanFrom_of_none hstrip, ih]
      cases Text.splitAround? marker.toList s <;> rfl
    | some after =>
      rw [Text.stripStart?_eq_some.1 hstrip]
      rfl

theorem splitAround?_eq_some {m s before after : List Char} (hm : m ≠ [])
    (h : Text.splitAround? m s = some (before, after)) : s = before ++ (m ++ after) := by
  induction s generalizing before with
  | nil => simp [Text.splitAround?, hm] at h
  | cons c s ih =>
    rw [Text.splitAround?] at h
    split at h
    · rename_i rest hstrip
      obtain ⟨hbefore, hafter⟩ := Prod.mk.inj (Option.some.inj h)
      rw [← hbefore, ← hafter, List.nil_append]
      exact Text.stripStart?_eq_some.1 hstrip
    · obtain ⟨⟨b, a⟩, hcut, h⟩ := Option.map_eq_some_iff.1 h
      obtain ⟨rfl, rfl⟩ := Prod.mk.inj h
      exact congrArg (c :: ·) (ih hcut)

theorem takeObject_eq {u gap object : List Char}
    {more : Nat → Except Mishap (Except Fault (List Directive))} {ds : Except Fault (List Directive)}
    (rest : List Char) (hmore : more (width (u ++ gap ++ object)) = .ok ds) :
    takeObject (u ++ (gap ++ (object ++ rest))) more (width u) (width (u ++ gap))
        (width (u ++ gap) + width object) =
      .ok (do
        let members ← readPayload (Place.first.behind u).line object
        return ofObject (Place.first.behind u) (gap ++ object) rest members :: (← ds)) := by
  have hslice : textBetween (u ++ (gap ++ (object ++ rest))) (width (u ++ gap))
      (width (u ++ gap) + width object) = .ok object := by
    rw [← List.append_assoc, textBetween_width]
  have hend : lineEnd (u ++ (gap ++ (object ++ rest))) (width (u ++ gap) + width object) =
      .ok (width (u ++ gap) + width object + lineRest rest) := by
    rw [← Text.width_append, ← lineEnd_width]
    simp
  rw [Text.width_append (u ++ gap)] at hmore
  rw [takeObject, hslice, lineOf_width]
  simp only [bind, Except.bind]
  cases readPayload (Place.first.behind u).line object with
  | error fault => rfl
  | ok members =>
    simp only [lineStart_width, hend, hmore]
    cases ds with
    | error fault => rfl
    | ok ds =>
      have hoffset : Place.first.offset + width u = width u := Nat.zero_add _
      simp [Except.map, pure, Except.pure, ofObject, hoffset, Nat.add_assoc]

/-- What comes of a marker is what scanning the characters makes of it. -/
theorem visit_eq (hm : marker.toList ≠ []) {u after : List Char}
    {more : Nat → Except Mishap (Except Fault (List Directive))}
    (hmore : ∀ v w, v ++ w = u ++ (marker.toList ++ after) → w.length ≤ after.length →
      more (width v) = .ok (Directive.scanFrom marker frozen 0 (Place.first.behind v) w)) :
    visit marker frozen (u ++ (marker.toList ++ after)) more (width u) =
      .ok (Directive.scanFrom marker frozen 0 (Place.first.behind u) (marker.toList ++ after)) := by
  have hnext := hmore (u ++ marker.toList) after (by simp) le_rfl
  rw [Text.width_append, Place.behind_append] at hnext
  have hoffset : (Place.first.behind u).offset = width u := by
    rw [Place.offset_behind]
    exact Nat.zero_add _
  rw [scanFrom_marker hm, visit, hoffset]
  by_cases hf : isFrozen frozen (width u) = true
  · rw [if_pos hf, if_pos hf, hnext]
  · rw [if_neg hf, if_neg hf]
    have hrest : textFrom (u ++ (marker.toList ++ after)) (width u + width marker.toList) =
        .ok after := by
      rw [← Text.width_append, ← List.append_assoc, textFrom_width]
    -- the object begins behind the blanks
    have hparts : after = after.takeWhile Text.isBlank ++ after.dropWhile Text.isBlank :=
      List.takeWhile_append_dropWhile.symm
    have hstart : width u + width marker.toList + (width after - width (Text.trimStart after)) =
        width (u ++ (marker.toList ++ after.takeWhile Text.isBlank)) := by
      have hwidth := congrArg width hparts
      rw [Text.width_append] at hwidth
      simp only [Text.trimStart, Text.width_append]
      omega
    have htext : u ++ (marker.toList ++ after) =
        u ++ (marker.toList ++ after.takeWhile Text.isBlank) ++ after.dropWhile Text.isBlank := by
      conv_lhs => rw [hparts]
      simp
    simp only [bind, Except.bind, hrest, hstart]
    rw [htext, textFrom_width]
    dsimp only
    by_cases hhead : (after.dropWhile Text.isBlank).head? = some '{'
    · obtain ⟨rest, hopen⟩ := List.head?_eq_some_iff.1 hhead
      rw [if_neg (not_not.2 hhead), hopen, objectEnd_width, ← hopen]
      cases hobject : object? (after.dropWhile Text.isBlank) with
      | none =>
        rw [found_of_open hhead hobject, ← htext, lineOf_width]
        rfl
      | some cut =>
        obtain ⟨object, rest⟩ := cut
        have hafter := (untilClosed?_eq_some hobject).1
        have htake := takeObject_eq rest
          (hmore (u ++ (marker.toList ++ after.takeWhile Text.isBlank) ++ object) rest
            (by rw [htext, hafter, List.append_assoc]) (by
              rw [hparts, hafter, List.length_append, List.length_append]
              omega))
        rw [found_of_object hhead hobject, hafter, List.append_assoc]
        dsimp only [Option.map]
        rw [htake, List.append_assoc u, Place.behind_append]
        rfl
    · rw [if_pos hhead, found_of_prose hhead, hnext]

theorem scanFrom_eq (hm : marker.toList ≠ []) {rounds : Nat} (u : List Char) {t : List Char}
    (h : t.length < rounds) : scanFrom marker frozen (u ++ t) rounds (width u) =
      .ok (Directive.scanFrom marker frozen 0 (Place.first.behind u) t) := by
  induction rounds generalizing u t with
  | zero => exact absurd h (Nat.not_lt_zero _)
  | succ rounds ih =>
    rw [scanFrom, textFrom_width, scanFrom_of_splitAround? hm]
    cases hsplit : Text.splitAround? marker.toList t with
    | none => simp only [bind, Except.bind, hsplit]; rfl
    | some cut =>
      obtain ⟨before, after⟩ := cut
      obtain rfl := splitAround?_eq_some hm hsplit
      have hpos := List.length_pos_of_ne_nil hm
      simp only [List.length_append] at h
      have hvisit : visit marker frozen (u ++ before ++ (marker.toList ++ after))
          (scanFrom marker frozen (u ++ (before ++ (marker.toList ++ after))) rounds)
          (width (u ++ before)) = .ok (Directive.scanFrom marker frozen 0
            (Place.first.behind (u ++ before)) (marker.toList ++ after)) :=
        visit_eq hm fun v w hvw hw => by
          rw [← List.append_assoc, ← hvw]
          exact ih v (by omega)
      simp only [bind, Except.bind, hsplit]
      simpa using hvisit

/-- **Scanning with a cursor comes to what scanning the characters does**: the cursor gets to the
end of the text, every slice is in range, and no brace is closed before it is opened. -/
theorem scan_eq (marker : String) (frozen : List (Nat × Nat)) (s : String) :
    scan marker frozen s = .ok (Directive.scan marker frozen s) := by
  rw [scan, Directive.scan]
  split
  · rfl
  · rename_i hempty
    have hm : marker.toList ≠ [] := by simpa [String.isEmpty_iff] using hempty
    exact scanFrom_eq hm [] (Nat.lt_succ_self _)

end Scaffold.Directive.Cursor
