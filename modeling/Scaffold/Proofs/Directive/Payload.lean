import Scaffold.Proofs.Directive.Cursor
import Scaffold.Proofs.Json.Balance

/-!
# Objects that the reader accepts

Counting braces agrees with the grammar of JSON: a text in braces that is read as an object is found
as the object of a directive, to its last character, whatever follows it. So a directive with such
an object is never refused, and is the first of a text where its marker occurs first
(`scan_object`). A scan that fails does so at a marker further on (`exists_refusal`).
-/

namespace Scaffold.Directive

open Text (width Braced)

variable {marker : String} {frozen : List (Nat × Nat)} {p : Place} {f : Fault}

/-! ### Refusals -/

/-- What follows a marker at a place is refused. -/
def Refuses (marker : String) (p : Place) (after : List Char) (f : Fault) : Prop :=
  found marker p.line after = .error f ∨
    ∃ g, found marker p.line after = .ok (some g) ∧ readPayload p.line g.object = .error f

/-- What scanning does at a marker where it fails. -/
theorem scanFrom_marker_eq_error (hm : marker.toList ≠ []) {after : List Char}
    (h : scanFrom marker frozen 0 p (marker.toList ++ after) = .error f) :
    isFrozen frozen p.offset = false ∧ Refuses marker p after f ∨
      ∃ taken rest, marker.toList ++ after = taken ++ rest ∧ rest <:+ after ∧
        scanFrom marker frozen 0 (p.behind taken) rest = .error f := by
  rw [scanFrom_marker hm] at h
  cases hf : isFrozen frozen p.offset with
  | true =>
    rw [hf, if_pos rfl] at h
    exact .inr ⟨marker.toList, after, rfl, List.suffix_rfl, h⟩
  | false =>
    rw [hf, if_neg Bool.false_ne_true] at h
    rcases Outcome.bind_eq_error.1 h with hfound | ⟨f?, hfound, h⟩
    · exact .inl ⟨rfl, .inl hfound⟩
    · cases f? with
      | none => exact .inr ⟨marker.toList, after, rfl, List.suffix_rfl, h⟩
      | some g =>
        rcases Outcome.bind_eq_error.1 h with hread | ⟨members, -, h⟩
        · exact .inl ⟨rfl, .inr ⟨g, hfound, hread⟩⟩
        · have hafter := eq_append_of_found hfound
          rcases Outcome.bind_eq_error.1 h with hrest | ⟨ds, -, h⟩
          · exact .inr ⟨marker.toList ++ g.blanks ++ g.object, g.rest, by simp [hafter],
              ⟨g.blanks ++ g.object, by simp [hafter]⟩, hrest⟩
          · cases h

/-- **A scan that fails does so at a marker** that is not frozen and has something behind it that
is refused. -/
theorem exists_refusal (hm : marker.toList ≠ []) {s : List Char}
    (h : scanFrom marker frozen 0 p s = .error f) :
    ∃ u after, s = u ++ (marker.toList ++ after) ∧ isFrozen frozen (p.behind u).offset = false ∧
      Refuses marker (p.behind u) after f := by
  induction s using cut_induction hm generalizing p with
  | nil => cases h
  | plain c s hnone ih =>
    obtain ⟨u, after, rfl, hrefused⟩ := ih (scanFrom_of_none hnone ▸ h)
    exact ⟨c :: u, after, rfl, hrefused⟩
  | mark after ih =>
    rcases scanFrom_marker_eq_error hm h with hrefused | ⟨taken, rest, htaken, hrest, h⟩
    · exact ⟨[], after, rfl, hrefused⟩
    · obtain ⟨u, after', rfl, hrefused⟩ := ih rest hrest h
      rw [← Place.behind_append] at hrefused
      exact ⟨taken ++ u, after', by simpa using htaken, hrefused⟩

/-! ### The first directive -/

/-- Text in front of the first marker is passed over. -/
theorem scanFrom_first {u t : List Char}
    (hfirst : ∀ v w, u ++ marker.toList = v ++ (marker.toList ++ w) → w = []) :
    scanFrom marker frozen 0 p (u ++ (marker.toList ++ t)) =
      scanFrom marker frozen 0 (p.behind u) (marker.toList ++ t) := by
  induction u generalizing p with
  | nil => rfl
  | cons c u ih =>
    have hnone : Text.stripStart? marker.toList (c :: (u ++ (marker.toList ++ t))) = none := by
      refine Option.eq_none_iff_forall_ne_some.2 fun after ha => ?_
      -- a marker at the front would end before the first one does
      have hcut := Text.stripStart?_eq_some.1 ha
      rw [← List.cons_append, ← List.append_assoc] at hcut
      have hle : width marker.toList ≤ width (c :: u ++ marker.toList) := by
        rw [Text.width_append]
        exact Nat.le_add_left _ _
      obtain ⟨w, hw, -⟩ := Text.exists_append_of_width_le hcut.symm hle
      have hlength := congrArg List.length hw
      rw [hfirst [] w hw] at hlength
      simp only [List.length_append, List.length_cons, List.length_nil] at hlength
      omega
    rw [List.cons_append, scanFrom_of_none hnone,
      ih fun v w h => hfirst (c :: v) w (congrArg (c :: ·) h)]
    rfl

theorem found_of_braced {blanks object rest : List Char} (hblanks : ∀ c ∈ blanks, Text.isBlank c)
    (hobject : Braced object) (line : Nat) :
    found marker line (blanks ++ (object ++ rest)) = .ok (some ⟨blanks, object, rest⟩) := by
  obtain ⟨t, ht, rfl⟩ := hobject
  have hdrop : (blanks ++ ('{' :: (t ++ ['}']) ++ rest)).dropWhile Text.isBlank =
      '{' :: (t ++ ['}'] ++ rest) := by
    rw [List.dropWhile_append_of_pos hblanks, List.cons_append,
      List.dropWhile_cons_of_neg (by decide)]
  have htake : (blanks ++ ('{' :: (t ++ ['}']) ++ rest)).takeWhile Text.isBlank = blanks := by
    rw [List.takeWhile_append_of_pos hblanks, List.cons_append,
      List.takeWhile_cons_of_neg (by decide), List.append_nil]
  have hobject := object?_eq_some (s := t ++ ['}'] ++ rest).2 ⟨rfl, t, ht, rfl⟩
  rw [found_of_object (by rw [hdrop]; rfl) (hdrop ▸ hobject), htake]

/-- An object that the reader accepts is taken, and the scan goes on behind it. -/
theorem scanFrom_of_document {blanks object rest : List Char} {members : Json.Members}
    (hm : marker.toList ≠ []) (hfree : isFrozen frozen p.offset = false)
    (hblanks : ∀ c ∈ blanks, Text.isBlank c) (hobject : Braced object)
    (hread : Json.document Json.value object = .ok (.object members)) :
    scanFrom marker frozen 0 p (marker.toList ++ (blanks ++ (object ++ rest))) =
      (scanFrom marker frozen 0 (p.behind (marker.toList ++ blanks ++ object)) rest).map
        (ofObject p (marker.toList ++ blanks ++ object) rest members :: ·) := by
  have hpayload : readPayload p.line object = .ok members := readPayload_eq_ok.2 hread
  rw [scanFrom_marker hm, hfree, if_neg Bool.false_ne_true, found_of_braced hblanks hobject]
  simp only [bind, Except.bind, hpayload]
  cases scanFrom marker frozen 0 (p.behind (marker.toList ++ blanks ++ object)) rest <;> rfl

/-- **Counting braces agrees with the grammar.** Where a text in braces is read as an object, its
end is found exactly, whatever stands before and behind it. Behind the first marker of a text and
blanks, it is never refused: a scan that fails does so at a marker behind it, and one that succeeds
has it first. -/
theorem scan_object {object : List Char} {members : Json.Members}
    (hread : Json.document Json.value object = .ok (.object members))
    (hopen : object.head? = some '{') (hclose : object.getLast? = some '}')
    (before rest : List Char) :
    Cursor.objectEnd (before ++ (object ++ rest)) (width before) =
        .ok (some (width (before ++ object))) ∧
      ∀ (marker : String) (blanks : List Char), marker ≠ "" →
        (∀ u v, before ++ marker.toList = u ++ (marker.toList ++ v) → v = []) →
        (∀ c ∈ blanks, Text.isBlank c) →
        let front := before ++ (marker.toList ++ (blanks ++ object))
        (∀ f, scan marker [] (String.ofList (front ++ rest)) = .error f →
          ∃ u after, rest = u ++ (marker.toList ++ after) ∧
            Refuses marker (Place.first.behind (front ++ u)) after f) ∧
        ∀ ds, scan marker [] (String.ofList (front ++ rest)) = .ok ds →
          ∃ d more, ds = d :: more ∧ d.offset = width before ∧ d.payload = members := by
  obtain ⟨t, rfl⟩ := List.head?_eq_some_iff.1 hopen
  have hbraced := Json.braced_of_document hread hclose
  constructor
  · have hobject := object?_eq_some (s := t ++ rest).2 ⟨List.cons_append, hbraced⟩
    rw [List.cons_append, Cursor.objectEnd_width, hobject, Text.width_append]
    rfl
  intro marker blanks hne hfirst hblanks front
  have hm : marker.toList ≠ [] := by simpa using hne
  have hempty : ¬ marker.isEmpty := by simpa [String.isEmpty_iff] using hne
  have hscan : scan marker [] (String.ofList (front ++ rest)) =
      (scanFrom marker [] 0 (Place.first.behind front) rest).map
        (ofObject (Place.first.behind before) (marker.toList ++ blanks ++ ('{' :: t)) rest members
          :: ·) := by
    have htext : front ++ rest = before ++ (marker.toList ++ (blanks ++ ('{' :: t ++ rest))) := by
      simp [front]
    have hplace : Place.first.behind front =
        (Place.first.behind before).behind (marker.toList ++ blanks ++ ('{' :: t)) := by
      simp [front]
    rw [scan, if_neg hempty, String.toList_ofList, htext, scanFrom_first hfirst,
      scanFrom_of_document hm rfl hblanks hbraced hread, hplace]
  rw [hscan]
  constructor
  · intro f h
    obtain ⟨u, after, hrest, -, hrefused⟩ := exists_refusal hm (Outcome.map_eq_error.1 h)
    exact ⟨u, after, hrest, by rwa [Place.behind_append]⟩
  · intro ds h
    obtain ⟨more, -, rfl⟩ := Outcome.map_eq_ok.1 h
    exact ⟨_, more, rfl, by simp [ofObject, Place.first], rfl⟩

/-- Braces, quotes and escapes in a string of the object, and a quote and a brace behind it. -/
theorem scan_object_of_escapes :
    let before := "x".toList
    let object := "\x7b\"a\": \"\x7d\\\"\\u007b\", \"b\": \x7b\x7d\x7d".toList
    let rest := "\" \x7b @o".toList
    let text := String.ofList (before ++ ("@o".toList ++ (" ".toList ++ object)) ++ rest)
    ∃ members, Json.document Json.value object = .ok (.object members) ∧
      Json.Members.names members = ["a", "b"] ∧
      Cursor.objectEnd (before ++ (object ++ rest)) (width before) =
        .ok (some (width (before ++ object))) ∧
      ∃ d more, scan "@o" [] text = .ok (d :: more) ∧ d.offset = width before ∧
        d.payload = members := by
  intro before object rest text
  have hnames : (readPayload 1 object).toOption.map Json.Members.names = some ["a", "b"] := by
    decide +kernel
  obtain ⟨members, hmembers, hnames⟩ := Option.map_eq_some_iff.1 hnames
  have hread := readPayload_eq_ok.1 (Outcome.toOption_eq_some.1 hmembers)
  have hfirst : ∀ u v, before ++ "@o".toList = u ++ ("@o".toList ++ v) → v = [] := by
    rintro (_ | ⟨c, u⟩) v h
    · cases h
    · have hlength := congrArg List.length h
      simp only [List.length_append, List.length_cons] at hlength
      exact List.eq_nil_of_length_eq_zero (by simp [before] at hlength; omega)
  obtain ⟨hend, hscan⟩ := scan_object hread (by decide) (by decide) before rest
  obtain ⟨-, hok⟩ := hscan "@o" " ".toList (by decide) hfirst Text.blank_space
  have hsome : (scan "@o" [] text).toOption.isSome := by decide +kernel
  obtain ⟨ds, hds⟩ := Option.isSome_iff_exists.1 hsome
  have hds := Outcome.toOption_eq_some.1 hds
  obtain ⟨d, more, rfl, hoffset, hpayload⟩ := hok ds hds
  exact ⟨members, hread, hnames, hend, d, more, hds, hoffset, hpayload⟩

end Scaffold.Directive
