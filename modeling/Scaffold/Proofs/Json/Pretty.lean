import Mathlib.Data.List.Forall2
import Scaffold.Json.Record
import Scaffold.Proofs.Json.Compact
import Scaffold.Proofs.Json.Numeral
import Scaffold.Proofs.Json.Read

/-!
# What is printed is read back

A value that is printed over several lines is read back, however deep it stands in a document
(`reads_prettyAt`), as long as its numbers are: the text of a double is the shortest one that it can
be told by, and whether reading it rounds to the same double is not said here (`Value.Legible`).
Blocks of items and of members are read one line after the other (`items_block`, `members_block`),
so that records, which are read field by field, are read back in the same way (`reads_record`).
-/

namespace Scaffold.Json

variable {α σ : Type}

/-! ### Strings -/

/-- The hexadecimal number of a control is read back. -/
theorem hexFour?_hexByte : ∀ n < 0x20,
    hexByte n = [Nat.digitChar (n / 16), Nat.digitChar (n % 16)] ∧
      hexFour? '0' '0' (Nat.digitChar (n / 16)) (Nat.digitChar (n % 16)) = some n := by
  decide

theorem stringBody_escape {c d : Char} (h : escape? c = some d) (hu : c ≠ 'u') (s : List Char) :
    stringBody ('\\' :: c :: s) = (stringBody s).map fun read => (d :: read.1, read.2) := by
  rw [stringBody]
  · rw [h]
    cases stringBody s <;> rfl
  all_goals
    intros
    simp_all

theorem stringBody_control {c : Char} (h : c.toNat < 0x20) (s : List Char) :
    stringBody (['\\', 'u', '0', '0'] ++ hexByte c.toNat ++ s) =
      (stringBody s).map fun read => (c :: read.1, read.2) := by
  obtain ⟨hbyte, hvalue⟩ := hexFour?_hexByte c.toNat h
  have hlow : isLowSurrogate c.toNat = false := by
    simp [isLowSurrogate]
    omega
  have hhigh : isHighSurrogate c.toNat = false := by
    simp [isHighSurrogate]
    omega
  rw [hbyte, List.append_assoc, List.cons_append, List.cons_append, List.cons_append,
    List.cons_append, List.nil_append, List.cons_append, List.cons_append, List.nil_append,
    stringBody]
  simp only [hvalue, hlow, hhigh, Char.ofNat_toNat]
  cases stringBody s <;> rfl

theorem stringBody_plain {c : Char} (hquote : c ≠ '"') (hslash : c ≠ '\\')
    (h : ¬ c.toNat < 0x20) (s : List Char) :
    stringBody (c :: s) = (stringBody s).map fun read => (c :: read.1, read.2) := by
  have hcontrol : isControl c = false := by simpa [isControl] using h
  rw [stringBody]
  · rw [hcontrol]
    cases stringBody s <;> rfl
  all_goals
    intros
    simp_all

/-- A character that is escaped is read as itself. -/
theorem stringBody_escaped (c : Char) (s : List Char) :
    stringBody (escaped c ++ s) = (stringBody s).map fun read => (c :: read.1, read.2) := by
  unfold escaped
  split
  · exact stringBody_escape rfl (by decide) s
  · exact stringBody_escape rfl (by decide) s
  · exact stringBody_escape rfl (by decide) s
  · exact stringBody_escape rfl (by decide) s
  · exact stringBody_escape rfl (by decide) s
  · exact stringBody_escape rfl (by decide) s
  · exact stringBody_escape rfl (by decide) s
  · rename_i hquote hslash _ _ _ _ _
    split
    · rename_i hcontrol
      exact stringBody_control hcontrol s
    · rename_i hcontrol
      exact stringBody_plain hquote hslash hcontrol s

theorem toList_stringText (text : String) :
    (stringText text).toList = '"' :: (text.toList.flatMap escaped ++ ['"']) := by
  simp [stringText]

/-- **A string that is printed is read back.** -/
theorem string_escaped (text : String) (rest : List Char) :
    string (text.toList.flatMap escaped ++ '"' :: rest) = .ok (text, rest) := by
  have hbody : ∀ cs : List Char,
      stringBody (cs.flatMap escaped ++ '"' :: rest) = .ok (cs, rest) := by
    intro cs
    induction cs with
    | nil => rfl
    | cons c cs ih =>
      rw [List.flatMap_cons, List.append_assoc, stringBody_escaped, ih]
      rfl
  rw [string, hbody]
  simp [bind, Except.bind, pure, Except.pure]

/-! ### What is printed is read back -/

/-- White space. -/
def IsPad (pad : List Char) : Prop := ∀ c ∈ pad, isSpace c = true

theorem isPad_space : IsPad [' '] := List.forall_mem_singleton.2 rfl

theorem skipSpace_cons {c : Char} (h : isSpace c = false) (s : List Char) :
    skipSpace (c :: s) = c :: s := List.dropWhile_cons_of_neg (by simp [h])

theorem skipSpace_append {pad : List Char} (h : IsPad pad) (s : List Char) :
    skipSpace (pad ++ s) = skipSpace s := List.dropWhile_append_of_pos h

/-- A reader reads what a text stands for off every text that goes on behind it, with white space
before it or without. The text does not begin with white space, and not like the end of a list. -/
structure Reads (reader : Reader α) (text : List Char) (a : α) : Prop where
  begins : ∃ c s, text = c :: s ∧ isSpace c = false ∧ c ≠ ']'
  read : ∀ pad rest, IsPad pad → Ends rest → reader (pad ++ (text ++ rest)) = .ok (a, rest)

/-- Readers that pass over white space. -/
def PassesSpace (reader : Reader α) : Prop := ∀ s, reader (skipSpace s) = reader s

theorem Reads.of {reader : Reader α} {c : Char} {s : List Char} {a : α}
    (hreader : PassesSpace reader) (hspace : isSpace c = false) (hc : c ≠ ']')
    (h : ∀ rest, Ends rest → reader (c :: (s ++ rest)) = .ok (a, rest)) :
    Reads reader (c :: s) a := by
  refine ⟨⟨c, s, rfl, hspace, hc⟩, fun pad rest hpad hrest => ?_⟩
  rw [← hreader, skipSpace_append hpad, List.cons_append, skipSpace_cons hspace]
  exact h rest hrest

/-- A text that opens with a bracket and is read whatever stands behind it. -/
theorem Reads.of_opened {reader : Reader α} {c : Char} {text : List Char} {a : α}
    (hreader : PassesSpace reader) (hspace : isSpace c = false) (hc : c ≠ ']')
    (h : ∀ rest, ∃ body, text ++ rest = c :: body ∧ reader (c :: body) = .ok (a, rest)) :
    Reads reader text a := by
  obtain ⟨s, hs, -⟩ := h []
  rw [List.append_nil] at hs
  subst hs
  refine .of hreader hspace hc fun rest _ => ?_
  obtain ⟨body, hbody, hread⟩ := h rest
  rw [← List.cons_append, hbody]
  exact hread

theorem Reads.skipSpace_text {reader : Reader α} {text : List Char} {a : α}
    (h : Reads reader text a) {pad : List Char} (hpad : IsPad pad) (rest : List Char) :
    skipSpace (pad ++ (text ++ rest)) = text ++ rest := by
  obtain ⟨c, s, rfl, hspace, -⟩ := h.begins
  rw [skipSpace_append hpad, List.cons_append, skipSpace_cons hspace]

theorem passesSpace_valueWithin (depth : Nat) : PassesSpace (valueWithin depth) := by
  intro s
  unfold valueWithin
  rw [skipSpace_skipSpace]

/-! #### Numbers -/

theorem isSpace_of_isBlank {c : Char} (h : Text.isBlank c = false) : isSpace c = false := by
  have hne : c ≠ ' ' ∧ c ≠ '\t' ∧ c ≠ '\n' ∧ c ≠ '\r' := by
    refine ⟨?_, ?_, ?_, ?_⟩ <;> (rintro rfl; revert h; decide)
  simp [isSpace, hne]

theorem isSpace_of_isDigit {c : Char} (h : c.isDigit = true) : isSpace c = false :=
  isSpace_of_isBlank (isBlank_of_isDigit h)

/-- The number is read back from its text. -/
def Number.Legible (n : Number) : Prop := parse n.text = .ok (.number n)

theorem valueWithin_minus {s rest : List Char} {n : Number} (depth : Nat)
    (h : unsignedNumber true s = .ok (n, rest)) :
    valueWithin depth ('-' :: s) = .ok (.number n, rest) := by
  unfold valueWithin
  rw [skipSpace_cons (by decide)]
  simp only [h]
  rfl

theorem valueWithin_digit {c : Char} {s rest : List Char} {n : Number} (depth : Nat)
    (hc : c.isDigit = true) (h : unsignedNumber false (c :: s) = .ok (n, rest)) :
    valueWithin depth (c :: s) = .ok (.number n, rest) := by
  have hne : c ≠ 'n' ∧ c ≠ 't' ∧ c ≠ 'f' ∧ c ≠ '"' ∧ c ≠ '-' ∧ c ≠ '[' ∧ c ≠ '\x7b' := by
    refine ⟨?_, ?_, ?_, ?_, ?_, ?_, ?_⟩ <;> (rintro rfl; revert hc; decide)
  unfold valueWithin
  rw [skipSpace_cons (isSpace_of_isDigit hc)]
  split <;> simp_all

/-- What is read as a number begins with a minus or with a digit. -/
theorem number_of_valueWithin {depth : Nat} {s rest : List Char} {n : Number}
    (h : valueWithin depth s = .ok (.number n, rest)) :
    (∃ s', skipSpace s = '-' :: s' ∧ unsignedNumber true s' = .ok (n, rest)) ∨
      ∃ c s', skipSpace s = c :: s' ∧ c.isDigit = true ∧
        unsignedNumber false (c :: s') = .ok (n, rest) := by
  unfold valueWithin at h
  split at h
  · cases h
  · obtain ⟨r, -, h⟩ := Outcome.bind_eq_ok.1 h
    cases h
  · obtain ⟨r, -, h⟩ := Outcome.bind_eq_ok.1 h
    cases h
  · obtain ⟨r, -, h⟩ := Outcome.bind_eq_ok.1 h
    cases h
  · obtain ⟨r, -, h⟩ := Outcome.bind_eq_ok.1 h
    cases h
  · rename_i s' heq
    obtain ⟨⟨m, r⟩, hread, h⟩ := Outcome.bind_eq_ok.1 h
    cases h
    exact .inl ⟨s', heq, hread⟩
  · split at h
    · cases h
    · obtain ⟨r, -, h⟩ := Outcome.bind_eq_ok.1 h
      cases h
  · split at h
    · cases h
    · obtain ⟨r, -, h⟩ := Outcome.bind_eq_ok.1 h
      cases h
  · rename_i c s' _ _ _ _ _ _ _ heq
    split at h
    · rename_i hc
      obtain ⟨⟨m, r⟩, hread, h⟩ := Outcome.bind_eq_ok.1 h
      cases h
      exact .inr ⟨c, s', heq, hc, hread⟩
    · cases h

/-- **A number that is read back by itself is read back wherever it stands.** -/
theorem Number.Legible.reads {n : Number} (h : n.Legible) (depth : Nat) :
    Reads (valueWithin depth) n.text.toList (.number n) := by
  have hunbroken := n.unbroken_text
  have hspace : ∀ c ∈ n.text.toList, isSpace c = false := fun c hc =>
    isSpace_of_isBlank (hunbroken c hc)
  have hskip : skipSpace n.text.toList = n.text.toList := by
    cases htext : n.text.toList with
    | nil => rfl
    | cons c s => exact skipSpace_cons (hspace c (by rw [htext]; exact List.mem_cons_self)) s
  obtain ⟨⟨v, rest⟩, hvalue, hend⟩ := Outcome.bind_eq_ok.1 h
  dsimp only at hend
  split at hend
  · rename_i hblank
    obtain rfl := Except.ok.inj hend
    -- nothing is left of the text, as it has no blanks
    have hrest : ∀ t, OnLine t rest → (∀ c ∈ t, isSpace c = false) → rest = [] := by
      rintro t ⟨taken, -, rfl⟩ ht
      cases rest with
      | nil => rfl
      | cons c rest =>
        rw [skipSpace_cons (ht c (by simp))] at hblank
        cases hblank
    rcases number_of_valueWithin hvalue with ⟨s, hs, hread⟩ | ⟨c, s, hs, hc, hread⟩
    · rw [hskip] at hs
      rw [hs] at hspace ⊢
      obtain rfl := hrest _ ((onLine_unsignedNumber hread).cons (by decide)) hspace
      refine .of (passesSpace_valueWithin depth) (by decide) (by decide) fun after hafter => ?_
      exact valueWithin_minus depth (local_unsignedNumber true hread after hafter)
    · rw [hskip] at hs
      rw [hs] at hspace ⊢
      obtain rfl := hrest _ (onLine_unsignedNumber hread) hspace
      refine .of (passesSpace_valueWithin depth) (isSpace_of_isDigit hc) ?_ fun after hafter => ?_
      · rintro rfl
        exact absurd hc (by decide)
      · exact valueWithin_digit depth hc (local_unsignedNumber false hread after hafter)
  · cases hend

/-! #### Blocks -/

/-- The white space before a line of a block. -/
def lineStart (level : Nat) : List Char := '\n' :: (indent level).toList

theorem isPad_lineStart (level : Nat) : IsPad (lineStart level) := by
  refine List.forall_mem_cons.2 ⟨by decide, fun c hc => ?_⟩
  rw [indent, String.toList_ofList, List.mem_replicate] at hc
  rw [hc.2]
  decide

theorem skipSpace_lineStart (level : Nat) {c : Char} (h : isSpace c = false) (s : List Char) :
    skipSpace (lineStart level ++ c :: s) = c :: s :=
  (skipSpace_append (isPad_lineStart level) _).trans (skipSpace_cons h s)

theorem ends_pad {pad : List Char} (h : IsPad pad) {c : Char} (hc : c = ',' ∨ c = ']' ∨ c = '\x7d')
    (rest : List Char) : Ends (pad ++ c :: rest) := by
  intro d hd
  cases pad with
  | nil =>
    obtain rfl : c = d := Option.some.inj hd
    rcases hc with rfl | rfl | rfl <;> decide
  | cons d' pad =>
    obtain rfl : d' = d := Option.some.inj hd
    have hspace := h d' List.mem_cons_self
    refine ⟨?_, ?_, ?_, ?_⟩
    · exact Bool.eq_false_iff.2 fun hdigit => by simp [isSpace_of_isDigit hdigit] at hspace
    all_goals
      rintro rfl
      exact absurd hspace (by decide)

/-- The lines of a block behind its first one, and what follows them. -/
def behindFirst (level : Nat) (closer : Char) (texts : List String) (rest : List Char) :
    List Char :=
  texts.flatMap (fun text => ',' :: (lineStart (level + 1) ++ text.toList)) ++
    (lineStart level ++ closer :: rest)

theorem behindFirst_cons (level : Nat) (closer : Char) (text : String) (texts : List String)
    (rest : List Char) : behindFirst level closer (text :: texts) rest =
      ',' :: (lineStart (level + 1) ++ (text.toList ++ behindFirst level closer texts rest)) := by
  simp [behindFirst]

/-- A block with at least one line. -/
theorem toList_block (level : Nat) (opener closer : Char) (text : String) (texts : List String)
    (rest : List Char) :
    (block level (String.singleton opener) (String.singleton closer) (text :: texts)).toList ++
        rest =
      opener ::
        (lineStart (level + 1) ++ (text.toList ++ behindFirst level closer texts rest)) := by
  have hlines : ∀ (first : String) (lines : List String),
      (String.intercalate ",\n" (first :: lines)).toList =
        first.toList ++ lines.flatMap fun line => ',' :: '\n' :: line.toList := by
    intro first lines
    induction lines generalizing first with
    | nil => simp
    | cons line lines ih =>
      rw [String.intercalate_cons_cons, String.toList_append, String.toList_append, ih]
      simp
  rw [block, List.isEmpty_cons, if_neg Bool.false_ne_true, List.map_cons]
  simp only [String.toList_append, hlines, List.flatMap_map]
  simp [behindFirst, lineStart]

theorem ends_behindFirst {closer : Char} (h : closer = ']' ∨ closer = '\x7d') (level : Nat)
    (texts : List String) (rest : List Char) : Ends (behindFirst level closer texts rest) := by
  cases texts with
  | nil => exact ends_pad (isPad_lineStart level) (.inr h) rest
  | cons text texts =>
    rw [behindFirst_cons]
    exact ends_pad (List.forall_mem_nil _) (.inl rfl) _

theorem length_lt_behindFirst (level : Nat) (closer : Char) (texts : List String)
    (rest : List Char) : texts.length < (behindFirst level closer texts rest).length := by
  induction texts with
  | nil => simp [behindFirst]
  | cons text texts ih =>
    rw [behindFirst_cons, List.length_cons, List.length_cons, List.length_append,
      List.length_append]
    omega

/-! #### Items -/

section
variable {item : Reader α} {texts : List String} {as : List α}

theorem moreItems_close {fuel : Nat} {s rest : List Char} (hs : skipSpace s = ']' :: rest) :
    moreItems item (fuel + 1) s = .ok ([], rest) := by
  unfold moreItems
  rw [hs]
  rfl

theorem moreItems_comma {fuel : Nat} {s s' s'' rest' rest : List Char} {c : Char} {a : α}
    (hs : skipSpace s = ',' :: s') (hs' : skipSpace s' = c :: s'') (hc : c ≠ ']')
    (hitem : item (c :: s'') = .ok (a, rest'))
    (hmore : moreItems item fuel rest' = .ok (as, rest)) :
    moreItems item (fuel + 1) s = .ok (a :: as, rest) := by
  unfold moreItems
  rw [hs]
  simp [hs', hc, hitem, hmore, bind, Except.bind, pure, Except.pure]

/-- An item is read off its line. -/
theorem Reads.line {text : String} {a : α} (h : Reads item text.toList a) (level : Nat)
    (texts : List String) (rest : List Char) :
    ∃ c s, c ≠ ']' ∧
      skipSpace (lineStart (level + 1) ++ (text.toList ++ behindFirst level ']' texts rest)) =
        c :: s ∧
      item (c :: s) = .ok (a, behindFirst level ']' texts rest) := by
  obtain ⟨c, s, htext, -, hc⟩ := h.begins
  have hskip := h.skipSpace_text (isPad_lineStart (level + 1)) (behindFirst level ']' texts rest)
  have hread := h.read [] _ (List.forall_mem_nil _) (ends_behindFirst (.inl rfl) level texts rest)
  rw [List.nil_append, htext, List.cons_append] at hread
  rw [htext, List.cons_append] at hskip ⊢
  exact ⟨c, _, hc, hskip, hread⟩

theorem moreItems_behindFirst (h : List.Forall₂ (fun text a => Reads item text.toList a) texts as)
    {fuel : Nat} (hfuel : texts.length < fuel) (level : Nat) (rest : List Char) :
    moreItems item fuel (behindFirst level ']' texts rest) = .ok (as, rest) := by
  induction h generalizing fuel with
  | nil =>
    obtain ⟨fuel, rfl⟩ : ∃ k, fuel = k + 1 := ⟨fuel - 1, by omega⟩
    exact moreItems_close (skipSpace_lineStart level (by decide) rest)
  | @cons text a texts as hfirst hmore ih =>
    rw [List.length_cons] at hfuel
    obtain ⟨fuel, rfl⟩ : ∃ k, fuel = k + 1 := ⟨fuel - 1, by omega⟩
    rw [behindFirst_cons]
    obtain ⟨c, s, hc, hskip, hread⟩ := hfirst.line level texts rest
    exact moreItems_comma (skipSpace_cons (by decide) _) hskip hc hread (ih (by omega))

/-- **A block of items is read item by item.** -/
theorem items_block (h : List.Forall₂ (fun text a => Reads item text.toList a) texts as)
    (level : Nat) (rest : List Char) :
    ∃ body, (block level "[" "]" texts).toList ++ rest = '[' :: body ∧
      items item body = .ok (as, rest) := by
  cases h with
  | nil => exact ⟨']' :: rest, by simp [block], rfl⟩
  | @cons text a texts as hfirst hmore =>
    refine ⟨_, toList_block level '[' ']' text texts rest, ?_⟩
    obtain ⟨c, s, hc, hskip, hread⟩ := hfirst.line level texts rest
    have hlength := length_lt_behindFirst level ']' texts rest
    have hrest := moreItems_behindFirst hmore hlength level rest
    unfold items
    rw [hskip]
    simp [hread, hrest, hc, bind, Except.bind, pure, Except.pure]

end

/-! #### Members -/

/-- The texts of members are read one after the other, each behind its name. -/
inductive Chain (field : String → σ → Reader σ) (level : Nat) : σ → Members → σ → Prop where
  | nil (s : σ) : Chain field level s [] s
  | cons {s s' s'' : σ} {name : String} {v : Value} {ms : Members}
      (hfirst : ∀ rest, Ends rest →
        field name s (':' :: ' ' :: ((prettyAt level v).toList ++ rest)) = .ok (s', rest))
      (hmore : Chain field level s' ms s'') : Chain field level s ((name, v) :: ms) s''

section
variable {field : String → σ → Reader σ} {start last : σ} {ms : Members}

theorem prettyMembers_eq (level : Nat) (ms : Members) :
    prettyMembers level ms = ms.map fun m => stringText m.1 ++ ": " ++ prettyAt level m.2 := by
  induction ms with
  | nil => rfl
  | cons m ms ih => rw [prettyMembers, ih, List.map_cons]

theorem prettyItems_eq (level : Nat) (items : List Value) :
    prettyItems level items = items.map (prettyAt level) := by
  induction items with
  | nil => rfl
  | cons item items ih => rw [prettyItems, ih, List.map_cons]

/-- The text of a member behind its opening quote. -/
def behindQuote (level : Nat) (name : String) (v : Value) (rest : List Char) : List Char :=
  name.toList.flatMap escaped ++ '"' :: ':' :: ' ' :: ((prettyAt level v).toList ++ rest)

theorem toList_member (level : Nat) (name : String) (v : Value) (rest : List Char) :
    (stringText name ++ ": " ++ prettyAt level v).toList ++ rest =
      '"' :: behindQuote level name v rest := by
  simp [toList_stringText, behindQuote]

theorem member_behindQuote {level : Nat} {s s' : σ} {name : String} {v : Value} {rest : List Char}
    (h : field name s (':' :: ' ' :: ((prettyAt level v).toList ++ rest)) = .ok (s', rest)) :
    member field s (behindQuote level name v rest) = .ok (s', rest) := by
  rw [member, behindQuote, string_escaped]
  exact h

theorem moreMembers_close {fuel : Nat} {s rest : List Char} (hs : skipSpace s = '\x7d' :: rest) :
    moreMembers field (fuel + 1) start s = .ok (start, rest) := by
  unfold moreMembers
  rw [hs]
  rfl

theorem moreMembers_comma {fuel : Nat} {s s' s'' rest' rest : List Char} {next : σ}
    (hs : skipSpace s = ',' :: s') (hs' : skipSpace s' = '"' :: s'')
    (hmember : member field start s'' = .ok (next, rest'))
    (hmore : moreMembers field fuel next rest' = .ok (last, rest)) :
    moreMembers field (fuel + 1) start s = .ok (last, rest) := by
  unfold moreMembers
  rw [hs]
  simp [hs', hmember, hmore, bind, Except.bind]

theorem moreMembers_behindFirst {level : Nat} (h : Chain field (level + 1) start ms last)
    {fuel : Nat} (hfuel : ms.length < fuel) (rest : List Char) :
    moreMembers field fuel start
      (behindFirst level '\x7d' (prettyMembers (level + 1) ms) rest) = .ok (last, rest) := by
  induction h generalizing fuel with
  | nil s =>
    obtain ⟨fuel, rfl⟩ : ∃ k, fuel = k + 1 := ⟨fuel - 1, by omega⟩
    exact moreMembers_close (skipSpace_lineStart level (by decide) rest)
  | @cons s s' s'' name v ms hfirst hmore ih =>
    rw [List.length_cons] at hfuel
    obtain ⟨fuel, rfl⟩ : ∃ k, fuel = k + 1 := ⟨fuel - 1, by omega⟩
    rw [prettyMembers, behindFirst_cons, toList_member]
    have hread := member_behindQuote (hfirst _ (ends_behindFirst (.inr rfl) level
      (prettyMembers (level + 1) ms) rest))
    exact moreMembers_comma (skipSpace_cons (by decide) _)
      (skipSpace_lineStart (level + 1) (by decide) _) hread (ih (by omega))

/-- **A block of members is read member by member.** -/
theorem members_block {level : Nat} (h : Chain field (level + 1) start ms last)
    (rest : List Char) :
    ∃ body, (prettyAt level (.object ms)).toList ++ rest = '\x7b' :: body ∧
      members field start body = .ok (last, rest) := by
  rw [prettyAt]
  cases h with
  | nil => exact ⟨'\x7d' :: rest, by simp [block, prettyMembers], rfl⟩
  | @cons _ s' _ name v ms hfirst hmore =>
    refine ⟨_, toList_block level '\x7b' '\x7d' _ _ rest, ?_⟩
    rw [toList_member]
    have hread := member_behindQuote (hfirst _ (ends_behindFirst (.inr rfl) level
      (prettyMembers (level + 1) ms) rest))
    have hlength := length_lt_behindFirst level '\x7d' (prettyMembers (level + 1) ms) rest
    rw [prettyMembers_eq, List.length_map] at hlength
    have hrest := moreMembers_behindFirst hmore hlength rest
    rw [← prettyMembers_eq] at hrest
    unfold members
    rw [skipSpace_lineStart (level + 1) (by decide)]
    simp [hread, hrest, bind, Except.bind]

end

/-! #### Values -/

/-- Every number in the value is read back from its text. -/
def Value.Legible (v : Value) : Prop := ∀ n, Occurs (.number n) v → n.Legible

theorem valueWithin_null (depth : Nat) (rest : List Char) :
    valueWithin depth ('n' :: (['u', 'l', 'l'] ++ rest)) = .ok (.null, rest) := by
  unfold valueWithin
  rw [skipSpace_cons (by decide)]
  rfl

theorem valueWithin_true (depth : Nat) (rest : List Char) :
    valueWithin depth ('t' :: (['r', 'u', 'e'] ++ rest)) = .ok (.bool true, rest) := by
  unfold valueWithin
  rw [skipSpace_cons (by decide)]
  rfl

theorem valueWithin_false (depth : Nat) (rest : List Char) :
    valueWithin depth ('f' :: (['a', 'l', 's', 'e'] ++ rest)) = .ok (.bool false, rest) := by
  unfold valueWithin
  rw [skipSpace_cons (by decide)]
  rfl

theorem valueWithin_string (depth : Nat) {s rest : List Char} {text : String}
    (h : string s = .ok (text, rest)) :
    valueWithin depth ('"' :: s) = .ok (.string text, rest) := by
  unfold valueWithin
  rw [skipSpace_cons (by decide)]
  simp only [h]
  rfl

theorem valueWithin_array {depth : Nat} {s rest : List Char} {vs : List Value}
    (h : items (valueWithin depth) s = .ok (vs, rest)) :
    valueWithin (depth + 1) ('[' :: s) = .ok (.array vs, rest) := by
  rw [valueWithin.eq_def]
  dsimp only
  rw [skipSpace_cons (by decide)]
  simp only [h]
  rfl

theorem valueWithin_object {depth : Nat} {s rest : List Char} {ms : Members}
    (h : members (memberValue depth) [] s = .ok (ms, rest)) :
    valueWithin (depth + 1) ('\x7b' :: s) = .ok (.object ms, rest) := by
  unfold memberValue at h
  rw [valueWithin.eq_def]
  dsimp only
  rw [skipSpace_cons (by decide)]
  simp only [h]
  rfl

theorem colon_cons (s : List Char) : colon (':' :: s) = .ok s := by
  rw [colon, skipSpace_cons (by decide)]
  rfl

/-- Values that are read back make members that are. -/
theorem chain_memberValue {depth level : Nat} {before ms : Members}
    (hnames : (before ++ ms).names.Nodup)
    (h : ∀ m ∈ ms, Reads (valueWithin depth) (prettyAt level m.2).toList m.2) :
    Chain (memberValue depth) level before ms (before ++ ms) := by
  induction ms generalizing before with
  | nil =>
    rw [List.append_nil]
    exact .nil before
  | cons m ms ih =>
    obtain ⟨name, v⟩ := m
    obtain ⟨hfirst, hmore⟩ := List.forall_mem_cons.1 h
    have hnew : name ∉ before.names := by
      rw [Members.names, List.map_append] at hnames
      exact fun hmem => (List.nodup_append.1 hnames).2.2 name hmem name List.mem_cons_self rfl
    rw [List.append_cons] at hnames ⊢
    refine .cons (fun rest hrest => ?_) (ih hnames hmore)
    have hread := hfirst.read [' '] rest isPad_space hrest
    rw [List.singleton_append] at hread
    rw [memberValue, colon_cons]
    simp only [bind, Except.bind, hread, Members.insert_of_not_mem hnew]
    rfl

namespace Value

theorem legible_array {items : List Value} :
    (array items).Legible ↔ ∀ item ∈ items, item.Legible := by
  constructor
  · exact fun h item hitem n hn => h n (.item hitem hn)
  · intro h n hn
    cases hn with
    | item hitem hn => exact h _ hitem n hn

theorem legible_object {members : Members} :
    (object members).Legible ↔ ∀ m ∈ members, m.2.Legible := by
  constructor
  · exact fun h m hm n hn => h n (.member hm hn)
  · intro h n hn
    cases hn with
    | member hm hn => exact h _ hm n hn

end Value

/-- **A value that is printed is read back**, as deep as the reader goes. -/
theorem reads_prettyAt {depth : Nat} {v : Value} (hv : v.Nested depth) (hw : v.WellFormed)
    (hl : v.Legible) (level : Nat) : Reads (valueWithin depth) (prettyAt level v).toList v := by
  have hpasses := passesSpace_valueWithin
  induction hv generalizing level with
  | @null depth =>
    have htext : (prettyAt level .null).toList = ['n', 'u', 'l', 'l'] := by simp [prettyAt]
    rw [htext]
    exact .of (hpasses depth) (by decide) (by decide) fun rest _ => valueWithin_null depth rest
  | @bool depth b =>
    cases b with
    | false =>
      have htext : (prettyAt level (.bool false)).toList = ['f', 'a', 'l', 's', 'e'] := by
        simp [prettyAt]
      rw [htext]
      exact .of (hpasses depth) (by decide) (by decide) fun rest _ => valueWithin_false depth rest
    | true =>
      have htext : (prettyAt level (.bool true)).toList = ['t', 'r', 'u', 'e'] := by
        simp [prettyAt]
      rw [htext]
      exact .of (hpasses depth) (by decide) (by decide) fun rest _ => valueWithin_true depth rest
  | @number depth n =>
    rw [prettyAt]
    exact (hl n .here).reads depth
  | @string depth text =>
    rw [prettyAt, toList_stringText]
    refine .of (hpasses depth) (by decide) (by decide) fun rest _ => ?_
    rw [List.append_assoc]
    exact valueWithin_string depth (string_escaped text rest)
  | @array depth items h ih =>
    have hitems : List.Forall₂ (fun text a => Reads (valueWithin depth) text.toList a)
        (prettyItems (level + 1) items) items := by
      rw [prettyItems_eq, List.forall₂_map_left_iff, List.forall₂_same]
      exact fun item hitem => ih item hitem (Value.wellFormed_array.1 hw item hitem)
        (Value.legible_array.1 hl item hitem) (level + 1)
    refine .of_opened (c := '[') (hpasses (depth + 1)) (by decide) (by decide) fun rest => ?_
    obtain ⟨body, hbody, hread⟩ := items_block hitems level rest
    exact ⟨body, by rw [prettyAt, hbody], valueWithin_array hread⟩
  | @object depth members h ih =>
    obtain ⟨hnames, hvalues⟩ := Value.wellFormed_object.1 hw
    have hchain : Chain (memberValue depth) (level + 1) [] members members :=
      chain_memberValue hnames fun m hm => ih m hm (hvalues m hm) (Value.legible_object.1 hl m hm) _
    refine .of_opened (c := '\x7b') (hpasses (depth + 1)) (by decide) (by decide) fun rest => ?_
    obtain ⟨body, hbody, hread⟩ := members_block hchain rest
    exact ⟨body, hbody, valueWithin_object hread⟩

end Scaffold.Json
