import Scaffold.Proofs.Json.Taken

/-!
# Where JSON cannot go on

A line feed stands between the lexemes of a JSON text and never inside one (`OnLine`). So a line
on which no lexeme begins (`Stray`) is never read: whatever is read off a text with such a line in
it ends above that line (`halts_valueWithin`), and a whole document has no such line
(`document_ne_ok`).
-/

namespace Scaffold.Json

/-! ### Lexemes stand on one line -/

/-- What follows when something on one line is taken off a text. -/
def OnLine (s rest : List Char) : Prop := ∃ taken, '\n' ∉ taken ∧ s = taken ++ rest

namespace OnLine

theorem cons {c : Char} {s t : List Char} (hc : c ≠ '\n') (h : OnLine s t) : OnLine (c :: s) t := by
  obtain ⟨a, ha, rfl⟩ := h
  exact ⟨c :: a, by simp [ha, hc.symm], rfl⟩

/-- What is taken off on one line leaves the lines below. -/
theorem suffix {s rest b : List Char} (h : OnLine s rest) (hb : '\n' :: b <:+ s) :
    '\n' :: b <:+ rest := by
  obtain ⟨taken, hn, rfl⟩ := h
  rcases List.suffix_or_suffix_of_suffix hb (List.suffix_append taken rest) with h | ⟨t, ht⟩
  · exact h
  -- otherwise the line feed was among what was taken
  cases t with
  | nil => exact ht ▸ List.suffix_rfl
  | cons c t =>
    obtain ⟨rfl, rfl⟩ := List.cons.inj ht
    obtain ⟨u, hu⟩ := hb
    have htaken : u ++ '\n' :: t = taken := List.append_cancel_right (by simpa using hu)
    exact absurd (htaken ▸ by simp) hn

end OnLine

theorem onLine_of_takes {p : Char → Prop} {s rest : List Char} (h : Takes p s rest)
    (hn : ¬ p '\n') : OnLine s rest := by
  obtain ⟨taken, ht, hs⟩ := h
  exact ⟨taken, fun hm => hn (ht _ hm), hs⟩

theorem onLine_word {expected s rest : List Char} (hn : '\n' ∉ expected)
    (h : word expected s = .ok rest) : OnLine s rest :=
  onLine_of_takes (takes_word h) hn

theorem onLine_stringBody {s text rest : List Char} (h : stringBody s = .ok (text, rest)) :
    OnLine s rest := by
  obtain ⟨taken, -, hn, rfl⟩ := quoted_of_stringBody h
  exact ⟨taken ++ ['"'], by simp [hn], by simp⟩

theorem onLine_unsignedNumber {negative : Bool} {s rest : List Char} {n : Number}
    (h : unsignedNumber negative s = .ok (n, rest)) : OnLine s rest :=
  onLine_of_takes (takes_unsignedNumber h) (by simp [IsNumeral])

/-! ### Lines on which no lexeme begins -/

/-- A character that begins a lexeme, or white space. -/
def beginsLexeme (c : Char) : Bool :=
  isSpace c || c.isDigit ||
    ['"', '{', '}', '[', ']', ':', ',', '-', 'n', 't', 'f'].contains c

/-- A text that no JSON text goes on with: it begins no lexeme, or its first two characters begin
one that does not exist. -/
inductive Stray : List Char → Prop where
  | other {c : Char} {s : List Char} (h : beginsLexeme c = false) : Stray (c :: s)
  | dashes {s : List Char} : Stray ('-' :: '-' :: s)
  | colons {s : List Char} : Stray (':' :: ':' :: s)

/-- Of the characters that begin lexemes only a dash and a colon can begin a stray text. -/
theorem Stray.of_cons {c : Char} {s : List Char} (h : Stray (c :: s)) :
    beginsLexeme c = false ∨ c = '-' ∧ s.head? = some '-' ∨ c = ':' ∧ s.head? = some ':' := by
  cases h with
  | other h => exact .inl h
  | dashes => exact .inr (.inl ⟨rfl, rfl⟩)
  | colons => exact .inr (.inr ⟨rfl, rfl⟩)

theorem Stray.ne_nil {s : List Char} (h : Stray s) : s ≠ [] := by cases h <;> simp

/-- Characters other than dashes and colons that begin lexemes begin no stray text. -/
theorem not_stray {c : Char} (hc : beginsLexeme c) (hdash : c ≠ '-') (hcolon : c ≠ ':')
    (s : List Char) : ¬ Stray (c :: s) := by
  intro h
  rcases h.of_cons with h | ⟨h, -⟩ | ⟨h, -⟩
  · rw [hc] at h
    cases h
  · exact hdash h
  · exact hcolon h

section
variable {b : List Char}

/-- White space aside, the text is `b`, or it reaches down to a line feed before `b`. -/
def Above (b s : List Char) : Prop := '\n' :: b <:+ s ∨ skipSpace s = skipSpace b

/-- What a reader reads ends above the line feed before `b`. -/
def Halts {α : Type} (b : List Char) (reader : Reader α) : Prop :=
  ∀ ⦃s a rest⦄, Above b s → reader s = .ok (a, rest) → '\n' :: b <:+ rest

theorem skipSpace_skipSpace (s : List Char) : skipSpace (skipSpace s) = skipSpace s :=
  List.dropWhile_idempotent isSpace s

theorem Above.skipSpace {s : List Char} (h : Above b s) : Above b (skipSpace s) := by
  rcases h with ⟨a, rfl⟩ | h
  · rw [Json.skipSpace, List.dropWhile_append]
    split
    · exact .inr (skipSpace_skipSpace b)
    · exact .inl (List.suffix_append _ _)
  · exact .inr (by rw [skipSpace_skipSpace, h])

theorem ne_lineFeed_of_skipSpace {c : Char} {s rest : List Char} (h : skipSpace s = c :: rest) :
    c ≠ '\n' := by
  have hhead := List.head?_dropWhile_not isSpace s
  rw [skipSpace] at h
  rw [h] at hhead
  rintro rfl
  cases hhead

/-- Behind white space stands the first character above the line feed, or the stray text. -/
theorem Above.cons {c : Char} {s rest : List Char} (h : Above b s)
    (hs : Json.skipSpace s = c :: rest) : '\n' :: b <:+ rest ∨ Json.skipSpace b = c :: rest := by
  have h := h.skipSpace
  rw [Above, skipSpace_skipSpace, hs] at h
  rcases h with h | h
  · rcases List.suffix_cons_iff.1 h with h | h
    · exact absurd (List.cons.inj h).1.symm (ne_lineFeed_of_skipSpace hs)
    · exact .inl h
  · exact .inr h.symm

/-- A character that begins no stray text stands above the line feed. -/
theorem Above.suffix (hb : Stray (Json.skipSpace b)) {c : Char} {s rest : List Char}
    (h : Above b s) (hs : Json.skipSpace s = c :: rest) (hc : beginsLexeme c) (hdash : c ≠ '-')
    (hcolon : c ≠ ':') : '\n' :: b <:+ rest := by
  refine (h.cons hs).resolve_right fun he => ?_
  exact not_stray hc hdash hcolon rest (he ▸ hb)

theorem halts_moreItems {α : Type} {item : Reader α} (hb : Stray (skipSpace b))
    (hi : Halts b item) : ∀ fuel, Halts b (moreItems item fuel) := by
  intro fuel
  induction fuel with
  | zero =>
    intro s a rest _ h
    cases h
  | succ fuel ih =>
    intro s a rest hs h
    unfold moreItems at h
    split at h
    · cases h
    · rename_i rest' heq
      obtain ⟨-, rfl⟩ := Prod.mk.inj (Except.ok.inj h)
      exact hs.suffix hb heq (by decide) (by decide) (by decide)
    · rename_i rest' heq
      have hrest := hs.suffix hb heq (by decide) (by decide) (by decide)
      have habove : Above b (skipSpace rest') := Above.skipSpace (.inl hrest)
      split at h
      · cases h
      · cases h
      · obtain ⟨⟨x, r⟩, hx, h⟩ := Outcome.bind_eq_ok.1 h
        obtain ⟨⟨xs, r'⟩, hxs, h⟩ := Outcome.bind_eq_ok.1 h
        obtain ⟨-, rfl⟩ := Prod.mk.inj (Except.ok.inj h)
        exact ih (.inl (hi habove hx)) hxs
    · cases h

theorem halts_items {α : Type} {item : Reader α} (hb : Stray (skipSpace b)) (hi : Halts b item) :
    Halts b (items item) := by
  intro s a rest hs h
  unfold items at h
  split at h
  · cases h
  · rename_i rest' heq
    obtain ⟨-, rfl⟩ := Prod.mk.inj (Except.ok.inj h)
    exact hs.suffix hb heq (by decide) (by decide) (by decide)
  · obtain ⟨⟨x, r⟩, hx, h⟩ := Outcome.bind_eq_ok.1 h
    obtain ⟨⟨xs, r'⟩, hxs, h⟩ := Outcome.bind_eq_ok.1 h
    obtain ⟨-, rfl⟩ := Prod.mk.inj (Except.ok.inj h)
    exact halts_moreItems hb hi _ (.inl (hi hs.skipSpace hx)) hxs

theorem suffix_member {σ : Type} {field : String → σ → Reader σ} {state a : σ}
    (hf : ∀ name state, Halts b (field name state)) {s rest : List Char} (hs : '\n' :: b <:+ s)
    (h : member field state s = .ok (a, rest)) : '\n' :: b <:+ rest := by
  obtain ⟨⟨name, r⟩, hname, h⟩ := Outcome.bind_eq_ok.1 h
  obtain ⟨⟨text, r'⟩, htext, hname⟩ := Outcome.bind_eq_ok.1 hname
  obtain ⟨-, rfl⟩ := Prod.mk.inj (Except.ok.inj hname)
  exact hf _ _ (.inl ((onLine_stringBody htext).suffix hs)) h

theorem halts_moreMembers {σ : Type} {field : String → σ → Reader σ} (hb : Stray (skipSpace b))
    (hf : ∀ name state, Halts b (field name state)) :
    ∀ fuel state, Halts b (moreMembers field fuel state) := by
  intro fuel
  induction fuel with
  | zero =>
    intro state s a rest _ h
    cases h
  | succ fuel ih =>
    intro state s a rest hs h
    unfold moreMembers at h
    split at h
    · cases h
    · rename_i rest' heq
      obtain ⟨-, rfl⟩ := Prod.mk.inj (Except.ok.inj h)
      exact hs.suffix hb heq (by decide) (by decide) (by decide)
    · rename_i rest' heq
      have hrest := hs.suffix hb heq (by decide) (by decide) (by decide)
      split at h
      · cases h
      · rename_i r heq'
        obtain ⟨⟨x, r'⟩, hx, h⟩ := Outcome.bind_eq_ok.1 h
        have hr := Above.suffix hb (.inl hrest) heq' (by decide) (by decide) (by decide)
        exact ih x (.inl (suffix_member hf hr hx)) h
      · cases h
      · cases h
    · cases h

theorem halts_members {σ : Type} {field : String → σ → Reader σ} (hb : Stray (skipSpace b))
    (hf : ∀ name state, Halts b (field name state)) (start : σ) :
    Halts b (members field start) := by
  intro s a rest hs h
  unfold members at h
  split at h
  · cases h
  · rename_i rest' heq
    obtain ⟨-, rfl⟩ := Prod.mk.inj (Except.ok.inj h)
    exact hs.suffix hb heq (by decide) (by decide) (by decide)
  · rename_i r heq
    obtain ⟨⟨x, r'⟩, hx, h⟩ := Outcome.bind_eq_ok.1 h
    have hr := hs.suffix hb heq (by decide) (by decide) (by decide)
    exact halts_moreMembers hb hf _ x (.inl (suffix_member hf hr hx)) h
  · cases h

theorem valueWithin_colon (depth : Nat) (s : List Char) :
    valueWithin depth (':' :: s) = fail .expectedValue := by
  cases depth <;> rfl

/-- A member's value halts where the value does: two colons begin no value. -/
theorem halts_memberValue (hb : Stray (skipSpace b)) {depth : Nat}
    (hv : Halts b (valueWithin depth)) (name : String) (acc : Members) :
    Halts b (fun s => do
      let (v, rest) ← valueWithin depth (← colon s)
      return (acc.insert name v, rest)) := by
  intro s a rest hs h
  obtain ⟨r, hcolon, h⟩ := Outcome.bind_eq_ok.1 h
  obtain ⟨⟨v, r'⟩, hr, h⟩ := Outcome.bind_eq_ok.1 h
  obtain ⟨-, rfl⟩ := Prod.mk.inj (Except.ok.inj h)
  unfold colon at hcolon
  split at hcolon
  · cases hcolon
  · rename_i r'' heq
    obtain rfl := Except.ok.inj hcolon
    rcases hs.cons heq with hr'' | hstray
    · exact hv (.inl hr'') hr
    · rw [hstray] at hb
      cases hb with
      | other h => exact absurd h (by decide)
      | colons =>
        rw [valueWithin_colon] at hr
        cases hr
  · cases hcolon

theorem suffix_word {expected s rest : List Char} {v a : Value} (hn : '\n' ∉ expected)
    (hs : '\n' :: b <:+ s) (h : (do return (v, ← word expected s)) = Except.ok (a, rest)) :
    '\n' :: b <:+ rest := by
  obtain ⟨r, hword, h⟩ := Outcome.bind_eq_ok.1 h
  obtain ⟨-, rfl⟩ := Prod.mk.inj (Except.ok.inj h)
  exact (onLine_word hn hword).suffix hs

/-- A value halts where the values one level down do. -/
theorem halts_valueWithin_of (hb : Stray (skipSpace b)) {depth : Nat}
    (hd : ∀ k, depth = k + 1 → Halts b (valueWithin k)) : Halts b (valueWithin depth) := by
  intro s a rest hs h
  unfold valueWithin at h
  split at h
  · cases h
  · rename_i r heq
    exact suffix_word (by decide) (hs.suffix hb heq (by decide) (by decide) (by decide)) h
  · rename_i r heq
    exact suffix_word (by decide) (hs.suffix hb heq (by decide) (by decide) (by decide)) h
  · rename_i r heq
    exact suffix_word (by decide) (hs.suffix hb heq (by decide) (by decide) (by decide)) h
  · rename_i r heq
    obtain ⟨⟨text, r'⟩, hstring, h⟩ := Outcome.bind_eq_ok.1 h
    obtain ⟨⟨text', r''⟩, hbody, hstring⟩ := Outcome.bind_eq_ok.1 hstring
    obtain ⟨-, rfl⟩ := Prod.mk.inj (Except.ok.inj hstring)
    obtain ⟨-, rfl⟩ := Prod.mk.inj (Except.ok.inj h)
    exact (onLine_stringBody hbody).suffix
      (hs.suffix hb heq (by decide) (by decide) (by decide))
  · rename_i r heq
    obtain ⟨⟨n, r'⟩, hn, h⟩ := Outcome.bind_eq_ok.1 h
    obtain ⟨-, rfl⟩ := Prod.mk.inj (Except.ok.inj h)
    rcases hs.cons heq with hr | hstray
    · exact (onLine_unsignedNumber hn).suffix hr
    -- a number does not begin with a second dash
    · rw [hstray] at hb
      cases hb with
      | other h => exact absurd h (by decide)
      | dashes => cases hn
  · rename_i r heq
    split at h
    · cases h
    · rename_i k
      obtain ⟨⟨vs, r'⟩, hitems, h⟩ := Outcome.bind_eq_ok.1 h
      obtain ⟨-, rfl⟩ := Prod.mk.inj (Except.ok.inj h)
      have hr := hs.suffix hb heq (by decide) (by decide) (by decide)
      exact halts_items hb (hd k rfl) (.inl hr) hitems
  · rename_i r heq
    split at h
    · cases h
    · rename_i k
      obtain ⟨⟨ms, r'⟩, hmembers, h⟩ := Outcome.bind_eq_ok.1 h
      obtain ⟨-, rfl⟩ := Prod.mk.inj (Except.ok.inj h)
      have hr := hs.suffix hb heq (by decide) (by decide) (by decide)
      exact halts_members hb (halts_memberValue hb (hd k rfl)) [] (.inl hr) hmembers
  · rename_i c r _ _ _ _ _ _ _ heq
    split at h
    · rename_i hc
      obtain ⟨⟨n, r'⟩, hn, h⟩ := Outcome.bind_eq_ok.1 h
      obtain ⟨-, rfl⟩ := Prod.mk.inj (Except.ok.inj h)
      have hlexeme : beginsLexeme c := by simp [beginsLexeme, hc]
      have hr := hs.suffix hb heq hlexeme (by rintro rfl; exact absurd hc (by decide))
        (by rintro rfl; exact absurd hc (by decide))
      exact (onLine_unsignedNumber hn).suffix (hr.trans (List.suffix_cons c r))
    · cases h

/-- **A value ends above a line on which no lexeme begins.** -/
theorem halts_valueWithin (hb : Stray (skipSpace b)) : ∀ depth, Halts b (valueWithin depth) := by
  intro depth
  induction depth with
  | zero => exact halts_valueWithin_of hb (by simp)
  | succ depth ih => exact halts_valueWithin_of hb (by rintro k ⟨⟩; exact ih)

/-- **A JSON text has no line on which no lexeme begins.** -/
theorem document_ne_ok (hb : Stray (skipSpace b)) {s : List Char} (hs : '\n' :: b <:+ s)
    (v : Value) : document value s ≠ .ok v := by
  intro h
  obtain ⟨⟨v', rest⟩, hv, h⟩ := Outcome.bind_eq_ok.1 h
  have hrest := halts_valueWithin hb maxDepth (.inl hs) hv
  dsimp only at h
  split at h
  · rename_i hblank
    obtain ⟨above, rfl⟩ := hrest
    have hall : ∀ c ∈ above ++ '\n' :: b, isSpace c := by
      rwa [List.isEmpty_iff, skipSpace, List.dropWhile_eq_nil_iff] at hblank
    refine hb.ne_nil ?_
    rw [skipSpace, List.dropWhile_eq_nil_iff]
    exact fun c hc => hall c (by simp [hc])
  · cases h

end

end Scaffold.Json
