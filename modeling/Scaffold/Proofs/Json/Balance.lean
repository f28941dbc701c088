import Scaffold.Proofs.Json.Taken

/-!
# JSON texts balance

Reading JSON never stops between braces: whatever a reader takes off a text is balanced
(`evenly_valueWithin`). Strings hide their braces, numbers and words have none, and the members of
an object end with the brace that closes it. So an object that is a whole text, with nothing around
it, is a text in braces (`braced_of_document`).
-/

namespace Scaffold.Json

open Text (Balanced Braced)

/-- What follows when balanced text is taken off a text. -/
def Evenly (s rest : List Char) : Prop := ∃ taken, Balanced taken ∧ s = taken ++ rest

/-- What the reader takes off a text is balanced. -/
def TakesEvenly {α : Type} (reader : Reader α) : Prop :=
  ∀ ⦃s a rest⦄, reader s = .ok (a, rest) → Evenly s rest

namespace Evenly

variable {c : Char} {s t u rest : List Char}

theorem refl (s : List Char) : Evenly s s := ⟨[], .nil, rfl⟩

theorem trans (hs : Evenly s t) (ht : Evenly t u) : Evenly s u := by
  obtain ⟨a, ha, rfl⟩ := hs
  obtain ⟨b, hb, rfl⟩ := ht
  exact ⟨a ++ b, ha.append hb, by simp⟩

theorem of_takes {p : Char → Prop} (h : Takes p s rest)
    (hp : ∀ c, p c → c ≠ '"' ∧ c ≠ '{' ∧ c ≠ '}') : Evenly s rest := by
  obtain ⟨taken, ht, rfl⟩ := h
  exact ⟨taken, Text.balanced_of_plain fun c hc => hp c (ht c hc), rfl⟩

theorem cons (hc : c ≠ '"' ∧ c ≠ '{' ∧ c ≠ '}') (h : Evenly s rest) : Evenly (c :: s) rest := by
  obtain ⟨taken, ht, rfl⟩ := h
  exact ⟨c :: taken, .plain hc.1 hc.2.1 hc.2.2 ht, rfl⟩

theorem string (h : EndsQuote s rest) : Evenly ('"' :: s) rest := by
  obtain ⟨taken, ht, -, rfl⟩ := h
  exact ⟨'"' :: (taken ++ ['"']), .string ht .nil, by simp⟩

theorem braces (h : Evenly s ('}' :: rest)) : Evenly ('{' :: s) rest := by
  obtain ⟨taken, ht, rfl⟩ := h
  exact ⟨'{' :: (taken ++ ['}']), .braces ht .nil, by simp⟩

theorem skipSpace (s : List Char) : Evenly s (skipSpace s) := by
  refine of_takes (takes_dropWhile isSpace s) fun c hc => ?_
  simp only [isSpace, Bool.or_eq_true, beq_iff_eq] at hc
  rcases hc with ((rfl | rfl) | rfl) | rfl <;> decide

/-- White space in front may be left out. -/
theorem of_skipSpace (h : Evenly (Json.skipSpace s) rest) : Evenly s rest :=
  (skipSpace s).trans h

end Evenly

/-! ### Lexemes -/

theorem evenly_unsignedNumber (negative : Bool) : TakesEvenly (unsignedNumber negative) := by
  intro s n rest h
  refine .of_takes (takes_unsignedNumber h) fun c hc => ?_
  rcases hc with hc | hc
  · refine ⟨?_, ?_, ?_⟩ <;>
      · rintro rfl
        exact absurd hc (by decide)
  · simp only [List.mem_cons, List.not_mem_nil, or_false] at hc
    rcases hc with rfl | rfl | rfl | rfl | rfl <;> decide

theorem evenly_word {expected : List Char} (hplain : ∀ c ∈ expected, c ≠ '"' ∧ c ≠ '{' ∧ c ≠ '}')
    (v : Value) : TakesEvenly fun s => do return (v, ← word expected s) := by
  intro s a rest h
  obtain ⟨r, hword, h⟩ := Outcome.bind_eq_ok.1 h
  obtain ⟨-, rfl⟩ := Prod.mk.inj (Except.ok.inj h)
  exact .of_takes (takes_word hword) hplain

theorem evenly_string {s rest : List Char} {text : String} (h : string s = .ok (text, rest)) :
    Evenly ('"' :: s) rest := by
  obtain ⟨⟨t, r⟩, hbody, h⟩ := Outcome.bind_eq_ok.1 h
  obtain ⟨-, rfl⟩ := Prod.mk.inj (Except.ok.inj h)
  exact .string (quoted_of_stringBody hbody)

theorem evenly_colon {s rest : List Char} (h : colon s = .ok rest) : Evenly s rest := by
  unfold colon at h
  split at h
  · cases h
  · rename_i r heq
    obtain rfl := Except.ok.inj h
    exact .of_skipSpace (heq ▸ (Evenly.refl r).cons (by decide))
  · cases h

/-! ### Containers -/

section
variable {α σ : Type}

theorem evenly_moreItems {item : Reader α} (hi : TakesEvenly item) :
    ∀ fuel, TakesEvenly (moreItems item fuel) := by
  intro fuel
  induction fuel with
  | zero =>
    intro s as rest h
    cases h
  | succ fuel ih =>
    intro s as rest h
    unfold moreItems at h
    split at h
    · cases h
    · rename_i r heq
      obtain ⟨-, rfl⟩ := Prod.mk.inj (Except.ok.inj h)
      exact .of_skipSpace (heq ▸ (Evenly.refl r).cons (by decide))
    · rename_i r heq
      refine .of_skipSpace (heq ▸ Evenly.cons (by decide) (.of_skipSpace ?_))
      split at h
      · cases h
      · cases h
      · obtain ⟨⟨x, r'⟩, hx, h⟩ := Outcome.bind_eq_ok.1 h
        obtain ⟨⟨xs, r''⟩, hxs, h⟩ := Outcome.bind_eq_ok.1 h
        obtain ⟨-, rfl⟩ := Prod.mk.inj (Except.ok.inj h)
        exact (hi hx).trans (ih hxs)
    · cases h

theorem evenly_items {item : Reader α} (hi : TakesEvenly item) : TakesEvenly (items item) := by
  intro s as rest h
  unfold items at h
  split at h
  · cases h
  · rename_i r heq
    obtain ⟨-, rfl⟩ := Prod.mk.inj (Except.ok.inj h)
    exact .of_skipSpace (heq ▸ (Evenly.refl r).cons (by decide))
  · obtain ⟨⟨x, r⟩, hx, h⟩ := Outcome.bind_eq_ok.1 h
    obtain ⟨⟨xs, r'⟩, hxs, h⟩ := Outcome.bind_eq_ok.1 h
    obtain ⟨-, rfl⟩ := Prod.mk.inj (Except.ok.inj h)
    exact (Evenly.of_skipSpace (hi hx)).trans (evenly_moreItems hi _ hxs)

variable {field : String → σ → Reader σ} (hf : ∀ name state, TakesEvenly (field name state))

include hf

theorem evenly_member {state a : σ} {s rest : List Char}
    (h : member field state s = .ok (a, rest)) : Evenly ('"' :: s) rest := by
  obtain ⟨⟨name, r⟩, hname, h⟩ := Outcome.bind_eq_ok.1 h
  exact (evenly_string hname).trans (hf name state h)

/-- The members of an object end with the brace that closes it. -/
theorem evenly_moreMembers : ∀ fuel {state a : σ} {s rest : List Char},
    moreMembers field fuel state s = .ok (a, rest) → Evenly s ('}' :: rest) := by
  intro fuel
  induction fuel with
  | zero =>
    intro state a s rest h
    cases h
  | succ fuel ih =>
    intro state a s rest h
    unfold moreMembers at h
    split at h
    · cases h
    · rename_i r heq
      obtain ⟨-, rfl⟩ := Prod.mk.inj (Except.ok.inj h)
      exact heq ▸ .skipSpace s
    · rename_i r heq
      refine .of_skipSpace (heq ▸ Evenly.cons (by decide) (.of_skipSpace ?_))
      split at h
      · cases h
      · rename_i r' heq'
        obtain ⟨⟨x, r''⟩, hx, h⟩ := Outcome.bind_eq_ok.1 h
        exact heq' ▸ (evenly_member hf hx).trans (ih h)
      · cases h
      · cases h
    · cases h

theorem evenly_members {start a : σ} {s rest : List Char}
    (h : members field start s = .ok (a, rest)) : Evenly s ('}' :: rest) := by
  unfold members at h
  split at h
  · cases h
  · rename_i r heq
    obtain ⟨-, rfl⟩ := Prod.mk.inj (Except.ok.inj h)
    exact heq ▸ .skipSpace s
  · rename_i r heq
    obtain ⟨⟨x, r'⟩, hx, h⟩ := Outcome.bind_eq_ok.1 h
    exact .of_skipSpace (heq ▸ (evenly_member hf hx).trans (evenly_moreMembers hf _ h))
  · cases h

end

/-! ### Values -/

/-- The value of a member is balanced where values one level down are. -/
theorem evenly_memberValue {depth : Nat} (hv : TakesEvenly (valueWithin depth)) (name : String)
    (acc : Members) : TakesEvenly fun s => do
      let (v, rest) ← valueWithin depth (← colon s)
      return (acc.insert name v, rest) := by
  intro s a rest h
  obtain ⟨r, hcolon, h⟩ := Outcome.bind_eq_ok.1 h
  obtain ⟨⟨v, r'⟩, hr, h⟩ := Outcome.bind_eq_ok.1 h
  obtain ⟨-, rfl⟩ := Prod.mk.inj (Except.ok.inj h)
  exact (evenly_colon hcolon).trans (hv hr)

theorem evenly_valueWithin_of {depth : Nat}
    (hd : ∀ k, depth = k + 1 → TakesEvenly (valueWithin k)) : TakesEvenly (valueWithin depth) := by
  intro s a rest h
  refine .of_skipSpace ?_
  unfold valueWithin at h
  split at h
  · cases h
  · rename_i r heq
    exact heq ▸ (evenly_word (by simp) _ h).cons (by decide)
  · rename_i r heq
    exact heq ▸ (evenly_word (by simp) _ h).cons (by decide)
  · rename_i r heq
    exact heq ▸ (evenly_word (by simp) _ h).cons (by decide)
  · rename_i r heq
    obtain ⟨⟨text, r'⟩, hstring, h⟩ := Outcome.bind_eq_ok.1 h
    obtain ⟨-, rfl⟩ := Prod.mk.inj (Except.ok.inj h)
    exact heq ▸ evenly_string hstring
  · rename_i r heq
    obtain ⟨⟨n, r'⟩, hn, h⟩ := Outcome.bind_eq_ok.1 h
    obtain ⟨-, rfl⟩ := Prod.mk.inj (Except.ok.inj h)
    exact heq ▸ (evenly_unsignedNumber true hn).cons (by decide)
  · rename_i r heq
    split at h
    · cases h
    · rename_i k
      obtain ⟨⟨vs, r'⟩, hitems, h⟩ := Outcome.bind_eq_ok.1 h
      obtain ⟨-, rfl⟩ := Prod.mk.inj (Except.ok.inj h)
      exact heq ▸ (evenly_items (hd k rfl) hitems).cons (by decide)
  · rename_i r heq
    split at h
    · cases h
    · rename_i k
      obtain ⟨⟨ms, r'⟩, hmembers, h⟩ := Outcome.bind_eq_ok.1 h
      obtain ⟨-, rfl⟩ := Prod.mk.inj (Except.ok.inj h)
      exact heq ▸ (evenly_members (evenly_memberValue (hd k rfl)) hmembers).braces
  · rename_i c r _ _ _ _ _ _ _ heq
    split at h
    · obtain ⟨⟨n, r'⟩, hn, h⟩ := Outcome.bind_eq_ok.1 h
      obtain ⟨-, rfl⟩ := Prod.mk.inj (Except.ok.inj h)
      exact heq ▸ evenly_unsignedNumber false hn
    · cases h

/-- **What is read as a value is balanced.** -/
theorem evenly_valueWithin : ∀ depth, TakesEvenly (valueWithin depth) := by
  intro depth
  induction depth with
  | zero => exact evenly_valueWithin_of nofun
  | succ depth ih => exact evenly_valueWithin_of (by rintro k ⟨⟩; exact ih)

/-- What is read behind an opening brace ends with the brace that closes it. -/
theorem evenly_of_object {depth : Nat} {s rest : List Char} {v : Value}
    (h : valueWithin depth ('{' :: s) = .ok (v, rest)) : Evenly s ('}' :: rest) := by
  cases depth with
  | zero => cases h
  | succ depth =>
    have hread : valueWithin (depth + 1) ('{' :: s) =
        members (fun name (acc : Members) s => do
          let (v, rest) ← valueWithin depth (← colon s)
          return (acc.insert name v, rest)) [] s >>= fun r => .ok (.object r.1, r.2) := rfl
    rw [hread] at h
    obtain ⟨r, hmembers, h⟩ := Outcome.bind_eq_ok.1 h
    obtain ⟨-, rfl⟩ := Prod.mk.inj (Except.ok.inj h)
    exact evenly_members (evenly_memberValue (evenly_valueWithin depth)) hmembers

/-- **An object that is a whole text is a text in braces**, if nothing stands around it. -/
theorem braced_of_document {s : List Char} {v : Value} (h : document value ('{' :: s) = .ok v)
    (hlast : ('{' :: s).getLast? = some '}') : Braced ('{' :: s) := by
  obtain ⟨⟨v', rest⟩, hread, hend⟩ := Outcome.bind_eq_ok.1 h
  obtain ⟨taken, ht, rfl⟩ := evenly_of_object hread
  dsimp only at hend
  split at hend
  · rename_i hspace
    rw [List.isEmpty_iff, skipSpace, List.dropWhile_eq_nil_iff] at hspace
    -- white space behind the closing brace would end the text
    rcases List.eq_nil_or_concat' rest with rfl | ⟨rest, c, rfl⟩
    · exact ⟨taken, ht, rfl⟩
    · have hlast : ('{' :: (taken ++ '}' :: rest) ++ [c]).getLast? = some '}' := by
        simpa only [List.cons_append, List.append_assoc] using hlast
      rw [List.getLast?_concat] at hlast
      obtain rfl := Option.some.inj hlast
      exact absurd (hspace '}' (by simp)) (by decide)
  · cases hend

end Scaffold.Json
