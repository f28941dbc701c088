import Scaffold.Merge.Structured
import Scaffold.Proofs.Json.Read
import Scaffold.Proofs.Merge.Values

/-!
# Documents merged again

A document into which content has been merged stays as it is when the content is merged into it once
more (`structured_idempotent`), whatever the document held before: what is written the first time
either stands alone or holds the source already, and either way the source merged into it is without
effect.
-/

namespace Scaffold.Merge

open Json

/-- The value of the document that there is, if it is not blank. -/
def targetValue (f : DataFormat) (input : MergeInput) : Except Failure (Option Value) :=
  match input.destination? with
  | some s => parse f s
  | none => .ok none

/-- The value that a document gets when content goes into it, unless it stays as it is. -/
def structuredValue (f : DataFormat) (input : MergeInput) : Except Failure (Option Value) := do
  let source? ← parse f input.content
  let target? ← targetValue f input
  return document input.options input.destination?.isSome target? (source?.getD .null)

/-- The text of a document that gets a value, or nothing if it stays as it is. -/
def printed? (f : DataFormat) : Option Value → Except Failure (Option String)
  | none => .ok none
  | some v => (print f v).map some

theorem structured_eq (f : DataFormat) (input : MergeInput) :
    structured f input = structuredValue f input >>= printed? f := by
  obtain ⟨destination?, content, identity, delimiters, options⟩ := input
  simp only [structured, structuredValue, targetValue]
  cases parse f content with
  | error e => rfl
  | ok source? =>
    cases destination? with
    | none =>
      simp only [bind, Except.bind, pure, Except.pure]
      cases document options (none : Option String).isSome none (source?.getD .null) <;> rfl
    | some s =>
      simp only [bind, Except.bind, pure, Except.pure]
      cases parse f s with
      | error e => rfl
      | ok target? =>
        dsimp only
        cases document options (some s).isSome target? (source?.getD .null) <;> rfl

/-- The value of a document can be read back from what is printed of it. -/
def ReadsBack (f : DataFormat) (v : Value) : Prop :=
  ∀ text, print f v = .ok text → parse f text = .ok (some v)

section
variable {o : Options} {source v : Value} {target? : Option Value} {isPresent : Bool}

theorem document_eq_some (h : document o isPresent target? source = some v) :
    v.isNull = false ∧ (v = source ∨ o.appendStrategy ≠ .replace ∧
      ∃ target, v = values o.arrayStrategy target source) := by
  obtain ⟨hmerged, hnull⟩ := Option.filter_eq_some_iff.1 h
  refine ⟨by simpa using hnull, ?_⟩
  split at hmerged
  · exact .inl (Option.some.inj hmerged).symm
  · split at hmerged
    · exact .inl (Option.some.inj hmerged).symm
    · cases hmerged
  · cases hmerged
  · rename_i target hreplace _
    exact .inr ⟨hreplace, target, (Option.some.inj hmerged).symm⟩
  · exact .inl (Option.some.inj hmerged).symm

/-- What a source that is appended makes of a document. -/
theorem document_of_append (happend : o.appendStrategy = .append)
    (h : document o isPresent target? source = some v) :
    v.isNull = false ∧ v = (target?.map (values o.arrayStrategy · source)).getD source := by
  refine ⟨(document_eq_some h).1, ?_⟩
  cases target? <;> simp only [document, happend, Option.filter_eq_some_iff] at h
  · exact (Option.some.inj h.1).symm
  · exact (Option.some.inj h.1).symm

/-- A document that the source went into is the source, or holds it already. -/
theorem document_again (hs : Stable o.arrayStrategy source)
    (h : document o isPresent target? source = some v) :
    document o true (some v) source = none ∨ document o true (some v) source = some v := by
  obtain ⟨hnull, hv⟩ := document_eq_some h
  have hvalues : values o.arrayStrategy v source = v := by
    rcases hv with rfl | ⟨-, target, rfl⟩
    · exact hs.1
    · exact hs.2 target
  have hwritten : (some v).filter (fun v => !v.isNull) = some v := by simp [hnull]
  cases hstrategy : o.appendStrategy with
  | ignore => exact .inl (by simp only [document, hstrategy, Option.filter_none])
  | append => exact .inr (by simp only [document, hstrategy, hvalues, hwritten])
  | appendIfExists => exact .inr (by simp only [document, hstrategy, hvalues, hwritten])
  | replace =>
    obtain rfl := hv.resolve_right fun hne => hne.1 hstrategy
    exact .inr (by simp only [document, hstrategy, hwritten])

end

section
variable {f : DataFormat} {input : MergeInput} {text : String} {v : Value}

/-- What is written is printed from the value that the document gets. -/
theorem structured_eq_some : structured f input = .ok (some text) ↔
    ∃ v, structuredValue f input = .ok (some v) ∧ print f v = .ok text := by
  rw [structured_eq, Outcome.bind_eq_ok]
  constructor
  · rintro ⟨v?, hvalue, h⟩
    cases v? with
    | none => cases h
    | some v =>
      obtain ⟨t, ht, hsome⟩ := Outcome.map_eq_ok.1 h
      exact ⟨v, hvalue, Option.some.inj hsome ▸ ht⟩
  · rintro ⟨v, hvalue, hprint⟩
    exact ⟨some v, hvalue, Outcome.map_eq_ok.2 ⟨text, hprint, rfl⟩⟩

/-- **A written document is written again as it is, or left alone.** -/
theorem structured_again (hvalue : structuredValue f input = .ok (some v))
    (hprint : print f v = .ok text) (hread : ReadsBack f v)
    (hs : ∀ source?, parse f input.content = .ok source? →
      Stable input.options.arrayStrategy (source?.getD .null)) :
    structured f { input with destination? := some text } = .ok none ∨
      structured f { input with destination? := some text } = .ok (some text) := by
  obtain ⟨source?, hsource, h⟩ := Outcome.bind_eq_ok.1 hvalue
  obtain ⟨target?, -, h⟩ := Outcome.bind_eq_ok.1 h
  have hsecond : structuredValue f { input with destination? := some text } =
      .ok (document input.options true (some v) (source?.getD .null)) :=
    Outcome.bind_eq_ok.2 ⟨source?, hsource, Outcome.bind_eq_ok.2 ⟨some v, hread text hprint, rfl⟩⟩
  rcases document_again (hs source? hsource) (Except.ok.inj h) with hnone | hsome
  · exact .inl (structured_eq _ _ ▸ Outcome.bind_eq_ok.2 ⟨none, hnone ▸ hsecond, rfl⟩)
  · exact .inr (structured_eq_some.2 ⟨v, hsome ▸ hsecond, hprint⟩)

end

/-- What a JSON text spells is a proper value. -/
theorem proper_parse {s : String} {v? : Option Value} (h : parse .json s = .ok v?) :
    (v?.getD .null).Proper := by
  have h := Outcome.mapError_eq_ok.1 h
  rw [DataFormat.parse] at h
  split at h
  · obtain rfl := Except.ok.inj h
    exact Value.proper_null
  · obtain ⟨v, hv, rfl⟩ := Outcome.map_eq_ok.1 h
    exact proper_of_parse (Outcome.mapError_eq_ok.1 hv)

/-- **Structured merging is idempotent.** A source that is merged again, or into itself, changes
nothing, unless arrays are concatenated or items of one array share their key. So a JSON document
that content went into is not written again, or written as it is, when the same content goes into
it. -/
theorem structured_idempotent (strategy : ArrayStrategy) :
    (∀ source : Value, source.Proper → Repeatable source strategy →
      values strategy source source = source ∧
        ∀ target, values strategy (values strategy target source) source =
          values strategy target source) ∧
    ∀ (input : MergeInput) (text : String), input.options.arrayStrategy = strategy →
      (∀ source?, parse .json input.content = .ok source? →
        Repeatable (source?.getD .null) strategy) →
      (∀ v, structuredValue .json input = .ok (some v) → ReadsBack .json v) →
      structured .json input = .ok (some text) →
        structured .json { input with destination? := some text } = .ok none ∨
        structured .json { input with destination? := some text } = .ok (some text) := by
  refine ⟨stable_of_repeatable, ?_⟩
  rintro input text rfl hrepeat hread h
  obtain ⟨v, hvalue, hprint⟩ := structured_eq_some.1 h
  exact structured_again hvalue hprint (hread v hvalue) fun source? hsource =>
    stable_of_repeatable _ (proper_parse hsource) (hrepeat source? hsource)

/-- Two items with keys, for a document that has an item with one of them. -/
def keyedInput : MergeInput where
  destination? := some "\x7b\"a\":null,\"u\":[\x7b\"k\":2,\"n\":0\x7d]\x7d"
  content := "\x7b\"u\":[\x7b\"k\":1\x7d,\x7b\"k\":2\x7d]\x7d"
  identity := ⟨⟨"t", "1", "p"⟩, []⟩
  delimiters := .ofOptions .default ⟨"a.json"⟩
  options := { Options.default with arrayStrategy := .key "k" }

/-- The items that go into the document. -/
def keyedItems : List Value :=
  [.object [("k", .number (.integer 1))], .object [("k", .number (.integer 2))]]

/-- The document after the items went into it. -/
def keyedText : String :=
  "\x7b\n  \"a\": null,\n  \"u\": [\n    \x7b\n      \"k\": 2\n    \x7d,\n" ++
    "    \x7b\n      \"k\": 1\n    \x7d\n  ]\n\x7d\n"

theorem repeatable_keyedItems : Repeatable (.object [("u", .array keyedItems)]) (.key "k") := by
  intro items h
  cases h with
  | member hm h =>
    obtain rfl := List.mem_singleton.1 hm
    cases h with
    | here =>
      refine ⟨by simp [keyedItems, Value.get?, Members.get?], ?_⟩
      simp [keyedItems, Value.get?, Members.get?, Value.same, Number.same]
    | item hitem h =>
      -- the items hold numbers and no arrays
      rcases List.mem_pair.1 hitem with rfl | rfl
      all_goals
        cases h with
        | member hm h =>
          obtain rfl := List.mem_singleton.1 hm
          cases h

theorem structured_idempotent_of_keyed_items :
    Value.Proper (.object [("u", .array keyedItems)]) ∧
    Repeatable (.object [("u", .array keyedItems)]) (.key "k") ∧
    values (.key "k") (.object [("u", .array keyedItems)]) (.object [("u", .array keyedItems)]) =
      .object [("u", .array keyedItems)] ∧
    structured .json keyedInput = .ok (some keyedText) ∧
    (structured .json { keyedInput with destination? := some keyedText } = .ok none ∨
      structured .json { keyedInput with destination? := some keyedText } = .ok (some keyedText)) := by
  have hsource : parse .json keyedInput.content = .ok (some (.object [("u", .array keyedItems)])) :=
    rfl
  have htarget : targetValue .json keyedInput = .ok (some (.object [("a", .null),
      ("u", .array [.object [("k", .number (.integer 2)), ("n", .number (.integer 0))]])])) := rfl
  have hvalue : structuredValue .json keyedInput =
      .ok (some (.object [("a", .null), ("u", .array keyedItems.reverse)])) :=
    Outcome.bind_eq_ok.2 ⟨_, hsource, Outcome.bind_eq_ok.2 ⟨_, htarget, rfl⟩⟩
  have hwritten : structured .json keyedInput = .ok (some keyedText) :=
    structured_eq_some.2 ⟨_, hvalue, rfl⟩
  have hproper := proper_parse hsource
  refine ⟨hproper, repeatable_keyedItems,
    ((structured_idempotent (.key "k")).1 _ hproper repeatable_keyedItems).1, hwritten,
    (structured_idempotent (.key "k")).2 keyedInput keyedText rfl (fun source? h => ?_)
      (fun v h text htext => ?_) hwritten⟩
  · obtain rfl := Except.ok.inj (hsource.symm.trans h)
    exact repeatable_keyedItems
  · obtain rfl := Option.some.inj (Except.ok.inj (hvalue.symm.trans h))
    obtain rfl : keyedText = text := Except.ok.inj htext
    rfl

end Scaffold.Merge
