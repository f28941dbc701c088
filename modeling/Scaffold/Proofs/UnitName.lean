import Scaffold.Proofs.Text
import Scaffold.UnitName

/-!
# Names of units that are read back

The pieces of a unit's name may hold the marks that part them: a template may be called
`@scope/react`, and a version may have colons. A name is read back from its written form if and only
if its pieces hold something, the part has no colon and the version no `@`, for then the marks
between the pieces are the last ones (`parse?_eq_some_iff`). A text that is a name is the written form
of that name and of no other one (`parse?_inverse`).
-/

namespace Scaffold.UnitName

variable {s : String} {u v : UnitName}

/-- A name whose pieces hold something, and in which the marks between the pieces are the last. -/
structure Legible (u : UnitName) : Prop where
  template : u.template.toList ≠ []
  version : u.version.toList ≠ [] ∧ '@' ∉ u.version.toList
  part : u.part.toList ≠ [] ∧ ':' ∉ u.part.toList

instance (u : UnitName) : Decidable u.Legible :=
  decidable_of_iff (u.template.toList ≠ [] ∧
      (u.version.toList ≠ [] ∧ '@' ∉ u.version.toList) ∧
      u.part.toList ≠ [] ∧ ':' ∉ u.part.toList)
    ⟨fun ⟨a, b, c⟩ => ⟨a, b, c⟩, fun ⟨a, b, c⟩ => ⟨a, b, c⟩⟩

theorem toList_text (u : UnitName) : u.text.toList =
    (u.template.toList ++ '@' :: u.version.toList) ++ ':' :: u.part.toList := by
  simp [text]

/-- The written form is cut where it was put together. -/
theorem Legible.parse?_text (h : u.Legible) : parse? u.text = some u := by
  have hpart : Text.splitLast? ':' u.text.toList =
      some (u.template.toList ++ '@' :: u.version.toList, u.part.toList) := by
    rw [toList_text]
    exact Text.splitLast?_append _ h.part.2
  have hversion : Text.splitLast? '@' (u.template.toList ++ '@' :: u.version.toList) =
      some (u.template.toList, u.version.toList) := Text.splitLast?_append _ h.version.2
  simp [parse?, hpart, hversion, h.template, h.version.1, h.part.1]

/-- What is cut at the last colon and at the last `@` before it is put together again. -/
theorem text_of_parse? (h : parse? s = some u) : u.text = s ∧ u.Legible := by
  obtain ⟨⟨identity, part⟩, hidentity, hrest⟩ := Option.bind_eq_some_iff.1 h
  obtain ⟨⟨template, version⟩, hpieces, hname⟩ := Option.bind_eq_some_iff.1 hrest
  obtain ⟨hs, hcolon⟩ := Text.splitLast?_eq_some hidentity
  obtain ⟨hidentity, hat⟩ := Text.splitLast?_eq_some hpieces
  dsimp only at hname
  split at hname
  · cases hname
  · rename_i hne
    obtain rfl := Option.some.inj hname
    simp only [Bool.or_eq_true, List.isEmpty_iff, not_or] at hne
    obtain ⟨⟨htemplate, hversion⟩, hpart⟩ := hne
    refine ⟨String.toList_injective ?_, ?_, ?_, ?_⟩
    · rw [toList_text, hs, hidentity]
      simp
    · simpa using htemplate
    · simpa using ⟨hversion, hat⟩
    · simpa using ⟨hpart, hcolon⟩

theorem parse?_eq_some_iff : parse? s = some u ↔ u.text = s ∧ u.Legible :=
  ⟨text_of_parse?, fun ⟨htext, hu⟩ => htext ▸ hu.parse?_text⟩

/-- **The names of units are read and written inversely**: a text that is read as a name is its
written form, a name is read back from its written form if and only if it is legible, and names that
are read from texts differ in their written forms. -/
theorem parse?_inverse :
    (∀ s u, parse? s = some u → u.text = s) ∧
    (∀ u, parse? u.text = some u ↔ u.Legible) ∧
    ∀ s t u v, parse? s = some u → parse? t = some v → u.text = v.text → u = v := by
  refine ⟨fun s u h => (text_of_parse? h).1, fun u => ?_, fun s t u v hu hv htext => ?_⟩
  · rw [parse?_eq_some_iff]
    exact and_iff_right rfl
  · have hu' := (text_of_parse? hu).2.parse?_text
    have hv' := (text_of_parse? hv).2.parse?_text
    rw [htext, hv'] at hu'
    exact (Option.some.inj hu').symm

/-- A template with an `@` and a version with a colon are read back, a part with a colon is not. -/
theorem parse?_inverse_of_scope :
    parse? "@scope/react@1:0:part" = some ⟨"@scope/react", "1:0", "part"⟩ ∧
      parse? (text ⟨"@scope/react", "1:0", "part"⟩) = some ⟨"@scope/react", "1:0", "part"⟩ ∧
      parse? (text ⟨"react", "1", "0:part"⟩) ≠ some ⟨"react", "1", "0:part"⟩ := by
  obtain ⟨htext, hiff, -⟩ := parse?_inverse
  have hread : parse? "@scope/react@1:0:part" = some ⟨"@scope/react", "1:0", "part"⟩ := by decide
  refine ⟨hread, ?_, ?_⟩
  · rw [htext _ _ hread]
    exact hread
  · rw [Ne, hiff]
    decide

end Scaffold.UnitName
