import Scaffold.Proofs.Json.Equality
import Scaffold.Proofs.Json.Read
import Scaffold.Proofs.Options

/-!
# Layers of options

Layers of overrides that are laid over the default options one after the other come to what is read
from the default members with all of the layers on top (`ofMembers_of_foldlM`). A name has the value
that the last layer with the name gives it (`get?_stacked`), and names that are not those of options
do not matter (`ofMembers_stacked_known`).
-/

namespace Scaffold

namespace Json.Members

variable {name : String} {ms : Members}

theorem get?_insert (a : Members) (key : String) (value : Value) :
    (a.insert key value).get? name = if name = key then some value else a.get? name := by
  split
  · rename_i hkey
    rw [hkey, get?_insert_self]
  · rename_i hkey
    exact get?_insert_of_ne a value hkey

/-- A name has the value that the inserted members give it, or else the one that it had. -/
theorem get?_insertAll (a ms : Members) (name : String) :
    (a.insertAll ms).get? name = ((ofPairs ms).get? name).or (a.get? name) := by
  induction ms generalizing a with
  | nil => rfl
  | cons m ms ih =>
    obtain ⟨key, value⟩ := m
    show ((a.insert key value).insertAll ms).get? name =
      ((insertAll (insert key value []) ms).get? name).or (a.get? name)
    rw [ih, ih, Option.or_assoc, get?_insert, get?_insert]
    split <;> rfl

theorem get?_ofPairs_cons (key : String) (value : Value) (ms : Members) :
    (ofPairs ((key, value) :: ms)).get? name =
      ((ofPairs ms).get? name).or (if name = key then some value else none) := by
  show (insertAll (insert key value []) ms).get? name = _
  rw [get?_insertAll, get?_insert]
  rfl

/-- Members that repeat no name are found as they are. -/
theorem get?_ofPairs (h : ms.names.Nodup) (name : String) :
    (ofPairs ms).get? name = ms.get? name := by
  induction ms with
  | nil => rfl
  | cons m ms ih =>
    obtain ⟨key, value⟩ := m
    obtain ⟨hkey, hms⟩ := List.nodup_cons.1 h
    rw [get?_ofPairs_cons, ih hms, get?]
    by_cases hname : name = key
    · have hnone : Members.get? key ms = none :=
        Option.not_isSome_iff_eq_none.1 fun hsome => hkey (get?_isSome.1 hsome)
      rw [hname, hnone, if_pos rfl]
      rfl
    · rw [if_neg hname, if_neg (Ne.symm hname), Option.or_none]

theorem nodup_insertAll {a : Members} (h : a.names.Nodup) (ms : Members) :
    (a.insertAll ms).names.Nodup := by
  induction ms generalizing a with
  | nil => exact h
  | cons m ms ih => exact ih (nodup_insert h)

/-- Members of other names do not matter for the value of a name. -/
theorem get?_ofPairs_filter {known : String → Bool} (h : known name = true) (ms : Members) :
    (ofPairs (ms.filter fun m => known m.1)).get? name = (ofPairs ms).get? name := by
  induction ms with
  | nil => rfl
  | cons m ms ih =>
    obtain ⟨key, value⟩ := m
    rw [get?_ofPairs_cons, List.filter_cons]
    split
    · rw [get?_ofPairs_cons, ih]
    · rename_i hkey
      have hne : name ≠ key := by
        rintro rfl
        exact hkey h
      rw [if_neg hne, Option.or_none, ih]

end Json.Members

namespace Options

open Json (Members)

variable {a : Members} {o o' : Options} {layers : List Members} {name : String}

/-- The default members with layers on top, one after the other. -/
def stacked (layers : List Members) : Members := layers.foldl Members.insertAll default.toMembers

theorem stacked_append (layers more : List Members) :
    stacked (layers ++ more) = more.foldl Members.insertAll (stacked layers) :=
  List.foldl_append ..

theorem ofMembers_stacked_nil : ofMembers (stacked []) = .ok default := by rfl

/-- **Layers laid over options one by one** come to what is read from the members below them with all
of the layers on top. -/
theorem ofMembers_of_foldlM (h : ofMembers a = .ok o)
    (hlayers : layers.foldlM Options.layer o = .ok o') :
    ofMembers (layers.foldl Members.insertAll a) = .ok o' := by
  induction layers generalizing a o with
  | nil =>
    obtain rfl := Except.ok.inj hlayers
    exact h
  | cons ms layers ih =>
    rw [List.foldlM_cons] at hlayers
    obtain ⟨o₁, hlayer, hrest⟩ := Outcome.bind_eq_ok.1 hlayers
    rw [layer_eq_ofMembers h] at hlayer
    exact ih hlayer hrest

theorem get?_foldl_insertAll (a : Members) (layers : List Members) (name : String) :
    (layers.foldl Members.insertAll a).get? name =
      (layers.reverse.findSome? fun ms => (Members.ofPairs ms).get? name).or (a.get? name) := by
  induction layers generalizing a with
  | nil => rfl
  | cons ms layers ih =>
    rw [List.foldl_cons, ih, Members.get?_insertAll, List.reverse_cons, List.findSome?_append,
      Option.or_assoc, List.findSome?_singleton]

/-- **The last layer with a name decides its value**, and where there is none the default does. -/
theorem get?_stacked (layers : List Members) (name : String) : (stacked layers).get? name =
    (layers.reverse.findSome? fun ms => (Members.ofPairs ms).get? name).or
      (default.toMembers.get? name) :=
  get?_foldl_insertAll default.toMembers layers name

/-- The members of a layer that are options. -/
def known (ms : Members) : Members := ms.filter fun m => names.contains m.1

/-- **Names that are not those of options do not matter.** -/
theorem ofMembers_stacked_known (layers : List Members) :
    ofMembers (stacked (layers.map known)) = ofMembers (stacked layers) := by
  refine ofMembers_congr fun name hname => ?_
  have hknown : ∀ ms, (Members.ofPairs (known ms)).get? name = (Members.ofPairs ms).get? name :=
    fun ms => Members.get?_ofPairs_filter (List.contains_iff_mem.2 hname) ms
  rw [get?_stacked, get?_stacked, ← List.map_reverse, List.findSome?_map]
  simp only [Function.comp_def, hknown]

end Options

end Scaffold
