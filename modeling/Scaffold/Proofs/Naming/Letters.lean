import Mathlib.Data.List.Forall2
import Scaffold.Proofs.FileTree.Goal
import Scaffold.Proofs.Naming

/-!
# What a convention keeps of a name

The words of a name are its letters and digits, cut into pieces (`flatten_words`), and joining them
changes only their case and puts marks between them. So an ASCII name keeps its letters and digits
in every convention (`letters_applyTo`), a file keeps what stands from its first point on as well
(`fromPoint_applyToFile`), and a path has as many components as before (`rename_keeps_letters`).
-/

namespace Scaffold

namespace Text

variable {c : Char} {s t : List Char}

/-! ### Letters up to case -/

/-- A text of ASCII characters. -/
def IsAscii (s : List Char) : Prop := ∀ c ∈ s, c.toNat < 128

instance (s : List Char) : Decidable (IsAscii s) :=
  decidable_of_iff (s.all fun c => c.toNat < 128) (by simp [IsAscii])

/-- The letters and digits of a text in their order, in lowercase. -/
def letters (s : List Char) : List Char := (s.filter isAlphanumeric).map Char.toLower

theorem letters_append (s t : List Char) : letters (s ++ t) = letters s ++ letters t := by
  simp [letters]

theorem letters_cons (c : Char) (s : List Char) : letters (c :: s) = letters [c] ++ letters s :=
  letters_append [c] s

theorem letters_mark (h : isAlphanumeric c = false) : letters [c] = [] := by simp [letters, h]

theorem letters_toLower (h : c.toNat < 128) : letters [c.toLower] = letters [c] :=
  of_ascii (P := fun c => letters [c.toLower] = letters [c]) (by decide) h

theorem letters_toUpper (h : c.toNat < 128) : letters [c.toUpper] = letters [c] :=
  of_ascii (P := fun c => letters [c.toUpper] = letters [c]) (by decide) h

theorem letters_map_toLower (h : IsAscii s) : letters (s.map Char.toLower) = letters s := by
  induction s with
  | nil => rfl
  | cons c s ih =>
    obtain ⟨hc, hs⟩ := List.forall_mem_cons.1 h
    rw [List.map_cons, letters_cons, letters_toLower hc, ih hs, ← letters_cons]

/-! ### Case maps -/

theorem lowerFrom_eq_map (before : List Char) (h : IsAscii s) :
    lowerFrom before s = s.map Char.toLower := by
  induction s generalizing before with
  | nil => rfl
  | cons c s ih =>
    obtain ⟨hc, hs⟩ := List.forall_mem_cons.1 h
    have hsigma : c ≠ 'Σ' := by
      rintro rfl
      exact absurd hc (by decide)
    rw [lowerFrom, ih _ hs]
    simp [hsigma, lowerChar, hc]

theorem letters_lower (h : IsAscii s) : letters (lower s) = letters s := by
  rw [lower, lowerFrom_eq_map [] h, letters_map_toLower h]

theorem letters_capitalize (h : IsAscii s) : letters (capitalize s) = letters s := by
  cases s with
  | nil => rfl
  | cons c s =>
    obtain ⟨hc, hs⟩ := List.forall_mem_cons.1 h
    have hrest : s.flatMap lowerChar = s.map Char.toLower := by
      rw [List.map_eq_flatMap]
      exact List.flatMap_congr fun d hd => if_pos (hs d hd)
    rw [capitalize, upperChar, if_pos hc, hrest, letters_append, letters_toUpper hc,
      letters_map_toLower hs, ← letters_cons]

end Text

namespace Convention

open Text (IsAscii letters)

variable {s : List Char} {ws : List (List Char)} {n : String}

/-! ### Words -/

/-- The words are the letters and digits of the name. -/
theorem flatten_wordsFrom (word s : List Char) :
    (wordsFrom word s).flatten = word.reverse ++ s.filter Text.isAlphanumeric := by
  induction s generalizing word with
  | nil => cases word <;> simp [wordsFrom]
  | cons c s ih =>
    rw [wordsFrom.eq_def]
    dsimp only
    cases hc : Text.isAlphanumeric c with
    | false => cases word <;> simp [hc, ih]
    | true =>
      cases word with
      | nil => simp [hc, ih]
      | cons before more =>
        dsimp only
        split
        · contradiction
        · split <;> simp [hc, ih]

theorem flatten_words (s : List Char) : (words s).flatten = s.filter Text.isAlphanumeric :=
  flatten_wordsFrom [] s

theorem isAscii_of_mem_words (h : IsAscii s) : ∀ w ∈ words s, IsAscii w := by
  intro w hw c hc
  have hmem : c ∈ (words s).flatten := List.mem_flatten.2 ⟨w, hw, hc⟩
  rw [flatten_words] at hmem
  exact h c (List.mem_of_mem_filter hmem)

theorem letters_flatten_words (s : List Char) : letters (words s).flatten = letters s := by
  rw [flatten_words, letters, letters, List.filter_filter]
  simp

theorem letters_joinLower {mark : Char} (hmark : Text.isAlphanumeric mark = false)
    (h : ∀ w ∈ ws, IsAscii w) : letters (joinLower mark ws) = letters ws.flatten := by
  induction ws with
  | nil => rfl
  | cons w ws ih =>
    obtain ⟨hw, hws⟩ := List.forall_mem_cons.1 h
    cases ws with
    | nil => simpa [joinLower, List.intercalate] using Text.letters_lower hw
    | cons v ws =>
      rw [joinLower_cons_cons, List.flatten_cons, Text.letters_append, Text.letters_append,
        Text.letters_lower hw, Text.letters_cons, Text.letters_mark hmark, ih hws, List.nil_append]

theorem letters_flatMap_capitalize (h : ∀ w ∈ ws, IsAscii w) :
    letters (ws.flatMap Text.capitalize) = letters ws.flatten := by
  induction ws with
  | nil => rfl
  | cons w ws ih =>
    obtain ⟨hw, hws⟩ := List.forall_mem_cons.1 h
    rw [List.flatMap_cons, List.flatten_cons, Text.letters_append, Text.letters_append,
      Text.letters_capitalize hw, ih hws]

/-- Joining words changes their case, and puts marks between them. -/
theorem letters_join (c : Convention) (h : ∀ w ∈ ws, IsAscii w) :
    letters (c.join ws) = letters ws.flatten := by
  cases c with
  | none => rfl
  | kebab => exact letters_joinLower (by decide) h
  | snake => exact letters_joinLower (by decide) h
  | pascal => exact letters_flatMap_capitalize h
  | camel =>
    cases ws with
    | nil => rfl
    | cons w ws =>
      obtain ⟨hw, hws⟩ := List.forall_mem_cons.1 h
      rw [join, List.flatten_cons, Text.letters_append, Text.letters_append, Text.letters_lower hw,
        letters_flatMap_capitalize hws]

theorem letters_applyTo (c : Convention) (h : IsAscii s) : letters (c.applyTo s) = letters s := by
  rw [applyTo]
  split
  · rfl
  · dsimp only
    split
    · rfl
    · rw [letters_join c (isAscii_of_mem_words h), letters_flatten_words]

theorem letters_apply (c : Convention) (h : IsAscii n.toList) :
    letters (c.apply n).toList = letters n.toList := by
  rw [apply, String.toList_ofList, letters_applyTo c h]

/-! ### Files -/

/-- What stands from the first point on. -/
def fromPoint (name : String) : List Char := name.toList.dropWhile (· ≠ '.')

theorem letters_applyToFile (c : Convention) (h : IsAscii n.toList) :
    letters (c.applyToFile n).toList = letters n.toList := by
  rw [applyToFile]
  split
  · exact letters_apply c h
  · rfl
  · rename_i stem rest _ hsplit
    obtain ⟨hn, -⟩ := Text.splitFirst?_eq_some hsplit
    rw [hn] at h ⊢
    rw [String.toList_ofList, Text.letters_append, Text.letters_append,
      letters_applyTo c (List.forall_mem_append.1 h).1]

theorem point_not_mem_applyTo (c : Convention) (h : '.' ∉ s) : '.' ∉ c.applyTo s := by
  rcases c.applyTo_cases s with hsame | hword
  · rwa [hsame]
  · exact fun hmem => (hword.2 '.' hmem).1 rfl

theorem dropWhile_point (h : '.' ∉ s) (rest : List Char) :
    (s ++ '.' :: rest).dropWhile (· ≠ '.') = '.' :: rest := by
  rw [List.dropWhile_append_of_pos fun d hd => by simpa using ne_of_mem_of_not_mem hd h]
  simp

theorem dropWhile_of_no_point (h : '.' ∉ s) : s.dropWhile (· ≠ '.') = [] :=
  List.dropWhile_eq_nil_iff.2 fun d hd => by simpa using ne_of_mem_of_not_mem hd h

/-- A file keeps its extensions. -/
theorem fromPoint_applyToFile (c : Convention) (n : String) :
    fromPoint (c.applyToFile n) = fromPoint n := by
  rw [applyToFile]
  split
  · rename_i hsplit
    have hpoint := Text.splitFirst?_eq_none.1 hsplit
    rw [fromPoint, fromPoint, apply, String.toList_ofList, dropWhile_of_no_point hpoint,
      dropWhile_of_no_point (point_not_mem_applyTo c hpoint)]
  · rfl
  · rename_i stem rest _ hsplit
    obtain ⟨hn, hstem⟩ := Text.splitFirst?_eq_some hsplit
    rw [fromPoint, fromPoint, hn, String.toList_ofList, dropWhile_point hstem,
      dropWhile_point (point_not_mem_applyTo c hstem)]

/-! ### Paths -/

/-- Of the components of a path the last one is a file, and the others are folders. -/
theorem renameComponents_concat (folder file : Convention) (ns : List String) (n : String) :
    renameComponents folder file ((ns ++ [n]).map .normal) =
      (ns.map folder.apply ++ [file.applyToFile n]).map .normal := by
  induction ns with
  | nil => rfl
  | cons m ns ih =>
    cases ns with
    | nil => rfl
    | cons m' ns => exact congrArg (Component.normal (folder.apply m) :: ·) ih

end Convention

namespace Path

open Text (IsAscii letters)

variable {ns : List String} {n : String}

theorem components_rename_concat (folder file : Convention) {p : Path}
    (hp : p.components = (ns ++ [n]).map .normal) :
    (p.rename folder file).components =
      (ns.map folder.apply ++ [file.applyToFile n]).map .normal := by
  have hname : ∀ m ∈ ns ++ [n], IsName m := fun m hm =>
    isName_of_mem_components (hp ▸ List.mem_map_of_mem hm)
  obtain ⟨hns, hn⟩ := List.forall_mem_append.1 hname
  have hrenamed : ∀ m ∈ ns.map folder.apply ++ [file.applyToFile n], IsName m := by
    refine List.forall_mem_append.2 ⟨List.forall_mem_map.2 fun m hm => ?_, ?_⟩
    · exact folder.isName_apply (hns m hm)
    · exact List.forall_mem_singleton.2 (file.isName_applyToFile (hn n (List.mem_singleton_self n)))
  rw [rename, hp, Convention.renameComponents_concat]
  exact (components_ofComponents .none hrenamed).1

/-- **Conventions change only the case of names and what stands between their words.** A path of
ASCII names becomes a path of names, one for each, which have the letters and digits that the names
had, up to case, and the last of them is the same from its first point on. -/
theorem rename_keeps_letters (folder file : Convention) {p : Path} {ns : List String}
    (hp : p.components = ns.map .normal) (hascii : ∀ n ∈ ns, IsAscii n.toList) :
    ∃ ms : List String, (p.rename folder file).components = ms.map .normal ∧
      (∀ m ∈ ms, IsName m) ∧
      List.Forall₂ (fun n m => letters m.toList = letters n.toList) ns ms ∧
      ms.getLast?.map Convention.fromPoint = ns.getLast?.map Convention.fromPoint := by
  rcases List.eq_nil_or_concat ns with rfl | ⟨folders, n, rfl⟩
  · refine ⟨[], ?_, by simp, .nil, rfl⟩
    rw [rename, hp]
    rfl
  · rw [List.concat_eq_append] at hp hascii ⊢
    obtain ⟨hfolders, hn⟩ := List.forall_mem_append.1 hascii
    have hcomponents := components_rename_concat folder file hp
    refine ⟨_, hcomponents, fun m hm => ?_, ?_, ?_⟩
    · exact isName_of_mem_components (hcomponents ▸ List.mem_map_of_mem hm)
    · refine List.rel_append (List.forall₂_map_right_iff.2 ?_) (.cons ?_ .nil)
      · exact List.forall₂_same.2 fun m hm => folder.letters_apply (hfolders m hm)
      · exact file.letters_applyToFile (hn n (List.mem_singleton_self n))
    · simp [Convention.fromPoint_applyToFile]

/-- A folder loses its points, and a file keeps them with what follows. -/
theorem rename_keeps_letters_of_points :
    rename .snake .kebab ⟨"my-Lib/..config/XMLHttp2Request.d.TS"⟩ =
        ⟨"my_lib/config/xmlhttp2-request.d.TS"⟩ ∧
      ∃ ms : List String,
        (rename .snake .kebab ⟨"my-Lib/..config/XMLHttp2Request.d.TS"⟩).components =
          ms.map .normal ∧
        (∀ m ∈ ms, IsName m) ∧
        List.Forall₂ (fun n m => letters m.toList = letters n.toList)
          ["my-Lib", "..config", "XMLHttp2Request.d.TS"] ms ∧
        ms.getLast?.map Convention.fromPoint = some ".d.TS".toList := by
  have hp : (⟨"my-Lib/..config/XMLHttp2Request.d.TS"⟩ : Path).components =
      ["my-Lib", "..config", "XMLHttp2Request.d.TS"].map .normal := by decide +kernel
  have hascii : ∀ n ∈ ["my-Lib", "..config", "XMLHttp2Request.d.TS"], IsAscii n.toList := by
    decide +kernel
  exact ⟨by decide +kernel, rename_keeps_letters .snake .kebab hp hascii⟩

end Path

end Scaffold
