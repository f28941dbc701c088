import Mathlib.Data.List.DropRight
import Scaffold.Text.Blank
import Scaffold.Text.Bytes
import Scaffold.Text.Lines
import Scaffold.Text.Split

/-!
# Trimming, cutting and lines

What the operations on texts do when they are composed: blanks around a text do not change
what is left after trimming, a mark that was put into a text is found again, and the lines of
two texts are the lines of the one behind the other, as long as the first one ends its last
line (`lines_append`).
-/

namespace Scaffold.Text

/-! ### Blanks -/

/-- A text without blanks in it. -/
def Unbroken (s : List Char) : Prop := ∀ c ∈ s, isBlank c = false

instance (s : List Char) : Decidable (Unbroken s) :=
  decidable_of_iff (s.all fun c => !isBlank c) (by simp [Unbroken])

theorem unbroken_append {s t : List Char} : Unbroken (s ++ t) ↔ Unbroken s ∧ Unbroken t :=
  List.forall_mem_append

theorem blank_space : ∀ c ∈ [' '], isBlank c := List.forall_mem_singleton.2 rfl

theorem blank_lineFeed : ∀ c ∈ ['\n'], isBlank c := List.forall_mem_singleton.2 rfl

theorem lineEnd_lineFeed : ∀ c ∈ ['\n'], isLineEnd c := List.forall_mem_singleton.2 rfl

/-! ### Trimming -/

theorem dropEndWhile_append_of_all (p : Char → Bool) (s : List Char) {t : List Char}
    (h : ∀ c ∈ t, p c) : dropEndWhile p (s ++ t) = dropEndWhile p s := by
  have hr : t.reverse.dropWhile p = [] := by simpa [List.dropWhile_eq_nil_iff] using h
  rw [dropEndWhile, List.reverse_append, List.dropWhile_append, hr]
  rfl

/-- The text is what `dropEndWhile` leaves, followed by characters that it drops. -/
theorem exists_dropEndWhile_append (p : Char → Bool) (s : List Char) :
    ∃ t, (∀ c ∈ t, p c) ∧ s = dropEndWhile p s ++ t := by
  refine ⟨(s.reverse.takeWhile p).reverse, fun c hc => ?_, ?_⟩
  · exact List.mem_takeWhile_imp (List.mem_reverse.1 hc)
  · rw [dropEndWhile, ← List.reverse_append, List.takeWhile_append_dropWhile, List.reverse_reverse]

theorem dropEndWhile_eq_self {p : Char → Bool} {s : List Char} (h : ∀ c ∈ s.getLast?, p c = false) :
    dropEndWhile p s = s := by
  refine List.rdropWhile_eq_self_iff.2 fun hs => ?_
  simpa using h _ (List.getLast?_eq_some_getLast hs)

theorem getLast?_dropEndWhile (p : Char → Bool) (s : List Char) :
    ∀ c ∈ (dropEndWhile p s).getLast?, p c = false := by
  intro c hc
  have hne : dropEndWhile p s ≠ [] := by rintro h; simp [h] at hc
  rw [List.getLast?_eq_some_getLast hne, Option.mem_some_iff] at hc
  rw [← hc]
  exact Bool.eq_false_iff.2 (List.rdropWhile_last_not p s hne)

theorem trimStart_append_of_blank {s : List Char} (h : ∀ c ∈ s, isBlank c) (t : List Char) :
    trimStart (s ++ t) = trimStart t := by
  have hs : s.dropWhile isBlank = [] := by simpa [List.dropWhile_eq_nil_iff] using h
  rw [trimStart, List.dropWhile_append, hs]
  rfl

theorem trimStart_eq_self {s : List Char} (h : ∀ c ∈ s.head?, isBlank c = false) :
    trimStart s = s := by
  cases s with
  | nil => rfl
  | cons c s => simp [trimStart, h c rfl]

/-- Blanks around a text do not change what trimming leaves of it. -/
theorem trim_pad {s t : List Char} (hs : ∀ c ∈ s, isBlank c) (ht : ∀ c ∈ t, isBlank c)
    (text : List Char) : trim (s ++ text ++ t) = trim text := by
  rw [trim, List.append_assoc, trimStart_append_of_blank hs]
  by_cases hb : ∀ c ∈ text, isBlank c
  · rw [trimStart_append_of_blank hb]
    have hn : ∀ u : List Char, (∀ c ∈ u, isBlank c) → trimStart u = [] := fun u hu => by
      simpa [trimStart, List.dropWhile_eq_nil_iff] using hu
    rw [hn t ht, trim, hn text hb]
  · have hne : ¬ (text.dropWhile isBlank).isEmpty := by
      rwa [List.isEmpty_iff, List.dropWhile_eq_nil_iff]
    rw [trimStart, List.dropWhile_append, if_neg hne]
    exact dropEndWhile_append_of_all _ _ ht

theorem trim_append_left {s : List Char} (hs : ∀ c ∈ s, isBlank c) (text : List Char) :
    trim (s ++ text) = trim text := by
  rw [trim, trim, trimStart_append_of_blank hs]

theorem trim_append_right {t : List Char} (ht : ∀ c ∈ t, isBlank c) (text : List Char) :
    trim (text ++ t) = trim text :=
  trim_pad (by simp : ∀ c ∈ [], isBlank c) ht text

theorem trim_trimEnd (s : List Char) : trim (trimEnd s) = trim s := by
  obtain ⟨t, ht, hs⟩ := exists_dropEndWhile_append isBlank s
  conv_rhs => rw [hs]
  exact (trim_append_right ht _).symm

/-- A text without blanks at its ends is what trimming leaves of it. -/
theorem trim_eq_self {s : List Char} (hh : ∀ c ∈ s.head?, isBlank c = false)
    (hl : ∀ c ∈ s.getLast?, isBlank c = false) : trim s = s := by
  rw [trim, trimStart_eq_self hh]
  exact dropEndWhile_eq_self hl

theorem trimEnd_append {s : List Char} (h : ∀ c ∈ s.getLast?, isBlank c = false) (t : List Char) :
    trimEnd (s ++ t) = s ++ trimEnd t := by
  by_cases ht : ∀ c ∈ t, isBlank c
  · have hn : trimEnd t = [] := by
      have := dropEndWhile_append_of_all isBlank [] ht
      rwa [List.nil_append] at this
    rw [hn, List.append_nil, trimEnd, dropEndWhile_append_of_all _ _ ht]
    exact dropEndWhile_eq_self h
  · have hne : ¬ (t.reverse.dropWhile isBlank).isEmpty := by
      rw [List.isEmpty_iff, List.dropWhile_eq_nil_iff]
      simpa using ht
    rw [trimEnd, dropEndWhile, List.reverse_append, List.dropWhile_append, if_neg hne]
    simp [trimEnd, dropEndWhile]

theorem mem_of_mem_trim {s : List Char} {c : Char} (h : c ∈ trim s) : c ∈ s := by
  have h := (List.dropWhile_sublist _).subset (List.mem_reverse.1 h)
  exact (List.dropWhile_sublist _).subset (List.mem_reverse.1 h)

theorem head?_trimStart (s : List Char) : ∀ c ∈ (trimStart s).head?, isBlank c = false := by
  intro c hc
  have := List.head?_dropWhile_not isBlank s
  rw [trimStart] at hc
  rw [Option.mem_def.1 hc] at this
  simpa using this

theorem head?_trim (s : List Char) : ∀ c ∈ (trim s).head?, isBlank c = false := by
  intro c hc
  obtain ⟨t, -, ht⟩ := exists_dropEndWhile_append isBlank (trimStart s)
  refine head?_trimStart s c ?_
  rw [ht]
  have hc' : (dropEndWhile isBlank (trimStart s)).head? = some c := hc
  simp [List.head?_append, hc']

theorem getLast?_trim (s : List Char) : ∀ c ∈ (trim s).getLast?, isBlank c = false :=
  getLast?_dropEndWhile _ _

theorem trim_trim (s : List Char) : trim (trim s) = trim s :=
  trim_eq_self (head?_trim s) (getLast?_trim s)

/-! ### Cuts at a mark -/

@[simp] theorem stripStart?_append (opener s : List Char) :
    stripStart? opener (opener ++ s) = some s := by
  induction opener with
  | nil => rfl
  | cons c opener ih => simp [stripStart?, ih]

theorem stripStart?_eq_some {opener s rest : List Char} :
    stripStart? opener s = some rest ↔ s = opener ++ rest := by
  constructor
  · intro h
    induction opener generalizing s with
    | nil => simpa [stripStart?] using h
    | cons c opener ih =>
      cases s with
      | nil => simp [stripStart?] at h
      | cons d s =>
        by_cases hc : c = d
        · rw [stripStart?, if_pos hc] at h
          rw [hc, ih h, List.cons_append]
        · simp [stripStart?, hc] at h
  · rintro rfl
    exact stripStart?_append opener rest

theorem stripEnd?_append (s closer : List Char) : stripEnd? closer (s ++ closer) = some s := by
  simp [stripEnd?]

theorem stripEnd?_eq_some {closer s rest : List Char} (h : stripEnd? closer s = some rest) :
    s = rest ++ closer := by
  obtain ⟨t, ht, rfl⟩ := Option.map_eq_some_iff.1 h
  rw [← List.reverse_reverse s, stripStart?_eq_some.1 ht]
  simp

theorem splitFirst?_append {mark : Char} {s : List Char} (h : mark ∉ s) (t : List Char) :
    splitFirst? mark (s ++ mark :: t) = some (s, t) := by
  induction s with
  | nil => simp [splitFirst?]
  | cons c s ih =>
    obtain ⟨hc, hs⟩ := not_or.1 (fun hm => h (List.mem_cons.2 hm))
    simp [splitFirst?, Ne.symm hc, ih hs]

theorem splitFirst?_eq_some {mark : Char} {s before after : List Char}
    (h : splitFirst? mark s = some (before, after)) :
    s = before ++ mark :: after ∧ mark ∉ before := by
  induction s generalizing before with
  | nil => simp [splitFirst?] at h
  | cons c s ih =>
    by_cases hc : c = mark
    · rw [splitFirst?, if_pos hc] at h
      obtain ⟨rfl, rfl⟩ := Prod.mk.inj (Option.some.inj h)
      simp [hc]
    · rw [splitFirst?, if_neg hc] at h
      obtain ⟨⟨b, a⟩, hs, he⟩ := Option.map_eq_some_iff.1 h
      obtain ⟨rfl, rfl⟩ := Prod.mk.inj he
      obtain ⟨rfl, hb⟩ := ih hs
      simp [hb, Ne.symm hc]

theorem splitFirst?_eq_none {mark : Char} {s : List Char} :
    splitFirst? mark s = none ↔ mark ∉ s := by
  induction s with
  | nil => simp [splitFirst?]
  | cons c s ih =>
    by_cases hc : c = mark
    · simp [splitFirst?, hc]
    · simp [splitFirst?, hc, ih, Ne.symm hc]

theorem splitLast?_eq_none {mark : Char} {s : List Char} :
    splitLast? mark s = none ↔ mark ∉ s := by
  induction s with
  | nil => simp [splitLast?]
  | cons c s ih =>
    cases hs : splitLast? mark s with
    | some cut => simp [splitLast?, hs, ← ih]
    | none =>
      have hm : mark ∉ s := ih.1 hs
      by_cases hc : c = mark
      · simp [splitLast?, hs, hc]
      · simp [splitLast?, hs, hc, hm, Ne.symm hc]

theorem splitLast?_append {mark : Char} (s : List Char) {t : List Char} (h : mark ∉ t) :
    splitLast? mark (s ++ mark :: t) = some (s, t) := by
  induction s with
  | nil => simp [splitLast?, splitLast?_eq_none.2 h]
  | cons c s ih => simp [splitLast?, ih]

theorem splitLast?_eq_some {mark : Char} {s before after : List Char}
    (h : splitLast? mark s = some (before, after)) :
    s = before ++ mark :: after ∧ mark ∉ after := by
  induction s generalizing before after with
  | nil => simp [splitLast?] at h
  | cons c s ih =>
    rw [splitLast?] at h
    split at h
    · rename_i b a hs
      obtain ⟨rfl, rfl⟩ := Prod.mk.inj (Option.some.inj h)
      obtain ⟨rfl, ha⟩ := ih hs
      exact ⟨rfl, ha⟩
    · rename_i hs
      split at h
      · rename_i hc
        obtain ⟨rfl, rfl⟩ := Prod.mk.inj (Option.some.inj h)
        exact ⟨by simp [hc], splitLast?_eq_none.1 hs⟩
      · simp at h

/-! ### Lines -/

/-- A line that has its line feed. -/
def IsFullLine (line : List Char) : Prop := ∃ text, '\n' ∉ text ∧ line = text ++ ['\n']

/-- A line, which may lack its line feed. -/
def IsLine (line : List Char) : Prop := IsFullLine line ∨ '\n' ∉ line

/-- A text that ends with a line feed, or is empty: what follows it begins a line. -/
def Closed (s : List Char) : Prop := ∀ c ∈ s.getLast?, c = '\n'

theorem closed_append_lineFeed (s : List Char) : Closed (s ++ ['\n']) := fun c hc => by
  rw [List.getLast?_concat] at hc
  exact (Option.some.inj hc).symm

theorem closed_iff {s : List Char} : Closed s ↔ s = [] ∨ s.getLast? = some '\n' := by
  rcases List.eq_nil_or_concat s with rfl | ⟨s, c, rfl⟩
  · simp [Closed]
  · simp [Closed]

theorem getLast?_closeLine (s : String) : (closeLine s).toList.getLast? = some '\n' := by
  rw [closeLine]
  split
  · rename_i hend
    simpa [endsLine] using hend
  · rw [String.toList_append]
    exact List.getLast?_concat

theorem Closed.append_right {s t : List Char} (h : Closed (s ++ t)) : Closed t := by
  intro c hc
  refine h c ?_
  rw [List.getLast?_append_of_ne_nil _ (by rintro rfl; cases hc)]
  exact hc

theorem Closed.tail {c : Char} {s : List Char} (h : Closed (c :: s)) : Closed s :=
  append_right (s := [c]) h

theorem lines_append_lineFeed {s : List Char} (h : '\n' ∉ s) (rest : List Char) :
    lines (s ++ '\n' :: rest) = (s ++ ['\n']) :: lines rest := by
  induction s with
  | nil => simp [lines]
  | cons c s ih =>
    obtain ⟨hc, hs⟩ := not_or.1 (fun hm => h (List.mem_cons.2 hm))
    simp [lines, Ne.symm hc, ih hs]

theorem lines_eq_singleton {s : List Char} (h : '\n' ∉ s) (hs : s ≠ []) : lines s = [s] := by
  induction s with
  | nil => exact absurd rfl hs
  | cons c s ih =>
    obtain ⟨hc, hn⟩ := not_or.1 (fun hm => h (List.mem_cons.2 hm))
    rw [lines, if_neg (Ne.symm hc)]
    cases s with
    | nil => rfl
    | cons d s => rw [ih hn (by simp)]

/-- A first line is followed by the text of the other lines, and lacks its line feed only where
nothing follows. -/
theorem lines_eq_cons {s line : List Char} {more : List (List Char)} (h : lines s = line :: more) :
    ∃ rest, s = line ++ rest ∧ lines rest = more ∧
      (IsFullLine line ∨ rest = [] ∧ '\n' ∉ line) := by
  induction s generalizing line more with
  | nil => simp [lines] at h
  | cons c s ih =>
    by_cases hc : c = '\n'
    · rw [lines, if_pos hc] at h
      obtain ⟨rfl, rfl⟩ := List.cons.inj h
      exact ⟨s, rfl, rfl, Or.inl ⟨[], by simp, by simp [hc]⟩⟩
    · rw [lines, if_neg hc] at h
      split at h
      · rename_i hs
        obtain ⟨rfl, rfl⟩ := List.cons.inj h
        have : s = [] := by simpa [hs] using (flatten_lines s).symm
        subst this
        exact ⟨[], rfl, rfl, Or.inr ⟨rfl, by simpa using Ne.symm hc⟩⟩
      · rename_i first others hs
        obtain ⟨rfl, rfl⟩ := List.cons.inj h
        obtain ⟨rest, rfl, hrest, hline⟩ := ih hs
        refine ⟨rest, rfl, hrest, ?_⟩
        rcases hline with ⟨t, ht, rfl⟩ | ⟨rfl, hn⟩
        · exact Or.inl ⟨c :: t, by simp [ht, Ne.symm hc], rfl⟩
        · exact Or.inr ⟨rfl, by simp [hn, Ne.symm hc]⟩

/-- Full lines are the first lines of every text that begins with them. -/
theorem lines_flatten_append {ls : List (List Char)} (h : ∀ l ∈ ls, IsFullLine l)
    (rest : List Char) : lines (ls.flatten ++ rest) = ls ++ lines rest := by
  induction ls with
  | nil => rfl
  | cons l ls ih =>
    obtain ⟨t, ht, rfl⟩ := h l List.mem_cons_self
    have hls := ih fun l hl => h l (List.mem_cons_of_mem _ hl)
    simp only [List.flatten_cons, List.append_assoc, List.cons_append, List.nil_append]
    rw [lines_append_lineFeed ht, hls]

/-- Where the lines of a text are parted, the text is parted between lines. -/
theorem lines_eq_append {s : List Char} {a b : List (List Char)} (h : lines s = a ++ b) :
    lines b.flatten = b ∧ (b ≠ [] → ∀ l ∈ a, IsFullLine l) := by
  induction a generalizing s with
  | nil =>
    rw [List.nil_append] at h
    rw [← h, flatten_lines]
    exact ⟨rfl, fun _ _ hl => absurd hl List.not_mem_nil⟩
  | cons l a ih =>
    obtain ⟨rest, -, hrest, hl⟩ := lines_eq_cons h
    obtain ⟨hb, ha⟩ := ih hrest
    refine ⟨hb, fun hne => List.forall_mem_cons.2 ⟨?_, ha hne⟩⟩
    rcases hl with hl | ⟨rfl, -⟩
    · exact hl
    · have hn : a ++ b = [] := hrest.symm
      exact absurd (List.append_eq_nil_iff.1 hn).2 hne

/-- Lines from the middle of a text are the lines of their own text. -/
theorem lines_flatten_of_lines_eq {s : List Char} {a m b : List (List Char)}
    (h : lines s = a ++ (m ++ b)) : lines m.flatten = m := by
  obtain ⟨hmb, -⟩ := lines_eq_append h
  by_cases hb : b = []
  · simpa [hb] using hmb
  · have := lines_flatten_append ((lines_eq_append hmb).2 hb) []
    simpa [lines] using this

theorem isLine_of_mem_lines {s line : List Char} (h : line ∈ lines s) : IsLine line := by
  obtain ⟨a, b, hab⟩ := List.append_of_mem h
  obtain ⟨hb, -⟩ := lines_eq_append hab
  obtain ⟨-, -, -, hfull | ⟨-, hn⟩⟩ := lines_eq_cons hb
  · exact Or.inl hfull
  · exact Or.inr hn

theorem IsLine.lineFeed_not_mem_trim {line : List Char} (h : IsLine line) : '\n' ∉ trim line := by
  rcases h with ⟨t, ht, rfl⟩ | h
  · rw [trim_append_right blank_lineFeed]
    exact fun hm => ht (mem_of_mem_trim hm)
  · exact fun hm => h (mem_of_mem_trim hm)

/-- The lines of a closed text all have their line feed. -/
theorem isFullLine_of_mem_lines {s : List Char} (h : Closed s) : ∀ l ∈ lines s, IsFullLine l := by
  intro l hl
  obtain ⟨a, b, hab⟩ := List.append_of_mem hl
  obtain ⟨hlb, -⟩ := lines_eq_append hab
  obtain ⟨rest, hs, -, hfull | ⟨rfl, hn⟩⟩ := lines_eq_cons hlb
  · exact hfull
  · have hlast : s.getLast? = l.getLast? := by
      have hne : l ≠ [] := ne_nil_of_mem_lines hl
      rw [← flatten_lines s, hab, List.flatten_append, hs, List.append_nil,
        List.getLast?_append_of_ne_nil _ hne]
    cases hc : l.getLast? with
    | none => exact absurd (List.getLast?_eq_none_iff.1 hc) (ne_nil_of_mem_lines hl)
    | some c =>
      have := h c (hlast.trans hc)
      exact absurd (this ▸ List.mem_of_getLast? hc) hn

theorem lines_append {s : List Char} (h : Closed s) (t : List Char) :
    lines (s ++ t) = lines s ++ lines t := by
  conv_lhs => rw [← flatten_lines s]
  exact lines_flatten_append (isFullLine_of_mem_lines h) t

/-- Full lines are a closed text. -/
theorem closed_flatten {ls : List (List Char)} (h : ∀ l ∈ ls, IsFullLine l) :
    Closed ls.flatten := by
  rcases List.eq_nil_or_concat ls with rfl | ⟨ls, l, rfl⟩
  · simp [Closed]
  · obtain ⟨t, -, rfl⟩ := h l (by simp)
    have := closed_append_lineFeed (ls.flatten ++ t)
    simpa using this

/-- A text is blanks, what trimming leaves of it, and blanks. -/
theorem exists_pad (s : List Char) :
    ∃ before after, (∀ c ∈ before, isBlank c) ∧ (∀ c ∈ after, isBlank c) ∧
      s = before ++ trim s ++ after := by
  obtain ⟨after, hafter, hs⟩ := exists_dropEndWhile_append isBlank (trimStart s)
  refine ⟨s.takeWhile isBlank, after, fun c hc => List.mem_takeWhile_imp hc, hafter, ?_⟩
  conv_lhs => rw [← List.takeWhile_append_dropWhile (p := isBlank) (l := s)]
  rw [List.append_assoc]
  exact congrArg _ hs

/-- A text is a closed text and what stands on its last line without a line feed. -/
theorem exists_closed_append (s : List Char) :
    ∃ t line, s = t ++ line ∧ Closed t ∧ '\n' ∉ line := by
  induction s with
  | nil => exact ⟨[], [], rfl, by simp [Closed], by simp⟩
  | cons c s ih =>
    obtain ⟨t, line, rfl, ht, hn⟩ := ih
    by_cases h : t = [] ∧ c ≠ '\n'
    · obtain ⟨rfl, hc⟩ := h
      exact ⟨[], c :: line, rfl, ht, by simp [hn, Ne.symm hc]⟩
    · refine ⟨c :: t, line, rfl, fun x hx => ?_, hn⟩
      cases t with
      | nil =>
        obtain rfl : c = x := by simpa using hx
        exact not_not.1 fun hc => h ⟨rfl, hc⟩
      | cons d t => exact ht x (by simpa using hx)

/-! ### Line ends behind a text -/

theorem isBlank_of_isLineEnd {c : Char} (h : isLineEnd c) : isBlank c := by
  simp only [isLineEnd, Bool.or_eq_true, beq_iff_eq] at h
  rcases h with rfl | rfl <;> decide

theorem trim_eq_nil_of_blank {s : List Char} (h : ∀ c ∈ s, isBlank c) : trim s = [] := by
  have := trim_append_left h []
  rwa [List.append_nil] at this

/-- Line ends behind a line add blanks to it and blank lines behind it. -/
theorem lines_line_append {line t : List Char} (hn : '\n' ∉ line) (hl : line ≠ [])
    (ht : ∀ c ∈ t, isLineEnd c) :
    ∃ first more, lines (line ++ t) = first :: more ∧ trim first = trim line ∧
      ∀ l ∈ more, trim l = [] := by
  have hblank : ∀ u ⊆ t, ∀ c ∈ u, isBlank c := fun u hu c hc => isBlank_of_isLineEnd (ht c (hu hc))
  by_cases hm : '\n' ∈ t
  · obtain ⟨u, v, rfl, hu⟩ := List.eq_append_cons_of_mem hm
    refine ⟨line ++ u ++ ['\n'], lines v, ?_, ?_, fun l hl => ?_⟩
    · rw [← List.append_assoc, lines_append_lineFeed (by simp [hn, hu])]
    · rw [List.append_assoc]
      exact trim_append_right (hblank _ (by simp)) line
    · refine trim_eq_nil_of_blank (hblank l fun c hc => ?_)
      have : c ∈ v := by
        rw [← flatten_lines v]
        exact List.mem_flatten_of_mem hl hc
      simp [this]
  · refine ⟨line ++ t, [], lines_eq_singleton (by simp [hn, hm]) (by simp [hl]), ?_, by simp⟩
    exact trim_append_right (hblank t fun _ hc => hc) line

/-- Line ends behind a text do not change what its lines say, blank lines aside. -/
theorem forall_lines_append_lineEnds {P : List Char → Prop} (hP : P []) {t : List Char}
    (ht : ∀ c ∈ t, isLineEnd c) (s : List Char) :
    (∀ l ∈ lines (s ++ t), P (trim l)) ↔ ∀ l ∈ lines s, P (trim l) := by
  obtain ⟨u, line, rfl, hu, hn⟩ := exists_closed_append s
  rw [List.append_assoc, lines_append hu, lines_append hu, List.forall_mem_append,
    List.forall_mem_append]
  refine and_congr_right fun _ => ?_
  by_cases hl : line = []
  · subst hl
    have hblank : ∀ l ∈ lines t, trim l = [] := fun l hl => by
      refine trim_eq_nil_of_blank fun c hc => isBlank_of_isLineEnd (ht c ?_)
      rw [← flatten_lines t]
      exact List.mem_flatten_of_mem hl hc
    refine ⟨fun _ l hl => absurd hl (by simp [lines]), fun _ l hl => ?_⟩
    exact hblank l hl ▸ hP
  · obtain ⟨first, more, hlines, hfirst, hmore⟩ := lines_line_append hn hl ht
    rw [hlines, lines_eq_singleton hn hl, List.forall_mem_cons, List.forall_mem_singleton, hfirst]
    exact and_iff_left fun l hl => hmore l hl ▸ hP

end Scaffold.Text
