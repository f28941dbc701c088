import Scaffold.Comment
import Scaffold.Proofs.Text

/-!
# What comments say

The marks of every comment syntax are words (`Comment.proper_parse`). A text is read off a line if
and only if the line says it: the opener, the text among blanks and the closer, with blanks around
all of it (`Comment.Proper.strip?_eq_some_iff`). A word neither begins nor ends with a blank, so
trimming a line leaves its marks whole, and as they are cut off one after the other they never claim
the same character. So the text of a comment line is read off it as it was written, blanks at its
ends aside (`Comment.strip?_undoes_wrap`).
-/

namespace Scaffold

namespace Text

/-- A word: something, without blanks in it. -/
def IsWord (w : List Char) : Prop := w ≠ [] ∧ Unbroken w

instance (w : List Char) : Decidable (IsWord w) := inferInstanceAs (Decidable (_ ∧ _))

theorem IsWord.head? {w : List Char} (h : IsWord w) (s : List Char) :
    ∀ c ∈ (w ++ s).head?, isBlank c = false := by
  intro c hc
  obtain ⟨d, t, rfl⟩ := List.exists_cons_of_ne_nil h.1
  obtain rfl : d = c := by simpa using hc
  exact h.2 d List.mem_cons_self

theorem IsWord.getLast? {w : List Char} (h : IsWord w) (s : List Char) :
    ∀ c ∈ (s ++ w).getLast?, isBlank c = false := by
  intro c hc
  rw [List.getLast?_append_of_ne_nil _ h.1] at hc
  exact h.2 c (List.mem_of_getLast? hc)

theorem IsWord.lineFeed_not_mem {w : List Char} (h : IsWord w) : '\n' ∉ w :=
  fun hm => absurd (h.2 _ hm) (by decide)

theorem isWord_of_mem_wordsFrom {word s : List Char} (h : ∀ c ∈ word, isBlank c = false) :
    ∀ w ∈ wordsFrom word s, IsWord w := by
  induction s generalizing word with
  | nil =>
    intro w hw
    cases word with
    | nil => simp [wordsFrom] at hw
    | cons c word =>
      obtain rfl : w = (c :: word).reverse := by simpa [wordsFrom] using hw
      exact ⟨by simp, fun d hd => h d (List.mem_reverse.1 hd)⟩
  | cons c s ih =>
    intro w hw
    rw [wordsFrom] at hw
    split at hw
    · cases word with
      | nil => exact ih (by simp) w hw
      | cons d word =>
        rcases List.mem_cons.1 hw with rfl | hw
        · exact ⟨by simp, fun e he => h e (List.mem_reverse.1 he)⟩
        · exact ih (by simp) w hw
    · rename_i hc
      exact ih (List.forall_mem_cons.2 ⟨by simpa using hc, h⟩) w hw

theorem isWord_of_mem_words {s w : List Char} (h : w ∈ words s) : IsWord w :=
  isWord_of_mem_wordsFrom (by simp) w h

end Text

namespace Comment

/-- The marks of the comment are words. -/
structure Proper (c : Comment) : Prop where
  /-- The mark before the text. -/
  opener : Text.IsWord c.opener.toList
  /-- The mark behind the text. -/
  closer : ∀ closer ∈ c.closer?, Text.IsWord closer.toList

theorem proper_parse (s : String) : (parse s).Proper := by
  have hw : ∀ w ∈ Text.words s.toList, Text.IsWord w := fun w => Text.isWord_of_mem_words
  rw [parse]
  split
  · exact ⟨by decide, by simp⟩
  · rename_i o heq
    rw [heq] at hw
    exact ⟨by simpa using hw, by simp⟩
  · rename_i o k more heq
    rw [heq] at hw
    refine ⟨by simpa using hw o (by simp), fun closer hk => ?_⟩
    obtain rfl : String.ofList k = closer := by simpa using hk
    simpa using hw k (by simp)

/-- The comments of a file are those that some text declares. -/
theorem exists_parse_eq_forPath (path : Path) : ∃ s, forPath path = parse s := by
  unfold forPath forExtension
  simp only
  split_ifs
  · exact ⟨"//", by decide⟩
  · exact ⟨"<!-- -->", by decide⟩
  · exact ⟨"/* */", by decide⟩
  · exact ⟨"--", by decide⟩
  · exact ⟨"%", by decide⟩
  · exact ⟨"::", by decide⟩
  · exact ⟨"#", by decide⟩

/-! ### Comment lines -/

/-- A text between the pieces around a comment is a comment line. -/
theorem opening_append_closing (c : Comment) (text : String) :
    c.opening ++ text ++ c.closing = c.wrap text := by
  cases hk : c.closer? with
  | none => simp [opening, closing, wrap, hk]
  | some closer => simp [opening, closing, wrap, hk, String.append_assoc]

theorem toList_wrap (c : Comment) (text : String) :
    (c.wrap text).toList = c.opener.toList ++ ' ' :: (text.toList ++ c.closing.toList) := by
  rw [← opening_append_closing]
  simp [opening]

/-- The line says the text: the opener, the text among blanks and the closer, if there is one, with
blanks around all of it. -/
def Says (c : Comment) (line text : List Char) : Prop :=
  ∃ before inner after, (∀ x ∈ before, Text.isBlank x) ∧ (∀ x ∈ after, Text.isBlank x) ∧
    line = before ++ (c.opener.toList ++ inner ++ (c.closer?.getD "").toList) ++ after ∧
    Text.trim inner = text

/-- A comment line says its text without the blanks at its ends, whatever blanks stand around the
line. -/
theorem says_wrap (c : Comment) (text : String) {before after : List Char}
    (hb : ∀ x ∈ before, Text.isBlank x) (ha : ∀ x ∈ after, Text.isBlank x) :
    c.Says (before ++ (c.wrap text).toList ++ after) (Text.trim text.toList) := by
  have hsp := Text.blank_space
  cases hk : c.closer? with
  | none =>
    refine ⟨before, [' '] ++ text.toList, after, hb, ha, ?_, Text.trim_append_left hsp _⟩
    simp [wrap, hk]
  | some closer =>
    refine ⟨before, [' '] ++ text.toList ++ [' '], after, hb, ha, ?_, Text.trim_pad hsp hsp _⟩
    simp [wrap, hk]

/-- A line off which a text is read has the text among blanks between its marks. -/
theorem exists_inner_of_strip? {c : Comment} {line text : List Char}
    (h : c.strip? line = some text) :
    ∃ inner blanks, (∀ x ∈ blanks, Text.isBlank x) ∧ Text.trim inner = text ∧
      Text.trim line = c.opener.toList ++ inner ++ (c.closer?.getD "").toList ++ blanks := by
  obtain ⟨rest, hrest, htext⟩ := Option.bind_eq_some_iff.1 h
  rw [Text.stripStart?_eq_some.1 hrest]
  cases hk : c.closer? with
  | none =>
    simp only [hk] at htext
    exact ⟨rest, [], by simp, Option.some.inj htext, by simp⟩
  | some closer =>
    simp only [hk] at htext
    obtain ⟨inner, hinner, rfl⟩ := Option.map_eq_some_iff.1 htext
    obtain ⟨blanks, hblanks, hcut⟩ := Text.exists_dropEndWhile_append Text.isBlank rest
    have hrest : rest = inner ++ closer.toList ++ blanks := by
      rw [← Text.stripEnd?_eq_some hinner]
      exact hcut
    exact ⟨inner, blanks, hblanks, rfl, by simp [hrest]⟩

/-- What is read off a line, the line says. -/
theorem says_of_strip? {c : Comment} {line text : List Char} (h : c.strip? line = some text) :
    c.Says line text := by
  obtain ⟨before, after, hb, ha, hline⟩ := Text.exists_pad line
  obtain ⟨inner, blanks, hblanks, htext, hcut⟩ := exists_inner_of_strip? h
  refine ⟨before, inner, blanks ++ after, hb, List.forall_mem_append.2 ⟨hblanks, ha⟩, ?_, htext⟩
  rw [hline, hcut]
  simp

/-- What a line says is read off it: its marks are words, so that trimming does not reach into
them, and the closer is cut off what the opener leaves. -/
theorem Proper.strip?_of_says {c : Comment} (hc : c.Proper) {line text : List Char}
    (h : c.Says line text) : c.strip? line = some text := by
  obtain ⟨before, inner, after, hb, ha, rfl, rfl⟩ := h
  rw [strip?, Text.trim_pad hb ha]
  cases hk : c.closer? with
  | none =>
    have hlast : ∀ x ∈ c.opener.toList.getLast?, Text.isBlank x = false := hc.opener.getLast? []
    have ht : Text.trim (c.opener.toList ++ inner ++ "".toList) =
        c.opener.toList ++ Text.trimEnd inner := by
      rw [Text.trim, List.append_assoc, Text.trimStart_eq_self (hc.opener.head? _),
        Text.trimEnd_append hlast]
      simp
    rw [Option.getD_none, ht, Text.stripStart?_append, Option.bind_eq_bind, Option.bind_some,
      Text.trim_trimEnd]
  | some closer =>
    have hw := hc.closer closer hk
    have hhead : ∀ x ∈ (c.opener.toList ++ inner ++ closer.toList).head?,
        Text.isBlank x = false := by
      rw [List.append_assoc]
      exact hc.opener.head? _
    rw [Option.getD_some, Text.trim_eq_self hhead (hw.getLast? _), List.append_assoc,
      Text.stripStart?_append, Option.bind_eq_bind, Option.bind_some, Text.trimEnd,
      Text.dropEndWhile_eq_self (hw.getLast? _)]
    simp only [Text.stripEnd?_append, Option.map_some]

theorem Proper.strip?_eq_some_iff {c : Comment} (hc : c.Proper) {line text : List Char} :
    c.strip? line = some text ↔ c.Says line text :=
  ⟨says_of_strip?, hc.strip?_of_says⟩

/-- The text of a comment line is read off as it was written, without the blanks at its ends,
whatever blanks stand around the line. -/
theorem strip?_wrap {c : Comment} (hc : c.Proper) (text : String) {before after : List Char}
    (hb : ∀ x ∈ before, Text.isBlank x) (ha : ∀ x ∈ after, Text.isBlank x) :
    c.strip? (before ++ (c.wrap text).toList ++ after) = some (Text.trim text.toList) :=
  hc.strip?_of_says (c.says_wrap text hb ha)

/-- **Reading a comment line undoes writing it**, in every comment syntax that can be declared: the
text comes back without the blanks at its ends, whatever blanks stand around the line, a line is the
text between the pieces around a comment, and only lines that say a text are read as comments. -/
theorem strip?_undoes_wrap (s : String) :
    (∀ (text : String) (before after : List Char),
      (∀ x ∈ before, Text.isBlank x) → (∀ x ∈ after, Text.isBlank x) →
      (parse s).strip? (before ++ ((parse s).wrap text).toList ++ after) =
        some (Text.trim text.toList)) ∧
    (∀ text : String, (parse s).opening ++ text ++ (parse s).closing = (parse s).wrap text) ∧
    ∀ line text : List Char, (parse s).strip? line = some text ↔ (parse s).Says line text := by
  have hc := proper_parse s
  exact ⟨fun text _ _ => strip?_wrap hc text, opening_append_closing _,
    fun _ _ => hc.strip?_eq_some_iff⟩

/-- A text that itself looks like a comment comes back whole, and marks that overlap are not a
comment. -/
theorem strip?_undoes_wrap_overlap :
    (∀ x ∈ ['\t'], Text.isBlank x) ∧ (∀ x ∈ ['\r', '\n'], Text.isBlank x) ∧
      (parse "/* */ more").strip? "\t/* /* a */ */\r\n".toList = some "/* a */".toList ∧
      ¬ (parse "/* */ more").Says "/*/".toList [] := by
  obtain ⟨hread, -, hsays⟩ := strip?_undoes_wrap "/* */ more"
  have hb : ∀ x ∈ ['\t'], Text.isBlank x := List.forall_mem_singleton.2 rfl
  have ha : ∀ x ∈ ['\r', '\n'], Text.isBlank x := List.forall_mem_cons.2 ⟨rfl, Text.blank_lineFeed⟩
  refine ⟨hb, ha, ?_, ?_⟩
  · have hline : "\t/* /* a */ */\r\n".toList =
        ['\t'] ++ ((parse "/* */ more").wrap "/* a */").toList ++ ['\r', '\n'] := by decide
    have htrim : Text.trim "/* a */".toList = "/* a */".toList := by decide
    rw [hline, hread "/* a */" _ _ hb ha, htrim]
  · rw [← hsays]
    decide

/-! ### What is read off a line -/

/-- The text of a comment line is part of the line. -/
theorem mem_of_strip? {c : Comment} {line text : List Char} (h : c.strip? line = some text) :
    ∀ x ∈ text, x ∈ Text.trim line := by
  obtain ⟨inner, blanks, -, rfl, hcut⟩ := exists_inner_of_strip? h
  intro x hx
  have hinner : x ∈ inner := Text.mem_of_mem_trim hx
  rw [hcut]
  simp [hinner]

/-- The text of a comment line has no blanks at its ends. -/
theorem trim_of_strip? {c : Comment} {line text : List Char} (h : c.strip? line = some text) :
    Text.trim text = text := by
  obtain ⟨-, inner, -, -, -, -, rfl⟩ := says_of_strip? h
  exact Text.trim_trim inner

/-- A comment line is one line if its text is. -/
theorem lineFeed_not_mem_wrap {c : Comment} (hc : c.Proper) {text : String}
    (h : '\n' ∉ text.toList) : '\n' ∉ (c.wrap text).toList := by
  have ho := hc.opener.lineFeed_not_mem
  rw [toList_wrap, closing]
  cases hk : c.closer? with
  | none => simp [ho, h]
  | some closer =>
    have := (hc.closer closer hk).lineFeed_not_mem
    simp [ho, h, this]

end Comment

end Scaffold
