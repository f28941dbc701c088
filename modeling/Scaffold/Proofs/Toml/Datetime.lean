import Mathlib.Data.List.TakeWhile
import Mathlib.Tactic.Positivity
import Mathlib.Tactic.Ring
import Scaffold.Toml.Datetime

/-!
# Date-times read back

What is read as a date-time is a valid one (`valid_of_parse?`), and a valid one is read back from
the text that is written of it (`parse?_text`), so these are all that are (`valid_iff_parse?_text`).
Both follow the parts of the text: digits of a fixed number, the fraction of a second without its
trailing zeros, the date, the time of day, the offset.
-/

namespace Scaffold.Toml

/-- A day of the calendar in a year of four digits. -/
structure Date.Valid (d : Date) : Prop where
  year : d.year < 10 ^ 4
  month : 1 ≤ d.month ∧ d.month ≤ 12
  day : 1 ≤ d.day ∧ d.day ≤ Datetime.daysIn d.year d.month

/-- A time of the clock, a leap second included. Only seconds have a fraction. -/
structure Time.Valid (t : Time) : Prop where
  hour : t.hour ≤ 23
  minute : t.minute ≤ 59
  second : t.second?.getD 0 ≤ 60
  nanosecond : ∀ n ∈ t.nanosecond?, t.second?.isSome ∧ n < 10 ^ 9

/-- An offset of less than a day. -/
def Offset.Valid : Offset → Prop
  | .zulu => True
  | .minutes east => east.natAbs < 24 * 60

namespace Datetime

/-- A date, a time of day, or both and maybe an offset. -/
inductive Valid : Datetime → Prop where
  | date {d : Date} (hd : d.Valid) : Valid ⟨some d, none, none⟩
  | time {t : Time} (ht : t.Valid) : Valid ⟨none, some t, none⟩
  | full {d : Date} {t : Time} {offset? : Option Offset} (hd : d.Valid) (ht : t.Valid)
      (ho : ∀ o ∈ offset?, o.Valid) : Valid ⟨some d, some t, offset?⟩

/-! ### Digits -/

theorem digit?_eq_some {c : Char} {n : Nat} :
    digit? c = some n ↔ c.isDigit = true ∧ c.toNat - '0'.toNat = n := by
  rw [digit?]
  split <;> simp_all

theorem digit_lt_ten {c : Char} (h : c.isDigit = true) : c.toNat - '0'.toNat < 10 := by
  have hc : c.toNat ≤ 57 := (Char.isDigit_iff_toNat.1 h).2
  change c.toNat - 48 < 10
  omega

theorem ofDigitChars_lt {ds : List Char} (h : ∀ c ∈ ds, c.isDigit = true) (acc : Nat) :
    Nat.ofDigitChars 10 ds acc < (acc + 1) * 10 ^ ds.length := by
  induction ds generalizing acc with
  | nil => simp
  | cons c ds ih =>
    obtain ⟨hc, hds⟩ := List.forall_mem_cons.1 h
    have hdigit := digit_lt_ten hc
    calc Nat.ofDigitChars 10 (c :: ds) acc
        < (10 * acc + (c.toNat - '0'.toNat) + 1) * 10 ^ ds.length := by
          rw [Nat.ofDigitChars_cons]
          exact ih hds _
      _ ≤ ((acc + 1) * 10) * 10 ^ ds.length := Nat.mul_le_mul_right _ (by omega)
      _ = (acc + 1) * 10 ^ (c :: ds).length := by rw [List.length_cons, pow_succ]; ring

theorem number?_lt {count acc n : Nat} {s rest : List Char}
    (h : number? count acc s = some (n, rest)) : n < (acc + 1) * 10 ^ count := by
  induction count generalizing acc s with
  | zero =>
    obtain ⟨rfl, -⟩ := Prod.mk.inj (Option.some.inj h)
    simp
  | succ count ih =>
    cases s with
    | nil => cases h
    | cons c s =>
      obtain ⟨d, hd, h⟩ := Option.bind_eq_some_iff.1 h
      obtain ⟨hc, rfl⟩ := digit?_eq_some.1 hd
      have hdigit := digit_lt_ten hc
      calc n < (acc * 10 + (c.toNat - '0'.toNat) + 1) * 10 ^ count := ih h
        _ ≤ ((acc + 1) * 10) * 10 ^ count := Nat.mul_le_mul_right _ (by omega)
        _ = (acc + 1) * 10 ^ (count + 1) := by ring

theorem number?_digits {ds : List Char} (h : ∀ c ∈ ds, c.isDigit = true) (acc : Nat)
    (rest : List Char) :
    number? ds.length acc (ds ++ rest) = some (Nat.ofDigitChars 10 ds acc, rest) := by
  induction ds generalizing acc with
  | nil => rfl
  | cons c ds ih =>
    obtain ⟨hc, hds⟩ := List.forall_mem_cons.1 h
    simp only [List.length_cons, List.cons_append, number?, digit?, if_pos hc, Option.bind_eq_bind,
      Option.bind_some, ih hds, Nat.ofDigitChars_cons, Nat.mul_comm]

section
variable {width n : Nat}

theorem length_padded (hw : 0 < width) (h : n < 10 ^ width) : (padded width n).length = width := by
  have hle := (Nat.length_toDigits_le_iff (by decide) hw).2 h
  simp only [padded, List.length_append, List.length_replicate]
  omega

theorem isDigit_of_mem_padded {c : Char} (h : c ∈ padded width n) : c.isDigit = true := by
  rcases List.mem_append.1 h with h | h
  · obtain ⟨-, rfl⟩ := List.mem_replicate.1 h
    rfl
  · exact Nat.isDigit_of_mem_toDigits (by decide) (by decide) h

theorem ofDigitChars_padded : Nat.ofDigitChars 10 (padded width n) 0 = n := by
  rw [padded, Nat.ofDigitChars_append, Nat.ofDigitChars_replicate_zero, Nat.mul_zero,
    Nat.ofDigitChars_toDigits (by decide) (by decide)]

/-- **A number that is padded to its width is read back.** -/
theorem number?_padded (hw : 0 < width) (h : n < 10 ^ width) (rest : List Char) :
    number? width 0 (padded width n ++ rest) = some (n, rest) := by
  have hdigits : ∀ c ∈ padded width n, c.isDigit = true := fun _ => isDigit_of_mem_padded
  have hread := number?_digits hdigits 0 rest
  rwa [length_padded hw h, ofDigitChars_padded] at hread

end

/-! ### Fractions of a second -/

theorem nanoseconds_eq (ds : List Char) :
    nanoseconds ds = Nat.ofDigitChars 10 (ds.take 9) 0 * 10 ^ (9 - (ds.take 9).length) := by
  simp only [nanoseconds, Nat.ofDigitChars, Nat.mul_comm]
  rfl

theorem nanoseconds_lt {ds : List Char} (h : ∀ c ∈ ds, c.isDigit = true) :
    nanoseconds ds < 10 ^ 9 := by
  have hlen : (ds.take 9).length ≤ 9 := List.length_take_le 9 ds
  have hdigits : ∀ c ∈ ds.take 9, c.isDigit = true := fun c hc => h c (List.mem_of_mem_take hc)
  have hlt := ofDigitChars_lt hdigits 0
  rw [nanoseconds_eq]
  calc Nat.ofDigitChars 10 (ds.take 9) 0 * 10 ^ (9 - (ds.take 9).length)
      < (0 + 1) * 10 ^ (ds.take 9).length * 10 ^ (9 - (ds.take 9).length) :=
        Nat.mul_lt_mul_of_pos_right hlt (by positivity)
    _ = 10 ^ 9 := by rw [Nat.zero_add, Nat.one_mul, ← pow_add, Nat.add_sub_cancel' hlen]

/-- Nine digits without their trailing zeros, and the zeros. -/
theorem exists_padded_eq (n : Nat) : ∃ zeros, padded 9 n =
    ((padded 9 n).reverse.dropWhile (· == '0')).reverse ++ List.replicate zeros '0' := by
  have hsplit := List.takeWhile_append_dropWhile (p := (· == '0')) (l := (padded 9 n).reverse)
  have hzeros : (padded 9 n).reverse.takeWhile (· == '0') =
      List.replicate ((padded 9 n).reverse.takeWhile (· == '0')).length '0' :=
    List.eq_replicate_iff.2 ⟨rfl, fun c hc => by simpa using List.mem_takeWhile_imp hc⟩
  refine ⟨((padded 9 n).reverse.takeWhile (· == '0')).length, ?_⟩
  rw [← List.reverse_replicate, ← hzeros, ← List.reverse_append, hsplit, List.reverse_reverse]

theorem nanoseconds_of_padded_eq {n zeros : Nat} {ds : List Char} (h : n < 10 ^ 9)
    (hds : padded 9 n = ds ++ List.replicate zeros '0') : nanoseconds ds = n := by
  have hlen := congrArg List.length hds
  rw [length_padded (by decide) h, List.length_append, List.length_replicate] at hlen
  have hvalue := congrArg (Nat.ofDigitChars 10 · 0) hds
  simp only [ofDigitChars_padded, Nat.ofDigitChars_append,
    Nat.ofDigitChars_replicate_zero] at hvalue
  have hzeros : 9 - ds.length = zeros := by omega
  rw [nanoseconds_eq, List.take_of_length_le (by omega), hzeros, hvalue, Nat.mul_comm]

theorem nanoseconds_fractionText {n : Nat} (h : n < 10 ^ 9) : nanoseconds (fractionText n) = n := by
  obtain ⟨zeros, hds⟩ := exists_padded_eq n
  rw [fractionText]
  split
  · rename_i hnil
    rw [hnil] at hds
    exact (show nanoseconds ['0'] = nanoseconds [] from rfl).trans (nanoseconds_of_padded_eq h hds)
  · exact nanoseconds_of_padded_eq h hds

theorem isDigit_of_mem_fractionText {n : Nat} {c : Char} (h : c ∈ fractionText n) :
    c.isDigit = true := by
  rw [fractionText] at h
  split at h
  · obtain rfl := List.mem_singleton.1 h
    rfl
  · exact isDigit_of_mem_padded
      (List.mem_reverse.1 ((List.dropWhile_sublist _).subset (List.mem_reverse.1 h)))

theorem fractionText_ne_nil (n : Nat) : fractionText n ≠ [] := by
  rw [fractionText]
  split
  · exact List.cons_ne_nil _ _
  · assumption

/-! ### Written and read -/

section
variable {d : Date} {t : Time} {o : Offset} {rest : List Char}

theorem daysIn_le (year month : Nat) : daysIn year month ≤ 31 := by
  unfold daysIn
  split_ifs <;> omega

theorem readDate?_dateText (h : d.Valid) (rest : List Char) :
    readDate? (dateText d ++ rest) = some (d, rest) := by
  have hmonth : d.month < 10 ^ 2 := by have := h.month.2; omega
  have hday : d.day < 10 ^ 2 := by
    have := h.day.2.trans (daysIn_le d.year d.month)
    omega
  have htext : dateText d ++ rest =
      padded 4 d.year ++ '-' :: (padded 2 d.month ++ '-' :: (padded 2 d.day ++ rest)) := by
    simp [dateText]
  simp only [readDate?, htext, number?_padded (by decide) h.year,
    number?_padded (by decide) hmonth, number?_padded (by decide) hday, skip?, if_true,
    Option.bind_eq_bind, Option.bind_some]
  simp [h.month, h.day]

/-- What may follow a time of day: the end of the text, or the first character of an offset. -/
def Ends (rest : List Char) : Prop :=
  ∀ c ∈ rest.head?, c.isDigit = false ∧ c ≠ ':' ∧ c ≠ '.'

theorem takeWhile_of_ends (h : Ends rest) : rest.takeWhile Char.isDigit = [] := by
  cases rest with
  | nil => rfl
  | cons c rest => rw [List.takeWhile_cons_of_neg (by simp [(h c rfl).1])]

theorem readSeconds?_of_ends (h : Ends rest) : readSeconds? rest = some (none, none, rest) := by
  unfold readSeconds?
  split
  · exact absurd rfl (h ':' rfl).2.1
  · rfl

theorem readSeconds?_second {second : Nat} (hs : second < 10 ^ 2) (h : Ends rest) :
    readSeconds? (':' :: (padded 2 second ++ rest)) = some (some second, none, rest) := by
  simp only [readSeconds?, number?_padded (by decide) hs, Option.bind_eq_bind, Option.bind_some]
  split
  · exact absurd rfl (h '.' rfl).2.2
  · rfl

theorem readSeconds?_fraction {second n : Nat} (hs : second < 10 ^ 2) (hn : n < 10 ^ 9)
    (h : Ends rest) :
    readSeconds? (':' :: (padded 2 second ++ '.' :: (fractionText n ++ rest))) =
      some (some second, some n, rest) := by
  have hdigits : ∀ c ∈ fractionText n, c.isDigit = true := fun _ => isDigit_of_mem_fractionText
  have hrest : rest.dropWhile Char.isDigit = rest := by
    have hsplit := List.takeWhile_append_dropWhile (p := Char.isDigit) (l := rest)
    rwa [takeWhile_of_ends h, List.nil_append] at hsplit
  have htake : (fractionText n ++ rest).takeWhile Char.isDigit = fractionText n := by
    rw [List.takeWhile_append_of_pos hdigits, takeWhile_of_ends h, List.append_nil]
  have hdrop : (fractionText n ++ rest).dropWhile Char.isDigit = rest := by
    rw [List.dropWhile_append_of_pos hdigits, hrest]
  simp only [readSeconds?, number?_padded (by decide) hs, Option.bind_eq_bind, Option.bind_some,
    htake, hdrop, nanoseconds_fractionText hn]
  rw [if_neg (by simpa using fractionText_ne_nil n)]
  rfl

theorem readTime?_timeText (ht : t.Valid) (hrest : Ends rest) :
    readTime? (timeText t ++ rest) = some (t, rest) := by
  obtain ⟨hour, minute, second?, nanosecond?⟩ := t
  obtain ⟨hhour, hminute, hsecond, hnano⟩ := ht
  dsimp only at hhour hminute hsecond hnano
  have hhour' : hour < 10 ^ 2 := by omega
  have hminute' : minute < 10 ^ 2 := by omega
  have hread : ∀ tail, readSeconds? tail = some (second?, nanosecond?, rest) →
      readTime? (padded 2 hour ++ ':' :: (padded 2 minute ++ tail)) =
        some (⟨hour, minute, second?, nanosecond?⟩, rest) := by
    intro tail htail
    simp only [readTime?, number?_padded (by decide) hhour', number?_padded (by decide) hminute',
      skip?, if_true, Option.bind_eq_bind, Option.bind_some, htail]
    simp [hhour, hminute, hsecond]
  cases second? with
  | none =>
    cases nanosecond? with
    | none => simpa [timeText] using hread rest (readSeconds?_of_ends hrest)
    | some n => cases (hnano n rfl).1
  | some second =>
    have hsecond' : second < 10 ^ 2 := by
      rw [Option.getD_some] at hsecond
      omega
    cases nanosecond? with
    | none => simpa [timeText] using hread _ (readSeconds?_second hsecond' hrest)
    | some n =>
      simpa [timeText] using hread _ (readSeconds?_fraction hsecond' (hnano n rfl).2 hrest)

theorem ends_offsetText (o : Offset) : Ends (offsetText o) := by
  cases o with
  | zulu => simp [Ends, offsetText]
  | minutes east => by_cases h : east < 0 <;> simp [Ends, offsetText, h]

/-- The minutes of an offset behind its sign. -/
theorem readOffset?_sign (negative : Bool) (s : List Char) :
    readOffset? ((if negative then '-' else '+') :: s) = (do
      let (hours, rest) ← number? 2 0 s
      let (minutes, rest) ← number? 2 0 (← skip? ':' rest)
      let total : Int := (hours * 60 + minutes : Nat)
      if rest.isEmpty && hours ≤ 23 && minutes ≤ 59 then
        return some (.minutes (if negative then -total else total))
      else none) := by
  cases negative <;> cases s <;> rfl

theorem readOffset?_offsetText (h : o.Valid) : readOffset? (offsetText o) = some (some o) := by
  cases o with
  | zulu => rfl
  | minutes east =>
    have heast : east.natAbs < 24 * 60 := h
    have hhours : east.natAbs / 60 < 10 ^ 2 := by omega
    have hminutes : east.natAbs % 60 < 10 ^ 2 := by omega
    have hread := number?_padded (by decide) hminutes []
    rw [List.append_nil] at hread
    have htotal : east.natAbs / 60 * 60 + east.natAbs % 60 = east.natAbs := by omega
    have htext : offsetText (.minutes east) = (if decide (east < 0) then '-' else '+') ::
        (padded 2 (east.natAbs / 60) ++ ':' :: padded 2 (east.natAbs % 60)) := by
      simp [offsetText]
    have hsign : (if east < 0 then -(east.natAbs : Int) else east.natAbs) = east := by omega
    rw [htext, readOffset?_sign]
    simp only [number?_padded (by decide) hhours, skip?, if_true, hread, Option.bind_eq_bind,
      Option.bind_some, htotal, decide_eq_true_eq, hsign]
    rw [if_pos (by simp; omega)]
    rfl

end

theorem readDate?_timeText {t : Time} (h : t.Valid) (rest : List Char) :
    readDate? (timeText t ++ rest) = none := by
  have hhour : t.hour < 10 ^ 2 := by have := h.hour; omega
  obtain ⟨tens, ones, hdigits⟩ := List.length_eq_two.1 (length_padded (by decide) hhour)
  -- the third character is a colon, where a year still has digits
  have hyear : ∀ s, number? 4 0 (tens :: ones :: ':' :: s) = none := by
    intro s
    simp [number?, digit?]
  simp [readDate?, timeText, hdigits, hyear]

/-- **A valid date-time is read back from its text.** -/
theorem parse?_text {d : Datetime} (h : d.Valid) : parse? d.text.toList = some d := by
  cases h with
  | @date d hd =>
    have hread := readDate?_dateText hd []
    rw [List.append_nil] at hread
    simp [parse?, text, hread]
  | @time t ht =>
    have hdate := readDate?_timeText ht []
    have hend : Ends [] := by simp [Ends]
    have htime := readTime?_timeText ht hend
    rw [List.append_nil] at hdate htime
    simp [parse?, text, hdate, htime]
  | @full d t offset? hd ht ho =>
    have htext : (text ⟨some d, some t, offset?⟩).toList =
        dateText d ++ 'T' :: (timeText t ++ (offset?.map offsetText).getD []) := by
      simp [text]
    have hoffset : readOffset? ((offset?.map offsetText).getD []) = some offset? ∧
        Ends ((offset?.map offsetText).getD []) := by
      cases offset? with
      | none => exact ⟨rfl, by simp [Ends]⟩
      | some o => exact ⟨readOffset?_offsetText (ho o rfl), ends_offsetText o⟩
    rw [htext, parse?, readDate?_dateText hd]
    simp [readTime?_timeText ht hoffset.2, hoffset.1]

/-! ### What is read is valid -/

theorem valid_of_readDate? {s rest : List Char} {d : Date} (h : readDate? s = some (d, rest)) :
    d.Valid := by
  obtain ⟨⟨year, s₁⟩, hyear, h⟩ := Option.bind_eq_some_iff.1 h
  obtain ⟨s₂, -, h⟩ := Option.bind_eq_some_iff.1 h
  obtain ⟨⟨month, s₃⟩, -, h⟩ := Option.bind_eq_some_iff.1 h
  obtain ⟨s₄, -, h⟩ := Option.bind_eq_some_iff.1 h
  obtain ⟨⟨day, s₅⟩, -, h⟩ := Option.bind_eq_some_iff.1 h
  have hlt := number?_lt hyear
  dsimp only at h
  split at h
  · rename_i hrange
    obtain ⟨rfl, -⟩ := Prod.mk.inj (Option.some.inj h)
    simp only [Bool.and_eq_true, decide_eq_true_eq] at hrange
    exact ⟨by simpa using hlt, ⟨hrange.1.1.1, hrange.1.1.2⟩, ⟨hrange.1.2, hrange.2⟩⟩
  · cases h

/-- Only seconds have a fraction, and one of less than a second. -/
theorem nanosecond_of_readSeconds? {s rest : List Char} {second? nanosecond? : Option Nat}
    (h : readSeconds? s = some (second?, nanosecond?, rest)) :
    ∀ n ∈ nanosecond?, second?.isSome ∧ n < 10 ^ 9 := by
  unfold readSeconds? at h
  split at h
  · obtain ⟨⟨second, s₁⟩, -, h⟩ := Option.bind_eq_some_iff.1 h
    dsimp only at h
    split at h
    · split at h
      · cases h
      · simp only [Option.pure_def, Option.some.injEq, Prod.mk.injEq] at h
        obtain ⟨rfl, rfl, -⟩ := h
        rintro n ⟨⟩
        exact ⟨rfl, nanoseconds_lt fun c hc => List.mem_takeWhile_imp hc⟩
    · obtain ⟨-, h⟩ := Prod.mk.inj (Option.some.inj h)
      obtain ⟨rfl, -⟩ := Prod.mk.inj h
      nofun
  · obtain ⟨-, h⟩ := Prod.mk.inj (Option.some.inj h)
    obtain ⟨rfl, -⟩ := Prod.mk.inj h
    nofun

theorem valid_of_readTime? {s rest : List Char} {t : Time} (h : readTime? s = some (t, rest)) :
    t.Valid := by
  obtain ⟨⟨hour, s₁⟩, -, h⟩ := Option.bind_eq_some_iff.1 h
  obtain ⟨s₂, -, h⟩ := Option.bind_eq_some_iff.1 h
  obtain ⟨⟨minute, s₃⟩, -, h⟩ := Option.bind_eq_some_iff.1 h
  obtain ⟨⟨second?, nanosecond?, s₄⟩, hseconds, h⟩ := Option.bind_eq_some_iff.1 h
  dsimp only at h
  split at h
  · rename_i hrange
    obtain ⟨rfl, -⟩ := Prod.mk.inj (Option.some.inj h)
    simp only [Bool.and_eq_true, decide_eq_true_eq] at hrange
    exact ⟨hrange.1.1, hrange.1.2, hrange.2, nanosecond_of_readSeconds? hseconds⟩
  · cases h

theorem readOffset?_cases {s : List Char} {offset? : Option Offset}
    (h : readOffset? s = some offset?) : offset? = none ∨ offset? = some .zulu ∨
      ∃ (negative : Bool) (rest : List Char), s = (if negative then '-' else '+') :: rest := by
  unfold readOffset? at h
  split at h
  · exact .inl (Option.some.inj h).symm
  · exact .inr (.inl (Option.some.inj h).symm)
  · exact .inr (.inl (Option.some.inj h).symm)
  · rename_i c rest _ _
    dsimp only at h
    split at h
    · rename_i hc
      exact .inr (.inr ⟨true, rest, hc ▸ rfl⟩)
    · split at h
      · rename_i hc
        exact .inr (.inr ⟨false, rest, hc ▸ rfl⟩)
      · cases h

theorem valid_of_readOffset? {s : List Char} {offset? : Option Offset}
    (h : readOffset? s = some offset?) : ∀ o ∈ offset?, o.Valid := by
  rcases readOffset?_cases h with rfl | rfl | ⟨negative, rest, rfl⟩
  · nofun
  · rintro o ⟨⟩
    trivial
  · rw [readOffset?_sign] at h
    obtain ⟨⟨hours, s₁⟩, -, h⟩ := Option.bind_eq_some_iff.1 h
    obtain ⟨s₂, -, h⟩ := Option.bind_eq_some_iff.1 h
    obtain ⟨⟨minutes, s₃⟩, -, h⟩ := Option.bind_eq_some_iff.1 h
    dsimp only at h
    split at h
    · rename_i hrange
      simp only [Bool.and_eq_true, decide_eq_true_eq] at hrange
      obtain rfl := Option.some.inj h
      rintro o ⟨⟩
      change Int.natAbs _ < 24 * 60
      cases negative <;> simp only [if_true, Bool.false_eq_true, if_false] <;> omega
    · cases h

/-- **What is read as a date-time is a valid one.** -/
theorem valid_of_parse? {s : List Char} {d : Datetime} (h : parse? s = some d) : d.Valid := by
  unfold parse? at h
  split at h
  · rename_i hdate
    obtain rfl := Option.some.inj h
    exact .date (valid_of_readDate? hdate)
  · rename_i hdate
    split at h
    · cases h
    · obtain ⟨⟨t, s₁⟩, htime, h⟩ := Option.bind_eq_some_iff.1 h
      obtain ⟨offset?, hoffset, h⟩ := Option.bind_eq_some_iff.1 h
      obtain rfl := Option.some.inj h
      exact .full (valid_of_readDate? hdate) (valid_of_readTime? htime)
        (valid_of_readOffset? hoffset)
  · obtain ⟨⟨t, s₁⟩, htime, h⟩ := Option.bind_eq_some_iff.1 h
    dsimp only at h
    split at h
    · obtain rfl := Option.some.inj h
      exact .time (valid_of_readTime? htime)
    · cases h

/-- **The valid date-times** are those that are read back from what is written of them. -/
theorem valid_iff_parse?_text {d : Datetime} : d.Valid ↔ parse? d.text.toList = some d :=
  ⟨parse?_text, valid_of_parse?⟩

end Datetime
end Scaffold.Toml
