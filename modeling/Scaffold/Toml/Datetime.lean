/-!
# Dates and times

A TOML date-time has a date, a time of day, or both, and an offset if it has both. It is
read with a `T`, a small `t` or a space between date and time, and always written with
`T`. A fraction of a second is kept to nine digits.
-/

namespace Scaffold.Toml

/-- A calendar date. -/
structure Date where
  year : Nat
  month : Nat
  day : Nat
deriving DecidableEq, Inhabited

/-- A time of day. Seconds may be left out, and so may their fraction, in billionths. -/
structure Time where
  hour : Nat
  minute : Nat
  second? : Option Nat
  nanosecond? : Option Nat
deriving DecidableEq, Inhabited

/-- The distance from universal time. -/
inductive Offset where
  | zulu
  | minutes (east : Int)
deriving DecidableEq, Inhabited

/-- A date-time. -/
structure Datetime where
  date? : Option Date
  time? : Option Time
  offset? : Option Offset
deriving DecidableEq, Inhabited

namespace Datetime

/-! ### Reading -/

/-- The value of a decimal digit. -/
def digit? (c : Char) : Option Nat := if c.isDigit then some (c.toNat - '0'.toNat) else none

/-- The number of exactly `count` digits at the front. -/
def number? : (count acc : Nat) → List Char → Option (Nat × List Char)
  | 0, acc, rest => some (acc, rest)
  | _ + 1, _, [] => none
  | count + 1, acc, c :: rest => do number? count (acc * 10 + (← digit? c)) rest

/-- What follows a given character. -/
def skip? (expected : Char) : List Char → Option (List Char)
  | [] => none
  | c :: rest => if c = expected then some rest else none

/-- A year with a day more. -/
def isLeap (year : Nat) : Bool := year % 4 == 0 && (year % 100 != 0 || year % 400 == 0)

/-- The number of days of a month. -/
def daysIn (year month : Nat) : Nat :=
  if month = 2 then if isLeap year then 29 else 28
  else if month = 4 || month = 6 || month = 9 || month = 11 then 30
  else 31

/-- A date at the front. -/
def readDate? (s : List Char) : Option (Date × List Char) := do
  let (year, s) ← number? 4 0 s
  let (month, s) ← number? 2 0 (← skip? '-' s)
  let (day, s) ← number? 2 0 (← skip? '-' s)
  if 1 ≤ month && month ≤ 12 && 1 ≤ day && day ≤ daysIn year month then
    return (⟨year, month, day⟩, s)
  else none

/-- The billionths that the digits of a fraction make. -/
def nanoseconds (digits : List Char) : Nat :=
  let nine := digits.take 9
  nine.foldl (fun n c => n * 10 + (c.toNat - '0'.toNat)) 0 * Nat.pow 10 (9 - nine.length)

/-- The seconds behind a colon and their fraction, if they are there. -/
def readSeconds? (s : List Char) : Option (Option Nat × Option Nat × List Char) :=
  match s with
  | ':' :: rest => do
    let (second, rest) ← number? 2 0 rest
    match rest with
    | '.' :: rest =>
      let digits := rest.takeWhile Char.isDigit
      if digits.isEmpty then none
      else return (some second, some (nanoseconds digits), rest.dropWhile Char.isDigit)
    | _ => return (some second, none, rest)
  | _ => some (none, none, s)

/-- A time of day at the front. -/
def readTime? (s : List Char) : Option (Time × List Char) := do
  let (hour, s) ← number? 2 0 s
  let (minute, s) ← number? 2 0 (← skip? ':' s)
  let (second?, nanosecond?, s) ← readSeconds? s
  if hour ≤ 23 && minute ≤ 59 && second?.getD 0 ≤ 60 then
    return (⟨hour, minute, second?, nanosecond?⟩, s)
  else none

/-- A whole offset. -/
def readOffset? : List Char → Option (Option Offset)
  | [] => some none
  | ['Z'] | ['z'] => some (some .zulu)
  | c :: rest => do
    let negative ← if c = '-' then some true else if c = '+' then some false else none
    let (hours, rest) ← number? 2 0 rest
    let (minutes, rest) ← number? 2 0 (← skip? ':' rest)
    let total : Int := (hours * 60 + minutes : Nat)
    if rest.isEmpty && hours ≤ 23 && minutes ≤ 59 then
      return some (.minutes (if negative then -total else total))
    else none

/-- The date-time that a text spells. -/
def parse? (s : List Char) : Option Datetime :=
  match readDate? s with
  | some (date, []) => some ⟨some date, none, none⟩
  | some (date, c :: rest) => do
    if c != 'T' && c != 't' && c != ' ' then none
    let (time, rest) ← readTime? rest
    return ⟨some date, some time, ← readOffset? rest⟩
  | none => do
    let (time, rest) ← readTime? s
    if rest.isEmpty then return ⟨none, some time, none⟩ else none

/-! ### Writing -/

/-- A number with leading zeros up to a width. -/
def padded (width n : Nat) : List Char :=
  let digits := Nat.toDigits 10 n
  List.replicate (width - digits.length) '0' ++ digits

/-- The fraction of a second without trailing zeros, but with one digit at least. -/
def fractionText (n : Nat) : List Char :=
  match ((padded 9 n).reverse.dropWhile (· == '0')).reverse with
  | [] => ['0']
  | digits => digits

/-- The text of a date. -/
def dateText (d : Date) : List Char :=
  padded 4 d.year ++ '-' :: padded 2 d.month ++ '-' :: padded 2 d.day

/-- The text of a time of day. -/
def timeText (t : Time) : List Char :=
  padded 2 t.hour ++ ':' :: padded 2 t.minute ++
    (match t.second? with
      | some second => ':' :: padded 2 second
      | none => []) ++
    (match t.nanosecond? with
      | some n => '.' :: fractionText n
      | none => [])

/-- The text of an offset. -/
def offsetText : Offset → List Char
  | .zulu => ['Z']
  | .minutes east =>
    let total := east.natAbs
    (if east < 0 then '-' else '+') :: padded 2 (total / 60) ++ ':' :: padded 2 (total % 60)

/-- The text of a date-time. -/
def text (d : Datetime) : String :=
  let date := (d.date?.map dateText).getD []
  let time := (d.time?.map timeText).getD []
  let gap := if d.date?.isSome && d.time?.isSome then ['T'] else []
  String.ofList (date ++ gap ++ time ++ (d.offset?.map offsetText).getD [])

end Datetime
end Scaffold.Toml
