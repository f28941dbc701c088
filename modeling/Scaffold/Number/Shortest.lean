import Scaffold.Number.Double

/-!
# The fewest digits that read back

The text of a double has the fewest decimal digits from which rounding to nearest
gives the double back, and of these the digits nearest to it. The reals that round
to a double form an interval between the midpoints to its neighbours, which belong
to it when its significand is even. For each number of digits the two multiples of
the power of ten around the double are tested; if any multiple lies in the
interval, one of these two does.

How the digits are laid out is decided by a `Layout`.
-/

namespace Scaffold.Double

/-- `digits · 10 ^ exponent`, with no trailing zero in `digits`. -/
structure Decimal where
  digits : Nat
  exponent : Int

/-- A positive double's interval of reals that round to it, over a common
denominator of quarter units. -/
structure Interval where
  low : Nat
  middle : Nat
  high : Nat
  closed : Bool

/-- The interval of a positive finite double, in quarters of the least unit. A double
that begins a range of exponents has the nearer neighbour below it. -/
def interval (d : Double) : Interval :=
  let m := d.significand
  let unit := Nat.pow 2 d.scale
  let below := if m == hiddenBit && 1 < d.exponentField then 1 else 2
  { low := (4 * m - below) * unit
    middle := 4 * m * unit
    high := (4 * m + 2) * unit
    closed := m % 2 == 0 }

/-- `num / den` lies in the interval, where the interval counts units of `1 / scale`. -/
def Interval.holds (i : Interval) (scale num den : Nat) : Bool :=
  if i.closed then i.low * den ≤ num * scale && num * scale ≤ i.high * den
  else i.low * den < num * scale && num * scale < i.high * den

/-- Quarters of the least unit in one. -/
def quartersPerOne : Nat := 4 * unitsPerOne

/-- The number of decimal digits of a natural number; none for zero. -/
def digitCount (n : Nat) : Nat := if n = 0 then 0 else (Nat.toDigits 10 n).length

/-- The least `p` for which the ratio is below `10 ^ p`. -/
def decimalHeight (num den : Nat) : Int :=
  if den ≤ num then digitCount (num / den)
  else
    let k := digitCount (den / num)
    if den ≤ num * Nat.pow 10 (k - 1) then 2 - (k : Int) else 1 - (k : Int)

/-- Numerator and denominator of `10 ^ e`. -/
def powerOfTen : Int → Nat × Nat
  | .ofNat e => (Nat.pow 10 e, 1)
  | .negSucc e => (1, Nat.pow 10 (e + 1))

/-- The multiple of `10 ^ exponent` in the interval that is nearest to its middle. -/
def candidate? (i : Interval) (exponent : Int) : Option Nat :=
  let (num, den) := powerOfTen exponent
  let total := i.middle * den
  let step := quartersPerOne * num
  let lower := total / step
  let fits (k : Nat) : Bool := i.holds quartersPerOne (k * num) den
  let rest := total % step
  match fits lower && 0 < lower, fits (lower + 1) with
  | true, true =>
    let isLowerCloser := 2 * rest < step || (2 * rest == step && lower % 2 == 0)
    some (if isLowerCloser then lower else lower + 1)
  | true, false => some lower
  | false, true => some (lower + 1)
  | false, false => none

/-- The first of the exponents `height - 1, height - 2, …` with a candidate. -/
def searchDigits (i : Interval) : Nat → Int → Decimal
  | 0, exponent => ⟨(candidate? i exponent).getD 0, exponent⟩
  | count + 1, exponent =>
    match candidate? i exponent with
    | some digits => ⟨digits, exponent⟩
    | none => searchDigits i count (exponent - 1)

/-- Trailing zeros of the digits move into the exponent; `fuel` bounds their number. -/
def Decimal.strip : Nat → Decimal → Decimal
  | 0, d => d
  | fuel + 1, d =>
    if d.digits % 10 = 0 && d.digits != 0 then strip fuel ⟨d.digits / 10, d.exponent + 1⟩ else d

/-- The shortest decimal of a positive finite double. -/
def shortest (d : Double) : Decimal :=
  let i := d.interval
  let height := decimalHeight i.middle quartersPerOne
  Decimal.strip 20 (searchDigits i 17 (height - 1))

/-! ### Layout -/

/-- How the digits of a double are laid out. A decimal whose leading digit has a weight
`10 ^ e` with `least ≤ e ≤ greatest` is written with a point only, and every other one
with an exponent, whose sign is written when it is negative or when `plus` says so. -/
structure Layout where
  least : Int
  greatest : Int
  plus : Bool

/-- The digits with a point, at least one digit on each side of it. -/
def positional (d : Decimal) : String :=
  let digits := toString d.digits
  match d.exponent with
  | .ofNat e => digits ++ String.ofList (List.replicate e '0') ++ ".0"
  | .negSucc e =>
    let places := e + 1
    let cs := digits.toList
    if places < cs.length then
      let whole := cs.length - places
      String.ofList (cs.take whole) ++ "." ++ String.ofList (cs.drop whole)
    else "0." ++ String.ofList (List.replicate (places - cs.length) '0') ++ digits

/-- One digit before the point and an exponent behind `e`. -/
def scientific (plus : Bool) (d : Decimal) : String :=
  match (toString d.digits).toList with
  | [] => ""
  | lead :: more =>
    let weight : Int := d.exponent + more.length
    let fraction := if more.isEmpty then "" else "." ++ String.ofList more
    let sign := if 0 ≤ weight && plus then "+" else ""
    String.singleton lead ++ fraction ++ "e" ++ sign ++ toString weight

/-- The text of a finite double in a layout. -/
def text (layout : Layout) (d : Double) : String :=
  let sign := if d.isNegative then "-" else ""
  if d.isZero then sign ++ "0.0"
  else
    let decimal := d.shortest
    let weight : Int := decimal.exponent + digitCount decimal.digits - 1
    if layout.least ≤ weight && weight ≤ layout.greatest then sign ++ positional decimal
    else sign ++ scientific layout.plus decimal

/-- The text of a finite double without an exponent, whatever its size. -/
def plainText (d : Double) : String := text ⟨-400, 400, false⟩ d

end Scaffold.Double
