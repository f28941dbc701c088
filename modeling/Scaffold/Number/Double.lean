/-!
# Doubles

A double is a 64-bit IEEE 754 number, kept as its bits. Arithmetic is exact on
natural numbers and rounds once, to the nearest double and on a tie to the one
with an even significand, so every operation is total and can be evaluated in a
proof.
-/

namespace Scaffold

/-- A 64-bit IEEE 754 number, given by its bits. -/
structure Double where
  bits : UInt64
deriving DecidableEq, Inhabited

namespace Double

/-- `2⁵²`, the weight of the hidden bit of a significand. -/
def hiddenBit : Nat := 4503599627370496

/-- The biased exponent that marks infinities and what is not a number. -/
def topExponent : Nat := 2047

/-- `2⁶³`, the weight of the sign bit. -/
def signBit : Nat := 9223372036854775808

/-- The sign bit is set. -/
def isNegative (d : Double) : Bool := signBit ≤ d.bits.toNat

/-- The bits without the sign. -/
def magnitude (d : Double) : Nat := d.bits.toNat % signBit

/-- The eleven bits of the biased exponent. -/
def exponentField (d : Double) : Nat := d.magnitude / hiddenBit

/-- Neither an infinity nor NaN. -/
def isFinite (d : Double) : Bool := d.exponentField < topExponent

/-- The bits of an infinity, but for the sign. -/
def infinityBits : Nat := topExponent * hiddenBit

/-- Not a number. -/
def isNaN (d : Double) : Bool := infinityBits < d.magnitude

/-- One of the two infinities. -/
def isInfinite (d : Double) : Bool := d.magnitude == infinityBits

/-- One of the two zeros. -/
def isZero (d : Double) : Bool := d.magnitude == 0

/-- The double with this sign and these bits below the sign. -/
def ofMagnitude (negative : Bool) (magnitude : Nat) : Double :=
  ⟨UInt64.ofNat ((if negative then signBit else 0) + magnitude)⟩

def infinity : Double := ofMagnitude false infinityBits
def nan : Double := ofMagnitude false (infinityBits + hiddenBit / 2)

/-- The double with the opposite sign. -/
def neg (d : Double) : Double := ofMagnitude (!d.isNegative) d.magnitude

/-- The significand of a finite double: its absolute value is
`significand · 2 ^ (scale - 1074)`. -/
def significand (d : Double) : Nat :=
  if d.exponentField = 0 then d.magnitude else d.magnitude % hiddenBit + hiddenBit

/-- How far the exponent lies above the least one. -/
def scale (d : Double) : Nat := d.exponentField - 1

/-- The absolute value of a finite double in units of the least positive double,
`2⁻¹⁰⁷⁴`. -/
def units (d : Double) : Nat := d.significand * Nat.pow 2 d.scale

/-- `2¹⁰⁷⁴`, the number of least positive doubles in one. -/
def unitsPerOne : Nat := Nat.pow 2 1074

/-! ### Rounding -/

/-- The quotient rounded to the nearest integer, a tie to the even one. -/
def roundDiv (num den : Nat) : Nat :=
  let q := num / den
  let r := num % den
  if den < 2 * r || (2 * r == den && q % 2 == 1) then q + 1 else q

/-- The magnitude of the double nearest to `num / den` least units, where `den` is
positive. Quotients below `2⁵³` are rounded to a whole number of least units, and above
that to a multiple of the power of two that leaves 53 bits. -/
def magnitudeOfUnits (num den : Nat) : Nat :=
  let shift := (num / den).log2 - 52
  let magnitude := shift * hiddenBit + roundDiv num (den * Nat.pow 2 shift)
  if infinityBits < magnitude then infinityBits else magnitude

/-- The double nearest to `num / den`, where `den` is positive. -/
def ofRatio (negative : Bool) (num den : Nat) : Double :=
  ofMagnitude negative (magnitudeOfUnits (num * unitsPerOne) den)

/-- The double nearest to an integer. -/
def ofInt (i : Int) : Double := ofRatio (i < 0) i.natAbs 1

/-- The double nearest to `digits · 10 ^ exponent`. -/
def ofDecimal (negative : Bool) (digits : Nat) (exponent : Int) : Double :=
  if digits = 0 then ofMagnitude negative 0
  else if 400 < exponent then ofMagnitude negative infinityBits
  else match exponent with
    | .ofNat e => ofRatio negative (digits * Nat.pow 10 e) 1
    | .negSucc e => ofRatio negative digits (Nat.pow 10 (e + 1))

/-! ### Arithmetic -/

/-- The value of a finite double in least units, with its sign. -/
def signedUnits (d : Double) : Int := if d.isNegative then -d.units else d.units

/-- The double nearest to a whole number of least units; a zero is positive. -/
def ofUnits (i : Int) : Double := ofMagnitude (i < 0) (magnitudeOfUnits i.natAbs 1)

/-- The sum. Two zeros of one sign keep it. -/
def add (a b : Double) : Double :=
  if a.isNaN || b.isNaN then nan
  else if a.isInfinite then if b.isInfinite && a.isNegative != b.isNegative then nan else a
  else if b.isInfinite then b
  else if a.isZero && b.isZero && a.isNegative && b.isNegative then a
  else ofUnits (a.signedUnits + b.signedUnits)

/-- The difference. -/
def sub (a b : Double) : Double := a.add b.neg

/-- The product. -/
def mul (a b : Double) : Double :=
  let negative := a.isNegative != b.isNegative
  if a.isNaN || b.isNaN then nan
  else if a.isInfinite || b.isInfinite then
    if a.isZero || b.isZero then nan else ofMagnitude negative infinityBits
  else ofMagnitude negative (magnitudeOfUnits (a.units * b.units) unitsPerOne)

/-- The quotient. A division by zero is an infinity, or NaN for a zero dividend. -/
def div (a b : Double) : Double :=
  let negative := a.isNegative != b.isNegative
  if a.isNaN || b.isNaN then nan
  else if a.isInfinite then if b.isInfinite then nan else ofMagnitude negative infinityBits
  else if b.isInfinite then ofMagnitude negative 0
  else if b.isZero then if a.isZero then nan else ofMagnitude negative infinityBits
  else ofRatio negative a.units b.units

/-- The remainder of the division that truncates; it has the sign of the dividend. -/
def rem (a b : Double) : Double :=
  if a.isNaN || b.isNaN || a.isInfinite || b.isZero then nan
  else if b.isInfinite then a
  else ofMagnitude a.isNegative (magnitudeOfUnits (a.units % b.units) 1)

/-- The greatest whole number that is not above the double. -/
def floor (d : Double) : Double :=
  if !d.isFinite then d
  else
    let whole := d.units / unitsPerOne
    let whole := if d.isNegative && d.units % unitsPerOne != 0 then whole + 1 else whole
    ofRatio d.isNegative whole 1

/-! ### Order -/

/-- A key that orders the doubles that are numbers; the two zeros share it. -/
def orderKey (d : Double) : Int := if d.isNegative then -d.magnitude else d.magnitude

/-- Equality of numbers: the zeros are equal, and NaN is equal to nothing. -/
def same (a b : Double) : Bool := !a.isNaN && !b.isNaN && a.orderKey == b.orderKey

/-- Order of numbers. NaN is below nothing. -/
def below (a b : Double) : Bool := !a.isNaN && !b.isNaN && a.orderKey < b.orderKey

end Double
end Scaffold
