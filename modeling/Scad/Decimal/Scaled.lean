import Scad.Decimal.Binary

/-!
# Scaled Numbers

A decimal number as a natural number of 64 bits times a power of ten.  The natural number takes as
many of the leading digits as fit; of the others only the place counts.

The product is computed on doubles, each step rounded by itself, so that the result can be a few
units of the last place away from the double nearest to the number written.
-/

namespace Scad.Decimal

/-! ## §1 Digits that fit -/

/-- The first natural number that does not fit 64 bits. -/
def wordLimit : Nat := Nat.pow 2 64

/-- Appends digits to a number, up to the first one with which it would not fit 64 bits any more.
The second result is the digits from that one on. -/
def appendDigits : Nat → List Char → Nat × List Char
  | n, [] => (n, [])
  | n, c :: rest =>
    let longer := 10 * n + (c.toNat - '0'.toNat)
    if longer < wordLimit then appendDigits longer rest else (n, c :: rest)

/-! ## §2 Scaled numbers -/

/-- The number `significand * 10 ^ exponent`. -/
structure Scaled where
  significand : Nat
  exponent : Int
  deriving DecidableEq, Repr, Inhabited

namespace Scaled

/-- The number with the given digits before and after the point, times `10 ^ exponent`.  A digit
after the point that still fits is appended even where digits before the point are left out: it
takes the place of the first of these. -/
def ofDigits (whole fraction : List Char) (exponent : Int) : Scaled :=
  let (front, skipped) := appendDigits 0 whole
  let (significand, dropped) := appendDigits front fraction
  -- A digit skipped before the point moves the point; one dropped after it does not.
  let places : Nat := fraction.length - dropped.length
  { significand, exponent := exponent + skipped.length - places }

/-- The exponent of the largest power of ten that is a finite double. -/
def largestPower : Nat := 308

/-- A double divided by `10 ^ n`, in steps where that power is too large for a double. -/
def divide (x : Float) (n : Nat) : Float :=
  if n ≤ largestPower then x / ofNat (Nat.pow 10 n)
  else if x == 0 then x
  else divide (x / ofNat (Nat.pow 10 largestPower)) (n - largestPower)
termination_by n
decreasing_by simp only [largestPower] at *; omega

/-- The number as a double, unless it is too large for one. -/
def toFloat? (s : Scaled) : Option Float :=
  let x := ofNat s.significand
  if s.exponent < 0 then some (divide x s.exponent.natAbs)
  else if s.exponent ≤ largestPower then
    some (x * ofNat (Nat.pow 10 s.exponent.toNat)) |>.filter Float.isFinite
  -- Zero stays zero, whatever its exponent.
  else if s.significand = 0 then some x
  else none

end Scaled

end Scad.Decimal
