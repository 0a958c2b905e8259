/-!
# Doubles as Integers

A finite double is an integer times a power of two.  This module takes a double apart into those
two integers, and builds the double nearest to a quotient of natural numbers, all in exact
arithmetic on `Nat`.
-/

namespace Scad.Decimal

/-! ## §1 Taking a double apart -/

/-- What the bits of a double say, its sign apart. -/
inductive Magnitude where
  /-- The number `mantissa * 2 ^ exponent`. -/
  | finite (mantissa : Nat) (exponent : Int)
  | infinite
  | notANumber
  deriving DecidableEq, Repr

/-- Whether the sign bit is set. -/
def isNegative (x : Float) : Bool :=
  Nat.pow 2 63 ≤ x.toBits.toNat

/-- The magnitude that the lower 63 bits describe.  A biased exponent of zero marks the numbers
without the implicit leading one. -/
def magnitude (x : Float) : Magnitude :=
  -- Sign, eleven bits of exponent, fifty-two bits of fraction.
  let bits : Nat := x.toBits.toNat % Nat.pow 2 63
  let biased : Nat := bits / Nat.pow 2 52
  let fraction : Nat := bits % Nat.pow 2 52
  if biased = 2047 then
    if fraction = 0 then .infinite else .notANumber
  else if biased = 0 then .finite fraction (-1074)
  else .finite (Nat.pow 2 52 + fraction) ((biased : Int) - 1075)

/-! ## §2 The nearest double -/

/-- `numerator / denominator` divided by `2 ^ exponent`, as a quotient of natural numbers. -/
def scaleByPowerOfTwo (numerator denominator : Nat) (exponent : Int) : Nat × Nat :=
  (numerator * Nat.pow 2 (-exponent).toNat, denominator * Nat.pow 2 exponent.toNat)

/-- The natural number nearest to a quotient; a half goes to the even neighbour. -/
def roundHalfEven (numerator denominator : Nat) : Nat :=
  let quotient := numerator / denominator
  let twice := 2 * (numerator % denominator)
  if denominator < twice || (denominator == twice && quotient % 2 == 1) then quotient + 1
  else quotient

/-- The exponent of the last binary place of the double nearest to a quotient: the mantissa has 53
binary digits, unless that would go below the smallest exponent. -/
def lastPlace (numerator denominator : Nat) : Int :=
  -- The quotient of two numbers has as many binary digits as they differ by, or one more.
  let guess : Int := (numerator.log2 : Int) - denominator.log2 - 53
  let scaled := scaleByPowerOfTwo numerator denominator guess
  max (if scaled.1 / scaled.2 < Nat.pow 2 53 then guess else guess + 1) (-1074)

/-- The bits of the double nearest to `numerator / denominator`.  A mantissa that rounds up to
`2 ^ 53` carries into the exponent by itself, and what is too large becomes infinity. -/
def nearestBits (numerator denominator : Nat) : Nat :=
  if numerator = 0 then 0
  else
    -- The quotient is counted in units of the last place, and rounded to a whole number of them.
    let place := lastPlace numerator denominator
    let scaled := scaleByPowerOfTwo numerator denominator place
    min ((place + 1074).toNat * Nat.pow 2 52 + roundHalfEven scaled.1 scaled.2)
      (2047 * Nat.pow 2 52)

/-- The double nearest to `numerator / denominator`. -/
def nearest (numerator denominator : Nat) : Float :=
  Float.ofBits (UInt64.ofNat (nearestBits numerator denominator))

/-- The double nearest to a natural number. -/
def ofNat (n : Nat) : Float :=
  nearest n 1

end Scad.Decimal
