import Scad.Decimal.Binary

/-!
# Shortest Decimal Text

The text of a double is the decimal number with the fewest digits that reads back as that double,
the nearest of them where there are several, written without an exponent.

The doubles are sparse: every real number between the two midpoints around a double reads back as
it.  So the search tries one digit, two digits, and so on, and each time tests the two neighbours
of the double among the decimal numbers with that many digits.  The first count with a neighbour
between the midpoints wins.
-/

namespace Scad.Decimal

/-! ## §1 The numbers that read back -/

/-- A positive number with the midpoints around it, all three over one denominator. -/
structure Rounding where
  /-- The lower midpoint. -/
  low : Nat
  /-- The number. -/
  value : Nat
  /-- The upper midpoint. -/
  high : Nat
  /-- The common denominator. -/
  denominator : Nat
  /-- Whether the midpoints themselves read back as the number. -/
  closed : Bool

/-- The midpoints around `mantissa * 2 ^ exponent`.  The neighbour below a power of two is half as
far away as the one above.  Midpoints go to the even mantissa. -/
def Rounding.of (mantissa : Nat) (exponent : Int) : Rounding :=
  let scale := Nat.pow 2 (exponent - 2).toNat
  { low := (4 * mantissa - (if mantissa = Nat.pow 2 52 then 1 else 2)) * scale
    value := 4 * mantissa * scale
    high := (4 * mantissa + 2) * scale
    denominator := Nat.pow 2 (2 - exponent).toNat
    closed := mantissa % 2 == 0 }

/-! ## §2 The search -/

/-- The number `digits * 10 ^ exponent`. -/
structure Scientific where
  digits : Nat
  exponent : Int
  deriving DecidableEq, Repr, Inhabited

/-- How many decimal digits a natural number has; zero has one. -/
def digitCount (n : Nat) : Nat :=
  (Nat.toDigits 10 n).length

/-- An exponent `k` such that the quotient of two positive numbers lies between `10 ^ (k - 1)` and
`10 ^ k`. -/
def decimalMagnitude (numerator denominator : Nat) : Int :=
  if denominator ≤ numerator then (digitCount (numerator / denominator) : Int)
  else 1 - (digitCount (denominator / numerator) : Int)

/-- The neighbours of the number among the multiples of `10 ^ exponent`, where they read back as
it: the nearer one, and of two that are equally near the greater. -/
def Rounding.onGrid (r : Rounding) (exponent : Int) : Option Scientific :=
  -- Everything is scaled so that the grid consists of multiples of `step`.
  let up := Nat.pow 10 (-exponent).toNat
  let step := r.denominator * Nat.pow 10 exponent.toNat
  let below := r.value * up / step
  -- A candidate on a midpoint reads back only where the midpoint does.
  let reads (bound candidate : Nat) := bound < candidate || (r.closed && bound == candidate)
  let belowReads := reads (r.low * up) (below * step)
  let aboveReads := reads ((below + 1) * step) (r.high * up)
  let nearerAbove := step ≤ 2 * (r.value * up - below * step)
  -- Of two candidates that read back, the nearer one.
  if aboveReads && (!belowReads || nearerAbove) then some ⟨below + 1, exponent⟩
  else if belowReads then some ⟨below, exponent⟩
  else none

/-- The decimal number with the fewest digits that reads back as the number.  Seventeen digits
always suffice. -/
def Rounding.shortest (r : Rounding) : Scientific :=
  let magnitude := decimalMagnitude r.value r.denominator
  ((List.range 17).findSome? fun n : Nat => r.onGrid (magnitude - (n + 1 : Int))).getD
    ⟨r.value / r.denominator, 0⟩

/-! ## §3 The text -/

/-- A list of digits without the zeros at its end. -/
def dropTrailingZeros (digits : List Char) : List Char :=
  (digits.reverse.dropWhile (· == '0')).reverse

/-- A number written out with a point, and without one where it is whole. -/
def Scientific.positional (d : Scientific) : String :=
  if 0 ≤ d.exponent then toString (d.digits * Nat.pow 10 d.exponent.toNat)
  else
    let places := (-d.exponent).toNat
    -- The digits behind the point, with the zeros in front of them.
    let fraction := Nat.toDigits 10 (d.digits % Nat.pow 10 places)
    let fraction := List.replicate (places - fraction.length) '0' ++ fraction
    let whole := toString (d.digits / Nat.pow 10 places)
    match dropTrailingZeros fraction with
    | [] => whole
    | kept => whole ++ "." ++ String.ofList kept

/-- The text of a magnitude. -/
def Magnitude.text : Magnitude → String
  | .notANumber => "NaN"
  | .infinite => "inf"
  | .finite 0 _ => "0"
  | .finite mantissa exponent => (Rounding.of mantissa exponent).shortest.positional

/-- The text of a double: the fewest digits that read back, without an exponent, and `-0` for the
negative zero. -/
def text (x : Float) : String :=
  let magnitude := magnitude x
  if isNegative x && magnitude != .notANumber then "-" ++ magnitude.text else magnitude.text

end Scad.Decimal
