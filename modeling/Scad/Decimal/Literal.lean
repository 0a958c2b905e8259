import Scad.Decimal.Binary

/-!
# Decimal Literals

The grammar of an unsigned decimal number, and the double it stands for:

    number   ::= digits* [ "." digits* ] [ exponent ]      with a digit before the exponent
    exponent ::= ( "e" | "E" ) [ "+" | "-" ] digits+

The value is the double nearest to the number written, however many digits it has.
-/

namespace Scad.Decimal

/-- A decimal number as written: `digits * 10 ^ exponent`. -/
structure Literal where
  digits : Nat
  exponent : Int
  deriving DecidableEq, Repr, Inhabited

/-! ## §1 Reading -/

/-- The natural number that a list of digits stands for. -/
def digitsToNat (digits : List Char) : Nat :=
  digits.foldl (fun n c => 10 * n + (c.toNat - '0'.toNat)) 0

/-- The exponent that a text denotes: nothing at all stands for zero. -/
def exponent? : List Char → Option Int
  | [] => some 0
  | mark :: rest =>
    if mark = 'e' || mark = 'E' then
      -- The sign of the exponent may be left out.
      let (negative, digits) := match rest with
        | '-' :: digits => (true, digits)
        | '+' :: digits => (false, digits)
        | digits => (false, digits)
      if digits.isEmpty || !digits.all Char.isDigit then none
      else
        let n : Int := digitsToNat digits
        some (if negative then -n else n)
    else none

/-- The number that a text denotes, where the whole text is one unsigned decimal number. -/
def literal? (cs : List Char) : Option Literal :=
  let whole := cs.takeWhile Char.isDigit
  let rest := cs.dropWhile Char.isDigit
  let (fraction, rest) := match rest with
    | '.' :: rest => (rest.takeWhile Char.isDigit, rest.dropWhile Char.isDigit)
    | rest => ([], rest)
  -- A point alone is no number.
  if whole.isEmpty && fraction.isEmpty then none
  else (exponent? rest).map fun e =>
    { digits := digitsToNat (whole ++ fraction), exponent := e - fraction.length }

/-! ## §2 The value -/

namespace Literal

/-- Every double is below `10 ^ 309`. -/
def largestExponent : Int := 310

/-- Every number below `10 ^ -324` is nearer to zero than to the smallest positive double. -/
def smallestExponent : Int := -330

/-- The double nearest to the number.  A number so large, or so small, that only its magnitude
matters is settled without writing it out. -/
def toFloat (l : Literal) : Float :=
  let size := l.exponent + (Nat.toDigits 10 l.digits).length
  if l.digits = 0 || size < smallestExponent then nearest 0 1
  else if largestExponent < size then nearest (Nat.pow 10 largestExponent.toNat) 1
  else nearest (l.digits * Nat.pow 10 l.exponent.toNat) (Nat.pow 10 (-l.exponent).toNat)

end Literal

/-- The finite double that an unsigned decimal number denotes. -/
def read? (cs : List Char) : Option Float :=
  ((literal? cs).map Literal.toFloat).filter Float.isFinite

end Scad.Decimal
