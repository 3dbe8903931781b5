import RouteManifest.Number.Binary64

/-!
The shortest decimal text of a 64-bit number. Of all decimals that read back as
the number, those with the fewest digits are taken, and of these the nearest.
Grids of one, two, up to seventeen digits are tried in turn, and on each only the
two neighbours of the number can be nearest. What a format decides by itself,
such as where the exponent notation begins, is a field of its layout record.
-/

namespace RouteManifest.Number

inductive Tie
  | even
  | up
deriving DecidableEq, Repr

/-- A decimal number: its digits as a natural number, times a power of ten. -/
structure Decimal where
  digits : Nat
  exponent : Int
deriving DecidableEq, Repr

namespace Decimal

def ratio (decimal : Decimal) : Ratio := Ratio.scale 10 decimal.exponent ⟨decimal.digits, 1⟩

def strip : Nat → Decimal → Decimal
  | 0, decimal => decimal
  | steps + 1, decimal =>
      if decimal.digits ≠ 0 && decimal.digits % 10 = 0 then
        strip steps ⟨decimal.digits / 10, decimal.exponent + 1⟩
      else decimal

end Decimal

/-- The reals that read back as one number: those between its two neighbours' midpoints,
the ends included when its significand is even. -/
structure Interval where
  lower : Ratio
  upper : Ratio
  closed : Bool

namespace Interval

def of (number : Binary64) : Interval where
  lower :=
    let quarters :=
      if number.fraction = 0 && 1 < number.field then 4 * number.significand - 1
      else 4 * number.significand - 2
    Ratio.scale 2 (number.exponent - 2) ⟨quarters, 1⟩
  upper := Ratio.scale 2 (number.exponent - 2) ⟨4 * number.significand + 2, 1⟩
  closed := number.significand % 2 = 0

def contains (interval : Interval) (ratio : Ratio) : Bool :=
  if interval.closed then interval.lower.le ratio && ratio.le interval.upper
  else interval.lower.lt ratio && ratio.lt interval.upper

end Interval

def decimalWidth (value : Nat) : Nat := (Nat.toDigits 10 value).length

def floorLog10 (ratio : Ratio) : Int :=
  if ratio.denominator ≤ ratio.numerator then
    (decimalWidth (ratio.numerator / ratio.denominator) : Int) - 1
  else -(decimalWidth ((ratio.denominator - 1) / ratio.numerator) : Int)

/-- The best decimal on the grid of multiples of a power of ten, if one reads back. -/
def nearestOnGrid? (tie : Tie) (value : Ratio) (interval : Interval) (place : Int) :
    Option Decimal :=
  let scaled := value.scale 10 (-place)
  let quotient := scaled.numerator / scaled.denominator
  let remainder := scaled.numerator % scaled.denominator
  let below : Decimal := ⟨quotient, place⟩
  let above : Decimal := ⟨quotient + 1, place⟩
  let belowFits := 0 < quotient && interval.contains below.ratio
  let aboveFits := interval.contains above.ratio
  if belowFits && aboveFits then
    if 2 * remainder < scaled.denominator then some below
    else if scaled.denominator < 2 * remainder then some above
    else
      match tie with
      | .even => some (if quotient % 2 = 0 then below else above)
      | .up => some above
  else if belowFits then some below
  else if aboveFits then some above
  else none

/-- The shortest decimal of a positive finite number. Seventeen digits always suffice. -/
def shortest (tie : Tie) (number : Binary64) : Decimal :=
  let value := number.magnitude
  let interval := Interval.of number
  let leading := floorLog10 value
  let found := (List.range 17).findSome? fun (more : Nat) =>
    nearestOnGrid? tie value interval (leading - more)
  (found.getD ⟨0, 0⟩).strip 20

structure Layout where
  tie : Tie
  /-- The decimal exponents written without an exponent part. -/
  positional : Int → Bool
  /-- Whole numbers keep one zero after the point. -/
  pointZero : Bool
  notANumber : List Char
  infinity : List Char
  negativeInfinity : List Char

/-- Digits with the point placed so that the last digit counts the given power of ten. -/
def writePositional (pointZero : Bool) (digits : List Char) (exponent : Int) : List Char :=
  if 0 ≤ exponent then
    digits ++ List.replicate exponent.toNat '0' ++ if pointZero then ['.', '0'] else []
  else
    let places := (-exponent).toNat
    if places < digits.length then
      digits.take (digits.length - places) ++ '.' :: digits.drop (digits.length - places)
    else '0' :: '.' :: List.replicate (places - digits.length) '0' ++ digits

/-- One digit before the point, and an exponent with its sign. -/
def writeScientific (digits : List Char) (exponent : Int) : List Char :=
  let fraction := digits.drop 1
  let point := if fraction.isEmpty then [] else '.' :: fraction
  let sign := if exponent < 0 then '-' else '+'
  digits.take 1 ++ point ++ 'e' :: sign :: Nat.toDigits 10 exponent.natAbs

def Layout.writeMagnitude (layout : Layout) (number : Binary64) : List Char :=
  if number.isZero then writePositional layout.pointZero ['0'] 0
  else
    let decimal := shortest layout.tie number
    let digits := Nat.toDigits 10 decimal.digits
    let leading := decimal.exponent + digits.length - 1
    if layout.positional leading then writePositional layout.pointZero digits decimal.exponent
    else writeScientific digits leading

def Layout.write (layout : Layout) (number : Binary64) : List Char :=
  if number.isNaN then layout.notANumber
  else if number.isInfinite then
    if number.negative then layout.negativeInfinity else layout.infinity
  else if number.negative then '-' :: layout.writeMagnitude number
  else layout.writeMagnitude number

end RouteManifest.Number
