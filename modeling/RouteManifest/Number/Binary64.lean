/-!
The 64-bit binary floating point format as its bit patterns. All arithmetic is
exact arithmetic on natural numbers followed by one rounding to the nearest
pattern, an exact half going to the even one. Every not-a-number pattern is
represented by the quiet one.
-/

namespace RouteManifest.Number

structure Binary64 where
  bits : UInt64
deriving DecidableEq, Repr, Inhabited

/-- A nonnegative rational number. Its denominator is positive wherever one is built here. -/
structure Ratio where
  numerator : Nat
  denominator : Nat
deriving DecidableEq, Repr

namespace Ratio

def mul (left right : Ratio) : Ratio :=
  ⟨left.numerator * right.numerator, left.denominator * right.denominator⟩

def div (left right : Ratio) : Ratio :=
  ⟨left.numerator * right.denominator, left.denominator * right.numerator⟩

def le (left right : Ratio) : Bool :=
  left.numerator * right.denominator ≤ right.numerator * left.denominator

def lt (left right : Ratio) : Bool := !right.le left

/-- The ratio times the given power of the base; a negative power divides. -/
def scale (base : Nat) (exponent : Int) (ratio : Ratio) : Ratio :=
  if 0 ≤ exponent then ⟨ratio.numerator * base.pow exponent.toNat, ratio.denominator⟩
  else ⟨ratio.numerator, ratio.denominator * base.pow (-exponent).toNat⟩

/-- The nearest natural number, a half going to the even neighbour. -/
def roundHalfEven (ratio : Ratio) : Nat :=
  let quotient := ratio.numerator / ratio.denominator
  let twice := 2 * (ratio.numerator % ratio.denominator)
  if twice < ratio.denominator then quotient
  else if ratio.denominator < twice then quotient + 1
  else if quotient % 2 = 0 then quotient else quotient + 1

def floorLog2 (ratio : Ratio) : Int :=
  let estimate : Int := (ratio.numerator.log2 : Int) - ratio.denominator.log2
  if (Ratio.mk 1 1 |>.scale 2 estimate).le ratio then estimate else estimate - 1

end Ratio

namespace Binary64

def fractionWidth : Nat := 52

def fieldWeight : Nat := 0x10000000000000

def signWeight : Nat := 0x8000000000000000

def specialField : Nat := 2047

def negative (number : Binary64) : Bool := signWeight ≤ number.bits.toNat

def field (number : Binary64) : Nat := number.bits.toNat / fieldWeight % (specialField + 1)

def fraction (number : Binary64) : Nat := number.bits.toNat % fieldWeight

def isNaN (number : Binary64) : Bool := number.field = specialField && number.fraction ≠ 0

def isInfinite (number : Binary64) : Bool := number.field = specialField && number.fraction = 0

def isFinite (number : Binary64) : Bool := number.field ≠ specialField

def isZero (number : Binary64) : Bool := number.field = 0 && number.fraction = 0

/-- The significand and the power of two it counts, for a finite number. -/
def significand (number : Binary64) : Nat :=
  if number.field = 0 then number.fraction else number.fraction + fieldWeight

def exponent (number : Binary64) : Int := (max number.field 1 : Nat) - 1075

def magnitude (number : Binary64) : Ratio :=
  Ratio.scale 2 number.exponent ⟨number.significand, 1⟩

def ofFields (negative : Bool) (pattern : Nat) : Binary64 :=
  ⟨UInt64.ofNat (pattern + if negative then signWeight else 0)⟩

def zero (negative : Bool) : Binary64 := ofFields negative 0
def infinity (negative : Bool) : Binary64 := ofFields negative (specialField * fieldWeight)
def notANumber : Binary64 := ofFields false (specialField * fieldWeight + fieldWeight / 2)

/-- The number nearest to a ratio with the given sign. The significand is counted
in units of the last place, so that a carry out of it raises the exponent field
by itself; a pattern beyond the largest finite one is infinity. -/
def ofRatio (negative : Bool) (ratio : Ratio) : Binary64 :=
  if ratio.numerator = 0 then zero negative
  else
    let place : Int := max (ratio.floorLog2 - fractionWidth) (-1074)
    let units := (ratio.scale 2 (-place)).roundHalfEven
    let pattern := (place + 1074).toNat * fieldWeight + units
    if specialField * fieldWeight ≤ pattern then infinity negative
    else ofFields negative pattern

def ofNat (value : Nat) : Binary64 := ofRatio false ⟨value, 1⟩

def negate (number : Binary64) : Binary64 :=
  ofFields (!number.negative) (number.bits.toNat % signWeight)

/-- Product and quotient of nonnegative finite numbers. -/
def mul (left right : Binary64) : Binary64 := ofRatio false (left.magnitude.mul right.magnitude)

def div (left right : Binary64) : Binary64 := ofRatio false (left.magnitude.div right.magnitude)

/-- Numerical equality: the two zeros agree and not-a-number agrees with nothing. -/
def agrees (left right : Binary64) : Bool :=
  !left.isNaN && !right.isNaN && (left == right || (left.isZero && right.isZero))

example : ofNat 1 = ⟨0x3FF0000000000000⟩ := by decide
example : ofRatio false ⟨1, 10⟩ = ⟨0x3FB999999999999A⟩ := by decide
example : ofRatio true ⟨5, 10 ^ 324⟩ = ⟨0x8000000000000001⟩ := by decide +kernel
example : ofRatio false ⟨179769313486231580793 * 10 ^ 289, 1⟩ = infinity false := by decide +kernel
example : (zero true).agrees (zero false) ∧ ¬ notANumber.agrees notANumber := by decide

end Binary64

end RouteManifest.Number
