import RouteManifest.Json.Basic

/-!
The numerals of JSON and their numbers. A numeral without fraction and exponent
that fits 64 bits is whole. Any other is taken as a significand of at most 64
bits, dropping the digits that no longer fit, and one power of ten; the product
or quotient of their roundings is the number. A numeral beyond the largest finite
number has no value.
-/

namespace RouteManifest.Json

open RouteManifest.Number

/-- The parts of a numeral; an absent fraction is empty. The exponent has a sign and digits. -/
structure Numeral where
  negative : Bool
  whole : List Char
  fraction : List Char
  exponent : Option (Bool × List Char)
deriving DecidableEq, Repr

def significandLimit : Nat := 0xFFFFFFFFFFFFFFFF
def exponentLimit : Nat := 0x7FFFFFFF

/-- Extends a significand digit by digit while it fits; the digits left over come second. -/
def absorb (value : Nat) : List Char → Nat × List Char
  | [] => (value, [])
  | digit :: rest =>
      let extended := 10 * value + digitValue digit
      if extended ≤ significandLimit then absorb extended rest else (value, digit :: rest)

def tenTo (power : Nat) : Binary64 := Binary64.ofNat (Nat.pow 10 power)

/-- A significand times a power of ten; powers below the smallest step are taken in two steps. -/
def scaled? (significand : Nat) (exponent : Int) : Option Binary64 :=
  let number := Binary64.ofNat significand
  if number.isZero then some number
  else if 308 < exponent then none
  else if 0 ≤ exponent then
    let product := number.mul (tenTo exponent.toNat)
    if product.isInfinite then none else some product
  else if -308 ≤ exponent then some (number.div (tenTo (-exponent).toNat))
  else if -616 ≤ exponent then
    some ((number.div (tenTo 308)).div (tenTo (-exponent - 308).toNat))
  else some (Binary64.zero false)

def signed (negative : Bool) (number : Binary64) : JsonNumber :=
  .real (if negative then number.negate else number)

/-- The whole number of a significand, or its rounding when it has no 64-bit form. -/
def wholeNumber (negative : Bool) (significand : Nat) : JsonNumber :=
  if !negative then .whole significand
  else if significand = 0 || 0x8000000000000000 < significand then signed true (Binary64.ofNat significand)
  else .whole (-significand)

def Numeral.value? (numeral : Numeral) : Option JsonNumber :=
  let (whole, dropped) := absorb 0 numeral.whole
  let (significand, ignored) := absorb whole numeral.fraction
  let place : Int := dropped.length - (numeral.fraction.length - ignored.length : Nat)
  match numeral.exponent with
  | none =>
      if numeral.fraction.isEmpty && dropped.isEmpty then
        some (wholeNumber numeral.negative whole)
      else (scaled? significand place).map (signed numeral.negative)
  | some (negativeExponent, digits) =>
      let power := digitsValue digits
      if exponentLimit < power then
        if significand ≠ 0 && !negativeExponent then none
        else some (signed numeral.negative (Binary64.zero false))
      else
        let exponent := place + if negativeExponent then -(power : Int) else power
        (scaled? significand exponent).map (signed numeral.negative)

end RouteManifest.Json
