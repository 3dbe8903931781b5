import RouteManifest.Number.Shortest
import RouteManifest.Number.Literal

/-!
The scalar a script node can carry, with its text and its views as a string and
as a flag. Decimals are written out in full, without an exponent part and
without a point for whole numbers.
-/

namespace RouteManifest.Script

open RouteManifest.Number

inductive Value
  | bool (flag : Bool)
  | int (number : Int64)
  | decimal (number : Binary64)
  | string (text : String)
deriving DecidableEq, Repr, Inhabited

namespace Value

def decimalLayout : Layout where
  tie := .up
  positional := fun _ => true
  pointZero := false
  notANumber := ['N', 'a', 'N']
  infinity := ['i', 'n', 'f']
  negativeInfinity := ['-', 'i', 'n', 'f']

def write : Value → List Char
  | bool true => ['t', 'r', 'u', 'e']
  | bool false => ['f', 'a', 'l', 's', 'e']
  | int number => writeInteger number.toInt
  | decimal number => decimalLayout.write number
  | string text => text.toList

def toText (value : Value) : String := String.ofList value.write

def string? : Value → Option String
  | string text => some text
  | _ => none

/-- A flag, or one of the words true and false in any ASCII case. -/
def flag? : Value → Option Bool
  | bool flag => some flag
  | string text =>
      let folded := text.toList.map Char.toLower
      if folded = ['t', 'r', 'u', 'e'] then some true
      else if folded = ['f', 'a', 'l', 's', 'e'] then some false
      else none
  | _ => none

def isDecimal : Value → Bool
  | decimal _ => true
  | _ => false

/-- Equality that compares decimals as numbers, so that not-a-number differs from itself. -/
def agrees : Value → Value → Bool
  | decimal left, decimal right => left.agrees right
  | left, right => left == right

end Value

end RouteManifest.Script
