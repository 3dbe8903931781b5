import RouteManifest.Number.Binary64

/-!
Reading number literals. An integer literal is an optional sign and decimal
digits within the 64-bit range; the first fault from the left is reported. A
decimal literal adds a point, an exponent and the names of infinity and
not-a-number in any case, and is rounded once from its exact value.
-/

namespace RouteManifest.Number

def isDigit (character : Char) : Bool := '0' ≤ character && character ≤ '9'

def digitValue (character : Char) : Nat := character.toNat - '0'.toNat

def digitsValue (digits : List Char) : Nat :=
  digits.foldl (fun value digit => 10 * value + digitValue digit) 0

inductive IntegerFault
  | empty
  | invalidDigit
  | tooLarge
  | tooSmall
deriving DecidableEq, Repr

def IntegerFault.message : IntegerFault → String
  | empty => "cannot parse integer from empty string"
  | invalidDigit => "invalid digit found in string"
  | tooLarge => "number too large to fit in target type"
  | tooSmall => "number too small to fit in target type"

/-- Extends a value digit by digit while it stays within the limit. -/
def readDigits (limit : Nat) (excess : IntegerFault) (value : Nat) :
    List Char → Except IntegerFault Nat
  | [] => .ok value
  | character :: rest =>
      if isDigit character then
        let extended := 10 * value + digitValue character
        if extended ≤ limit then readDigits limit excess extended rest else .error excess
      else .error .invalidDigit

def largestInteger : Nat := 0x7FFFFFFFFFFFFFFF
def smallestMagnitude : Nat := 0x8000000000000000

def readInteger : List Char → Except IntegerFault Int64
  | [] => .error .empty
  | ['+'] | ['-'] => .error .invalidDigit
  | '-' :: digits =>
      (readDigits smallestMagnitude .tooSmall 0 digits).map fun value => Int64.ofInt (-value)
  | '+' :: digits => (readDigits largestInteger .tooLarge 0 digits).map fun value => Int64.ofInt value
  | digits => (readDigits largestInteger .tooLarge 0 digits).map fun value => Int64.ofInt value

def writeInteger (value : Int) : List Char :=
  if value < 0 then '-' :: Nat.toDigits 10 value.natAbs else Nat.toDigits 10 value.natAbs

inductive DecimalFault
  | empty
  | invalid
deriving DecidableEq, Repr

def DecimalFault.message : DecimalFault → String
  | empty => "cannot parse float from empty string"
  | invalid => "invalid float literal"

/-- Digits before and after the point, and the power of ten they count. -/
structure Numeral where
  whole : List Char
  fraction : List Char
  exponent : Int
deriving DecidableEq, Repr

/-- The number nearest to a numeral. Numerals far outside the range are decided by
their leading digit, so no large power is computed for them. -/
def Numeral.round (negative : Bool) (numeral : Numeral) : Binary64 :=
  let value := digitsValue (numeral.whole ++ numeral.fraction)
  let place := numeral.exponent - numeral.fraction.length
  let leading := place + (Nat.toDigits 10 value).length
  if value = 0 || leading < -400 then Binary64.zero negative
  else if 400 < leading then Binary64.infinity negative
  else Binary64.ofRatio negative (Ratio.scale 10 place ⟨value, 1⟩)

def readExponent : List Char → Option Int
  | [] => some 0
  | marker :: rest =>
      if marker = 'e' || marker = 'E' then
        let (negative, digits) :=
          match rest with
          | '-' :: digits => (true, digits)
          | '+' :: digits => (false, digits)
          | digits => (false, digits)
        if digits.isEmpty || !digits.all isDigit then none
        else some (if negative then -(digitsValue digits : Int) else digitsValue digits)
      else none

def readNumeral (text : List Char) : Option Numeral :=
  let whole := text.takeWhile isDigit
  let (fraction, rest) :=
    match text.dropWhile isDigit with
    | '.' :: rest => (rest.takeWhile isDigit, rest.dropWhile isDigit)
    | rest => ([], rest)
  if whole.isEmpty && fraction.isEmpty then none
  else (readExponent rest).map fun exponent => ⟨whole, fraction, exponent⟩

def readMagnitude (negative : Bool) (text : List Char) : Except DecimalFault Binary64 :=
  let folded := text.map Char.toLower
  if folded = ['n', 'a', 'n'] then .ok Binary64.notANumber
  else if folded = ['i', 'n', 'f'] || folded = ['i', 'n', 'f', 'i', 'n', 'i', 't', 'y'] then
    .ok (Binary64.infinity negative)
  else
    match readNumeral text with
    | some numeral => .ok (numeral.round negative)
    | none => .error .invalid

def readDecimal : List Char → Except DecimalFault Binary64
  | [] => .error .empty
  | '-' :: text => readMagnitude true text
  | '+' :: text => readMagnitude false text
  | text => readMagnitude false text

example : readInteger ['-', '9'] = .ok (-9) := by rfl
example : readInteger ['+'] = .error .invalidDigit := by rfl
example : readDecimal ['.'] = .error .invalid := by rfl

end RouteManifest.Number
