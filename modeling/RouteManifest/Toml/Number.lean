import RouteManifest.Toml.Basic
import RouteManifest.Toml.Token

/-!
Numbers in TOML. Digits may be grouped by single underscores between them, and a
decimal integer has no zero in front of other digits. A point, and the plus sign
of an exponent, are tokens of their own, so a float takes further tokens.
-/

namespace RouteManifest.Toml

open RouteManifest.Number

def isRadixDigit (radix : Nat) (character : Char) : Bool :=
  (hexValue? character).any (· < radix)

/-- What has been read of a group of digits: nothing, digits after a first one that was
zero or not, or an underscore that needs a digit behind it. -/
structure DigitState where
  first : Bool := true
  zero : Bool := false
  underscore : Bool := false

/-- The longest grouped digits at the start of a text, and what follows them. -/
def spanDigits (radix : Nat) (zeros : Bool) (state : DigitState) :
    List Char → Option (List Char × List Char)
  | [] => if state.first || state.underscore then none else some ([], [])
  | character :: rest =>
      let goOn (next : DigitState) := (spanDigits radix zeros next rest).map (prepend character)
      if character = '0' && state.first then goOn { first := false, zero := true }
      else if isRadixDigit radix character then
        if !state.first && state.zero && !zeros then none
        else goOn { state with first := false, underscore := false }
      else if character = '_' && !state.first && !state.underscore then
        goOn { state with underscore := true }
      else if state.first || state.underscore then none
      else some ([], character :: rest)

def spanSigned (zeros : Bool) : List Char → Option (List Char × List Char)
  | '-' :: rest => (spanDigits 10 zeros {} rest).map (prepend '-')
  | text => spanDigits 10 zeros {} text

def dropUnderscores (text : List Char) : List Char := text.filter (· ≠ '_')

def radixValue (radix : Nat) (digits : List Char) : Nat :=
  digits.foldl (fun value digit => radix * value + (hexValue? digit).getD 0) 0

def checkedInteger (value : Int) : Option Toml :=
  if -0x8000000000000000 ≤ value && value < 0x8000000000000000 then some (.integer value) else none

def readRadix (radix : Nat) (text : List Char) : Option Toml := do
  let (digits, []) ← spanDigits radix true {} text | none
  checkedInteger (radixValue radix (dropUnderscores digits))

def readPlainInteger (text : List Char) : Option Toml := do
  let (digits, []) ← spanSigned false text | none
  match dropUnderscores digits with
  | '-' :: digits => checkedInteger (-(radixValue 10 digits : Int))
  | digits => checkedInteger (radixValue 10 digits)

/-- The exponent behind its marker. A plus sign is a token of its own. -/
def readExponent (suffix : List Char) (rest : List Token) : Option (List Char × List Token) := do
  match suffix with
  | [] =>
      let rest := match rest with
        | .plus :: rest => rest
        | rest => rest
      let .word digits :: rest := rest | none
      let (digits, []) ← spanDigits 10 true {} digits | none
      return (digits, rest)
  | suffix =>
      let (digits, []) ← spanSigned true suffix | none
      return (digits, rest)

/-- A float from its first word and, behind a point, its second. -/
def readFloat (word : List Char) (second : Option (List Char)) (rest : List Token) :
    Option (Toml × List Token) := do
  let (whole, suffix) ← spanSigned false word
  let (fraction, suffix) ←
    match second with
    | none => some ([], suffix)
    | some second => do
        if !suffix.isEmpty then none
        let (digits, suffix) ← spanDigits 10 true {} second
        some ('.' :: digits, suffix)
  let (exponent, rest) ←
    match suffix with
    | [] => some ([], rest)
    | marker :: suffix => do
        if marker ≠ 'e' && marker ≠ 'E' then none
        let (digits, rest) ← readExponent suffix rest
        some ('e' :: digits, rest)
  let number ← (readDecimal (dropUnderscores (whole ++ fraction ++ exponent))).toOption
  if number.isFinite then return (.float number, rest) else none

def readNumber (word : List Char) (rest : List Token) : Option (Toml × List Token) :=
  let whole (value : Option Toml) := value.map fun value => (value, rest)
  match word, rest with
  | '0' :: 'x' :: digits, _ => whole (readRadix 16 digits)
  | '0' :: 'o' :: digits, _ => whole (readRadix 8 digits)
  | '0' :: 'b' :: digits, _ => whole (readRadix 2 digits)
  | _, _ =>
      if word.contains 'e' || word.contains 'E' then readFloat word none rest
      else
        match rest with
        | .period :: .word second :: rest => readFloat word (some second) rest
        | .period :: _ => none
        | _ =>
            if word = ['i', 'n', 'f'] then some (.float (Binary64.infinity false), rest)
            else if word = ['-', 'i', 'n', 'f'] then some (.float (Binary64.infinity true), rest)
            else if word = ['n', 'a', 'n'] || word = ['-', 'n', 'a', 'n'] then
              some (.float Binary64.notANumber, rest)
            else whole (readPlainInteger word)

/-- The time behind the colon that follows the hour: minutes and seconds, then an
optional fraction and an optional offset. -/
def readTime (rest : List Token) : Option (List Token) := do
  let .word _ :: .colon :: .word _ :: rest := rest | none
  let rest ← match rest with
    | .period :: .word _ :: rest => some rest
    | .period :: _ => none
    | rest => some rest
  let rest ← match rest with
    | .plus :: .word _ :: rest => some rest
    | .plus :: _ => none
    | rest => some rest
  match rest with
  | .colon :: .word _ :: rest => some rest
  | .colon :: _ => none
  | rest => some rest

/-- A date or time behind its first word; a single space may stand before the hour. -/
def readDatetime (colonRead : Bool) (rest : List Token) : Option (List Token) :=
  let rest := match rest with
    | .space [' '] :: .word _ :: rest => rest
    | rest => rest
  if colonRead then readTime rest
  else
    match rest with
    | .colon :: rest => readTime rest
    | rest => some rest

def hasInfix (first second : Char) : List Char → Bool
  | left :: right :: rest => (left = first && right = second) || hasInfix first second (right :: rest)
  | _ => false

/-- Words with a T, or with a hyphen that is neither a sign nor part of an exponent, start
a date. -/
def startsDate (word : List Char) : Bool :=
  word.contains 'T' || word.contains 't' ||
    ((word.drop 1).contains '-' && !hasInfix 'e' '-' word && !hasInfix 'E' '-' word)

/-- Whether a word can be a number or a date: other words than the special numbers start with
a minus sign or a digit. -/
def startsNumberOrDate : List Char → Bool
  | ['i', 'n', 'f'] | ['n', 'a', 'n'] => true
  | first :: _ => first = '-' || first.isDigit
  | [] => false

def readNumberOrDate (word : List Char) (rest : List Token) : Option (Toml × List Token) :=
  if !startsNumberOrDate word then none
  else if startsDate word then (readDatetime false rest).map fun rest => (.datetime, rest)
  else
    match rest with
    | .colon :: rest => (readDatetime true rest).map fun rest => (.datetime, rest)
    | rest => readNumber word rest

end RouteManifest.Toml
