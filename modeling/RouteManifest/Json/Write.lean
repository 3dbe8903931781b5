import RouteManifest.Json.Basic
import RouteManifest.Number.Hex

/-!
The two JSON texts of a value: compact on one line, and pretty with one item or
member on each line, two spaces deeper than its container. Neither text of a
string contains a raw control character. Numbers that are not finite are written
as null.
-/

namespace RouteManifest.Json

open RouteManifest.Number

/-- Plain notation for decimal exponents from -5 to 15, always with a point. -/
def numberLayout : Layout where
  tie := .even
  positional := fun exponent => -5 ≤ exponent && exponent ≤ 15
  pointZero := true
  notANumber := ['n', 'u', 'l', 'l']
  infinity := ['n', 'u', 'l', 'l']
  negativeInfinity := ['n', 'u', 'l', 'l']

def writeNumber : JsonNumber → List Char
  | .whole value => writeInteger value
  | .real value => numberLayout.write value

def escape (character : Char) : List Char :=
  match character with
  | '"' => ['\\', '"']
  | '\\' => ['\\', '\\']
  | '\n' => ['\\', 'n']
  | '\r' => ['\\', 'r']
  | '\t' => ['\\', 't']
  | '\x08' => ['\\', 'b']
  | '\x0c' => ['\\', 'f']
  | _ =>
      if character.toNat < 0x20 then
        ['\\', 'u', '0', '0', hexDigit (character.toNat / 16), hexDigit (character.toNat % 16)]
      else [character]

def writeString (text : List Char) : List Char := '"' :: text.flatMap escape ++ ['"']

def joinWith (separator : List Char) : List (List Char) → List Char
  | [] => []
  | [part] => part
  | part :: next :: rest => part ++ separator ++ joinWith separator (next :: rest)

mutual
def write : Json → List Char
  | null => ['n', 'u', 'l', 'l']
  | bool true => ['t', 'r', 'u', 'e']
  | bool false => ['f', 'a', 'l', 's', 'e']
  | number value => writeNumber value
  | string text => writeString text.toList
  | array items => '[' :: joinWith [','] (writeItems items) ++ [']']
  | object members => '\x7b' :: joinWith [','] (writeMembers members) ++ ['\x7d']
def writeItems : List Json → List (List Char)
  | [] => []
  | item :: rest => item.write :: writeItems rest
def writeMembers : List (String × Json) → List (List Char)
  | [] => []
  | (key, value) :: rest => (writeString key.toList ++ ':' :: value.write) :: writeMembers rest
end

def indent (depth : Nat) : List Char := List.replicate (2 * depth) ' '

/-- A container whose parts stand on lines of their own. -/
def writeBlock (opening closing : Char) (depth : Nat) (parts : List (List Char)) : List Char :=
  if parts.isEmpty then [opening, closing]
  else
    opening :: '\n' :: joinWith [',', '\n'] (parts.map (indent (depth + 1) ++ ·)) ++
      '\n' :: indent depth ++ [closing]

mutual
def writePretty (depth : Nat) : Json → List Char
  | null => ['n', 'u', 'l', 'l']
  | bool true => ['t', 'r', 'u', 'e']
  | bool false => ['f', 'a', 'l', 's', 'e']
  | number value => writeNumber value
  | string text => writeString text.toList
  | array items => writeBlock '[' ']' depth (prettyItems (depth + 1) items)
  | object members => writeBlock '\x7b' '\x7d' depth (prettyMembers (depth + 1) members)
def prettyItems (depth : Nat) : List Json → List (List Char)
  | [] => []
  | item :: rest => item.writePretty depth :: prettyItems depth rest
def prettyMembers (depth : Nat) : List (String × Json) → List (List Char)
  | [] => []
  | (key, value) :: rest =>
      (writeString key.toList ++ ':' :: ' ' :: value.writePretty depth) :: prettyMembers depth rest
end

def compact (value : Json) : String := String.ofList value.write

def pretty (value : Json) : String := String.ofList (value.writePretty 0)

end RouteManifest.Json
