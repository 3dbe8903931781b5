import RouteManifest.Script.Value
import RouteManifest.Text.Blank
import RouteManifest.Text.Quoted

/-!
One line of a script without its indentation: a name, and possibly a colon and a
value. A value may be a quoted literal, may start with the name of its type and a
colon, and is otherwise taken as it stands. Reading and writing are beside each
other; every way in which a line can be refused is a constructor of its fault.
-/

namespace RouteManifest.Script

open RouteManifest.Number RouteManifest.Text

structure Label where
  name : String
  value : Option Value
deriving DecidableEq, Repr, Inhabited

inductive LineFault
  | tabIndentation
  | unevenIndentation (spaces : Nat)
  | skippedLevel
  | textAfterName (rest : String)
  | textAfterQuoted (rest : String)
  | unterminatedLiteral
  | invalidFlag (text : String)
  | invalidInteger (typeName tail : String) (fault : IntegerFault)
  | invalidDecimal (typeName tail : String) (fault : DecimalFault)
deriving DecidableEq, Repr

/-- Spaces of indentation for every level below the top. -/
def levelWidth : Nat := 3

def LineFault.message : LineFault → String
  | tabIndentation => "tab indentation is not allowed"
  | unevenIndentation spaces =>
      s!"indentation of {spaces} spaces is not a multiple of {levelWidth}"
  | skippedLevel => "indentation skips a level"
  | textAfterName rest => s!"unexpected text after name: {rest}"
  | textAfterQuoted rest => s!"unexpected text after quoted string: {rest}"
  | unterminatedLiteral => "unterminated string literal"
  | invalidFlag text => s!"invalid bool value: {text}"
  | invalidInteger typeName tail fault => s!"invalid {typeName} value '{tail}': {fault.message}"
  | invalidDecimal typeName tail fault => s!"invalid {typeName} value '{tail}': {fault.message}"

/-- A quoted literal with nothing but blanks behind it. -/
def readLiteral (text : List Char) : Except LineFault String :=
  match Quoted.decode text with
  | none => .error .unterminatedLiteral
  | some (content, rest) =>
      if isBlankText rest then .ok (String.ofList content)
      else .error (.textAfterQuoted (String.ofList rest))

def startsQuoted (text : List Char) : Bool := text.head? == some '"'

def readFlag (text : List Char) : Except LineFault Value :=
  if text = ['t', 'r', 'u', 'e'] then .ok (.bool true)
  else if text = ['f', 'a', 'l', 's', 'e'] then .ok (.bool false)
  else .error (.invalidFlag (String.ofList text))

/-- The value of a text behind the name of a type; nothing when there is no such type. -/
def readTyped? (typeName : String) (tail : List Char) : Option (Except LineFault Value) :=
  if typeName = "string" then
    some (if startsQuoted tail then (readLiteral tail).map Value.string
      else .ok (.string (String.ofList tail)))
  else if typeName = "bool" then some (readFlag (trim tail))
  else if typeName = "int" || typeName = "long" then
    some (match readInteger (trim tail) with
      | .ok number => .ok (.int number)
      | .error fault => .error (.invalidInteger typeName (String.ofList tail) fault))
  else if typeName = "decimal" || typeName = "double" || typeName = "float" then
    some (match readDecimal (trim tail) with
      | .ok number => .ok (.decimal number)
      | .error fault => .error (.invalidDecimal typeName (String.ofList tail) fault))
  else none

def isColon (character : Char) : Bool := character == ':'

/-- What stands before and after the first colon, if there is one. -/
def splitColon? (text : List Char) : Option (List Char × List Char) :=
  match text.dropWhile (!isColon ·) with
  | [] => none
  | _ :: tail => some (text.takeWhile (!isColon ·), tail)

def readValue (text : List Char) : Except LineFault Value :=
  if startsQuoted text then (readLiteral text).map Value.string
  else
    let plain := .ok (.string (String.ofList text))
    match splitColon? text with
    | none => plain
    | some (typeName, tail) => (readTyped? (String.ofList typeName) tail).getD plain

def readName (text : List Char) : Except LineFault (List Char × List Char) :=
  if startsQuoted text then
    match Quoted.decode text with
    | none => .error .unterminatedLiteral
    | some split => .ok split
  else
    match splitColon? text with
    | none => .ok (trimRight text, [])
    | some (name, tail) => .ok (name, ':' :: tail)

def Label.read (text : List Char) : Except LineFault Label := do
  let (name, rest) ← readName text
  match trimRight rest with
  | [] => .ok ⟨String.ofList name, none⟩
  | ':' :: valueText =>
      let value ← readValue valueText
      .ok ⟨String.ofList name, some value⟩
  | rest => .error (.textAfterName (String.ofList rest))

/-- The characters that make a text need quotes. -/
def isSpecial (character : Char) : Bool := character ∈ [':', '"', '\n', '\r', '\\']

def needsQuotes (text : List Char) : Bool := text.any isSpecial

def startsComment : List Char → Bool
  | '/' :: '/' :: _ => true
  | _ => false

def writeString (text : List Char) : List Char :=
  if needsQuotes text then Quoted.encode text else text

def writeName (name : List Char) : List Char :=
  if name.isEmpty || needsQuotes name || startsComment name then Quoted.encode name else name

def typeName? : Value → Option (List Char)
  | .bool _ => some ['b', 'o', 'o', 'l']
  | .int _ => some ['l', 'o', 'n', 'g']
  | .decimal _ => some ['d', 'e', 'c', 'i', 'm', 'a', 'l']
  | .string _ => none

def writeValue (value : Value) : List Char :=
  match typeName? value with
  | some typeName => typeName ++ ':' :: value.write
  | none => writeString value.write

def Label.write (label : Label) : List Char :=
  writeName label.name.toList ++
    match label.value with
    | none => []
    | some value => ':' :: writeValue value

end RouteManifest.Script
