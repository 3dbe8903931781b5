import RouteManifest.Number.Hex

/-!
The tokens of a TOML text. A return directly before a newline belongs to it.
Strings are read with their escapes; a string in three quotes may span lines,
drops a newline directly behind its opening quotes and may end in up to two more
quotes.
-/

namespace RouteManifest.Toml

open RouteManifest.Number

inductive Token
  | newline
  | space (width : List Char)
  | comment
  | equals
  | period
  | comma
  | colon
  | plus
  | leftBrace
  | rightBrace
  | leftBracket
  | rightBracket
  | word (text : List Char)
  | string (content : List Char) (multiline : Bool)
deriving DecidableEq, Repr

def isWordCharacter (character : Char) : Bool :=
  character.isAlphanum || character = '-' || character = '_'

def isSpace (character : Char) : Bool := character = ' ' || character = '\t'

def isCommentCharacter (character : Char) : Bool := character = '\t' || ' ' ≤ character

def isStringCharacter (character : Char) : Bool :=
  isCommentCharacter character && character ≠ '\x7f'

/-- A text in which every line ends in a single newline. -/
def foldReturns : List Char → List Char
  | [] => []
  | '\r' :: '\n' :: rest => '\n' :: foldReturns rest
  | character :: rest => character :: foldReturns rest

/-- The character with a code point, unless it is half of a surrogate pair or too large. -/
def scalar? (code : Nat) : Option Char :=
  if code < 0xD800 || (0xE000 ≤ code && code < 0x110000) then some (Char.ofNat code) else none

def simpleEscape? : Char → Option Char
  | '"' => some '"'
  | '\\' => some '\\'
  | 'b' => some '\x08'
  | 'f' => some '\x0c'
  | 'n' => some '\n'
  | 'r' => some '\r'
  | 't' => some '\t'
  | _ => none

def prepend (character : Char) (read : List Char × List Char) : List Char × List Char :=
  (character :: read.1, read.2)

def readLiteral : List Char → Option (List Char × List Char)
  | [] => none
  | '\'' :: rest => some ([], rest)
  | character :: rest =>
      if isStringCharacter character then (readLiteral rest).map (prepend character) else none

def readMultilineLiteral : List Char → Option (List Char × List Char)
  | [] => none
  | '\'' :: '\'' :: '\'' :: '\'' :: '\'' :: rest => some (['\'', '\''], rest)
  | '\'' :: '\'' :: '\'' :: '\'' :: rest => some (['\''], rest)
  | '\'' :: '\'' :: '\'' :: rest => some ([], rest)
  | character :: rest =>
      if isStringCharacter character || character = '\n' then
        (readMultilineLiteral rest).map (prepend character)
      else none

/-- The character of an escape, behind its backslash, and what follows it. -/
def readEscape? : List Char → Option (Char × List Char)
  | 'u' :: a :: b :: c :: d :: rest => do
      return (← scalar? (← hexUnit? a b c d), rest)
  | 'U' :: a :: b :: c :: d :: e :: f :: g :: h :: rest => do
      let high ← hexUnit? a b c d
      let low ← hexUnit? e f g h
      return (← scalar? (high * 0x10000 + low), rest)
  | escaped :: rest => (simpleEscape? escaped).map fun character => (character, rest)
  | [] => none

/-- Inside a basic string: reading on, or skipping the blanks behind a backslash that
ends a line, before and after the first newline. -/
inductive BasicMode
  | content
  | seekNewline
  | skipBlanks
deriving DecidableEq, Repr

/-- Reads a basic string. The countdown bounds the escapes and characters to read. -/
def readBasic (multiline : Bool) : Nat → BasicMode → List Char → Option (List Char × List Char)
  | 0, _, _ => none
  | _, _, [] => none
  | steps + 1, .seekNewline, character :: rest =>
      if isSpace character then readBasic multiline steps .seekNewline rest
      else if character = '\n' then readBasic multiline steps .skipBlanks rest
      else none
  | steps + 1, mode, character :: rest =>
      if mode = .skipBlanks && (isSpace character || character = '\n') then
        readBasic multiline steps .skipBlanks rest
      else
        match character, rest with
        | '"', rest =>
            if multiline then
              match rest with
              | '"' :: '"' :: '"' :: '"' :: rest => some (['"', '"'], rest)
              | '"' :: '"' :: '"' :: rest => some (['"'], rest)
              | '"' :: '"' :: rest => some ([], rest)
              | rest => (readBasic multiline steps .content rest).map (prepend '"')
            else some ([], rest)
        | '\\', next :: after =>
            if multiline && isSpace next then readBasic multiline steps .seekNewline after
            else if multiline && next = '\n' then readBasic multiline steps .skipBlanks after
            else do
              let (escaped, rest) ← readEscape? (next :: after)
              (readBasic multiline steps .content rest).map (prepend escaped)
        | '\\', [] => none
        | '\n', rest =>
            if multiline then (readBasic multiline steps .content rest).map (prepend '\n') else none
        | character, rest =>
            if isStringCharacter character then
              (readBasic multiline steps .content rest).map (prepend character)
            else none

def dropNewline : List Char → List Char
  | '\n' :: rest => rest
  | text => text

def stringToken (multiline : Bool) (read : Option (List Char × List Char)) :
    Option (Token × List Char) :=
  read.map fun (content, rest) => (.string content multiline, rest)

def readToken : List Char → Option (Token × List Char)
  | [] => none
  | '\n' :: rest => some (.newline, rest)
  | '#' :: rest => some (.comment, rest.dropWhile isCommentCharacter)
  | '=' :: rest => some (.equals, rest)
  | '.' :: rest => some (.period, rest)
  | ',' :: rest => some (.comma, rest)
  | ':' :: rest => some (.colon, rest)
  | '+' :: rest => some (.plus, rest)
  | '\x7b' :: rest => some (.leftBrace, rest)
  | '\x7d' :: rest => some (.rightBrace, rest)
  | '[' :: rest => some (.leftBracket, rest)
  | ']' :: rest => some (.rightBracket, rest)
  | '\'' :: '\'' :: '\'' :: rest => stringToken true (readMultilineLiteral (dropNewline rest))
  | '\'' :: rest => stringToken false (readLiteral rest)
  | '"' :: '"' :: '"' :: rest =>
      stringToken true (readBasic true (rest.length + 1) .content (dropNewline rest))
  | '"' :: rest => stringToken false (readBasic false (rest.length + 1) .content rest)
  | character :: rest =>
      if isSpace character then
        some (.space (character :: rest.takeWhile isSpace), rest.dropWhile isSpace)
      else if isWordCharacter character then
        some (.word (character :: rest.takeWhile isWordCharacter), rest.dropWhile isWordCharacter)
      else none

def readTokens : Nat → List Char → Option (List Token)
  | 0, _ => none
  | _, [] => some []
  | steps + 1, text => do
      let (token, rest) ← readToken text
      return token :: (← readTokens steps rest)

def dropByteOrderMark : List Char → List Char
  | '\uFEFF' :: rest => rest
  | text => text

/-- All tokens of a text; each takes at least one character. -/
def tokens (text : List Char) : Option (List Token) :=
  let folded := dropByteOrderMark (foldReturns text)
  readTokens (folded.length + 1) folded

end RouteManifest.Toml
