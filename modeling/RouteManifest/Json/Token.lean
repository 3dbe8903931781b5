import RouteManifest.Json.Numeral
import RouteManifest.Number.Hex

/-!
The tokens of a JSON text. Blanks between tokens carry no meaning. A string may
name half of a surrogate pair by an escape: the text is then well formed, but the
string has no content.
-/

namespace RouteManifest.Json

open RouteManifest.Number

inductive Token
  | beginArray
  | endArray
  | beginObject
  | endObject
  | comma
  | colon
  | null
  | bool (flag : Bool)
  | number (numeral : Numeral)
  /-- The content, unless an escape names half of a surrogate pair. -/
  | string (content : Option String)
deriving DecidableEq, Repr

def isSpace (character : Char) : Bool := character ∈ [' ', '\n', '\t', '\r']

/-- One character of a string, or one 16-bit unit written as an escape. -/
inductive Piece
  | character (value : Char)
  | unit (value : Nat)
deriving DecidableEq, Repr

def simpleEscape? : Char → Option Char
  | '"' => some '"'
  | '\\' => some '\\'
  | '/' => some '/'
  | 'b' => some '\x08'
  | 'f' => some '\x0c'
  | 'n' => some '\n'
  | 'r' => some '\r'
  | 't' => some '\t'
  | _ => none

def readPieces : List Char → Option (List Piece × List Char)
  | [] => none
  | '"' :: rest => some ([], rest)
  | '\\' :: 'u' :: first :: second :: third :: fourth :: rest => do
      let unit ← hexUnit? first second third fourth
      let (pieces, suffix) ← readPieces rest
      return (.unit unit :: pieces, suffix)
  | '\\' :: escaped :: rest => do
      let character ← simpleEscape? escaped
      let (pieces, suffix) ← readPieces rest
      return (.character character :: pieces, suffix)
  | character :: rest =>
      if character.toNat < 0x20 || character = '\\' then none
      else (readPieces rest).map fun (pieces, suffix) => (.character character :: pieces, suffix)

def isHighSurrogate (unit : Nat) : Bool := 0xD800 ≤ unit && unit < 0xDC00
def isLowSurrogate (unit : Nat) : Bool := 0xDC00 ≤ unit && unit < 0xE000

/-- Joins surrogate pairs; fails on half a pair. -/
def joinPieces : List Piece → Option (List Char)
  | [] => some []
  | .character value :: rest => (joinPieces rest).map (value :: ·)
  | .unit value :: rest =>
      if isHighSurrogate value then
        match rest with
        | .unit low :: rest =>
            if isLowSurrogate low then
              let code := 0x10000 + (value - 0xD800) * 0x400 + (low - 0xDC00)
              (joinPieces rest).map (Char.ofNat code :: ·)
            else none
        | _ => none
      else if isLowSurrogate value then none
      else (joinPieces rest).map (Char.ofNat value :: ·)

def readFraction : List Char → Option (List Char × List Char)
  | '.' :: rest =>
      let digits := rest.takeWhile isDigit
      if digits.isEmpty then none else some (digits, rest.dropWhile isDigit)
  | rest => some ([], rest)

/-- Whether a minus sign comes first, and the text behind an optional sign. -/
def readSign : List Char → Bool × List Char
  | '-' :: rest => (true, rest)
  | '+' :: rest => (false, rest)
  | rest => (false, rest)

def readExponentPart : List Char → Option (Option (Bool × List Char) × List Char)
  | [] => some (none, [])
  | marker :: rest =>
      if marker = 'e' || marker = 'E' then
        let (negative, rest) := readSign rest
        let digits := rest.takeWhile isDigit
        if digits.isEmpty then none
        else some (some (negative, digits), rest.dropWhile isDigit)
      else some (none, marker :: rest)

/-- Reads an unsigned numeral: no zero in front of other digits, and digits on both
sides of a point. -/
def readUnsigned (negative : Bool) (text : List Char) : Option (Numeral × List Char) := do
  let whole := text.takeWhile isDigit
  if whole.isEmpty || (whole.head? == some '0' && 1 < whole.length) then none
  let (fraction, rest) ← readFraction (text.dropWhile isDigit)
  let (exponent, rest) ← readExponentPart rest
  return (⟨negative, whole, fraction, exponent⟩, rest)

def readNumeral : List Char → Option (Numeral × List Char)
  | '-' :: rest => readUnsigned true rest
  | rest => readUnsigned false rest

/-- The first token of a text that does not start with a blank, and what follows it. -/
def readToken : List Char → Option (Token × List Char)
  | [] => none
  | '[' :: rest => some (.beginArray, rest)
  | ']' :: rest => some (.endArray, rest)
  | '\x7b' :: rest => some (.beginObject, rest)
  | '\x7d' :: rest => some (.endObject, rest)
  | ',' :: rest => some (.comma, rest)
  | ':' :: rest => some (.colon, rest)
  | 'n' :: 'u' :: 'l' :: 'l' :: rest => some (.null, rest)
  | 't' :: 'r' :: 'u' :: 'e' :: rest => some (.bool true, rest)
  | 'f' :: 'a' :: 'l' :: 's' :: 'e' :: rest => some (.bool false, rest)
  | '"' :: rest =>
      (readPieces rest).map fun (pieces, suffix) =>
        (.string ((joinPieces pieces).map String.ofList), suffix)
  | text => (readNumeral text).map fun (numeral, suffix) => (.number numeral, suffix)

theorem read_pieces_shorter {text suffix : List Char} {pieces : List Piece}
    (read : readPieces text = some (pieces, suffix)) : suffix.length < text.length := by
  fun_induction readPieces text generalizing pieces suffix with
  | case1 => simp at read
  | case2 rest => simp at read; simp [read]
  | case3 first second third fourth rest induction =>
      simp only [Option.bind_eq_bind, Option.bind_eq_some_iff, Option.pure_def,
        Option.some.injEq, Prod.mk.injEq] at read
      obtain ⟨_, _, ⟨_, _⟩, inner, _, rfl⟩ := read
      have := induction inner
      simp only [List.length_cons]; omega
  | case4 escaped rest _ induction =>
      simp only [Option.bind_eq_bind, Option.bind_eq_some_iff, Option.pure_def,
        Option.some.injEq, Prod.mk.injEq] at read
      obtain ⟨_, _, ⟨_, _⟩, inner, _, rfl⟩ := read
      have := induction inner
      simp only [List.length_cons]; omega
  | case5 => simp_all
  | case6 character rest _ _ _ _ induction =>
      simp only [Option.map_eq_some_iff, Prod.mk.injEq] at read
      obtain ⟨⟨_, _⟩, inner, _, rfl⟩ := read
      have := induction inner
      simp only [List.length_cons]; omega

theorem drop_while_length {Symbol : Type} (accept : Symbol → Bool) (text : List Symbol) :
    (text.dropWhile accept).length ≤ text.length := (List.dropWhile_sublist accept).length_le

theorem read_fraction_length {text digits suffix : List Char}
    (read : readFraction text = some (digits, suffix)) : suffix.length ≤ text.length := by
  unfold readFraction at read
  split at read
  · rename_i rest
    simp only [Option.ite_none_left_eq_some, Option.some.injEq, Prod.mk.injEq] at read
    have := drop_while_length isDigit rest
    rw [read.2.2] at this
    simp only [List.length_cons]; omega
  · simp_all

theorem read_sign_length (text : List Char) : (readSign text).2.length ≤ text.length := by
  unfold readSign
  split <;> simp

theorem read_exponent_part_length {text suffix : List Char} {exponent : Option (Bool × List Char)}
    (read : readExponentPart text = some (exponent, suffix)) : suffix.length ≤ text.length := by
  unfold readExponentPart at read
  split at read
  · simp_all
  · rename_i marker rest
    split at read
    · simp only [Option.ite_none_left_eq_some, Option.some.injEq, Prod.mk.injEq] at read
      have dropped := drop_while_length isDigit (readSign rest).2
      have sign := read_sign_length rest
      rw [read.2.2] at dropped
      simp only [List.length_cons]; omega
    · simp_all

theorem read_unsigned_shorter {negative : Bool} {text suffix : List Char} {numeral : Numeral}
    (read : readUnsigned negative text = some (numeral, suffix)) :
    suffix.length < text.length := by
  unfold readUnsigned at read
  simp only [Option.pure_def, Option.bind_eq_bind] at read
  split at read
  · simp at read
  · rename_i digits
    simp only [Option.bind_eq_some_iff, Option.some.injEq, Prod.mk.injEq] at read
    obtain ⟨⟨_, _⟩, fraction, ⟨_, _⟩, exponent, _, rfl⟩ := read
    have fractionLength := read_fraction_length fraction
    have exponentLength := read_exponent_part_length exponent
    have nonempty : (text.takeWhile isDigit) ≠ [] := by
      intro none; simp [none] at digits
    have split := congrArg List.length (List.takeWhile_append_dropWhile (p := isDigit) (l := text))
    have := List.length_pos_iff.mpr nonempty
    simp only [List.length_append] at split
    dsimp only at exponentLength fractionLength ⊢
    omega

theorem read_token_shorter {text suffix : List Char} {token : Token}
    (read : readToken text = some (token, suffix)) : suffix.length < text.length := by
  unfold readToken at read
  split at read <;> try (simp_all; done)
  all_goals try (simp only [Option.some.injEq, Prod.mk.injEq] at read; obtain ⟨_, rfl⟩ := read;
                 simp only [List.length_cons]; omega)
  · simp only [Option.map_eq_some_iff, Prod.mk.injEq] at read
    obtain ⟨⟨_, _⟩, inner, _, rfl⟩ := read
    have := read_pieces_shorter inner
    simp only [List.length_cons]; omega
  · simp only [Option.map_eq_some_iff, Prod.mk.injEq] at read
    obtain ⟨⟨_, _⟩, inner, _, rfl⟩ := read
    unfold readNumeral at inner
    split at inner
    · have := read_unsigned_shorter inner
      simp only [List.length_cons]; omega
    · exact read_unsigned_shorter inner

def tokens (text : List Char) : Option (List Token) :=
  match text with
  | [] => some []
  | character :: rest =>
      if isSpace character then tokens rest
      else
        match _step : readToken (character :: rest) with
        | none => none
        | some (token, suffix) => (tokens suffix).map (token :: ·)
termination_by text.length
decreasing_by
  · simp
  · exact read_token_shorter _step

end RouteManifest.Json
