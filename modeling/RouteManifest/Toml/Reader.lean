import RouteManifest.Toml.Number

/-!
Reading the lines of a TOML text. The result is the list of its sections in order:
the path of each header, whether it names an element of an array of tables, and
the entries below it. A dotted key opens tables inside a section, and extends only
tables that were opened by dotted keys.
-/

namespace RouteManifest.Toml

/-- A header and the entries below it. The entries before the first header have an empty path. -/
structure Section where
  path : List String
  element : Bool
  entries : List (String × Toml)
deriving Repr, Inhabited

def skipSpace : List Token → List Token
  | .space _ :: rest => rest
  | rest => rest

def skipLines (rest : List Token) : List Token :=
  rest.dropWhile fun
    | .space _ | .newline | .comment => true
    | _ => false

def readLineEnd (rest : List Token) : Option (List Token) :=
  let rest := match skipSpace rest with
    | .comment :: rest => rest
    | rest => rest
  match rest with
  | [] => some []
  | .newline :: rest => some rest
  | _ => none

def readKeyPart : List Token → Option (String × List Token)
  | .word text :: rest => some (String.ofList text, rest)
  | .string content false :: rest => some (String.ofList content, rest)
  | _ => none

/-- The parts of a key between periods; the countdown bounds their number. -/
def readKeyParts : Nat → List Token → Option (List String × List Token)
  | 0, _ => none
  | steps + 1, rest => do
      let (part, rest) ← readKeyPart (skipSpace rest)
      match skipSpace rest with
      | .period :: rest =>
          let (parts, rest) ← readKeyParts steps rest
          return (part :: parts, rest)
      | rest => return ([part], rest)

def addEntry (value : Toml) : List String → List (String × Toml) → Option (List (String × Toml))
  | [], _ => none
  | [key], entries => some (entries ++ [(key, value)])
  | key :: rest, entries =>
      match entries.span fun entry => entry.1 != key with
      | (before, (_, .table true inner) :: after) =>
          (addEntry value rest inner).map fun inner => before ++ (key, .table true inner) :: after
      | (_, _ :: _) => none
      | (before, []) =>
          (addEntry value rest []).map fun inner => before ++ [(key, .table true inner)]

mutual
def readValue : Nat → List Token → Option (Toml × List Token)
  | 0, _ => none
  | steps + 1, rest =>
      match rest with
      | .string content _ :: rest => some (.string (String.ofList content), rest)
      | .word ['t', 'r', 'u', 'e'] :: rest => some (.boolean true, rest)
      | .word ['f', 'a', 'l', 's', 'e'] :: rest => some (.boolean false, rest)
      | .word word :: rest => readNumberOrDate word rest
      | .plus :: .word word :: rest => readNumber word rest
      | .leftBracket :: rest =>
          (readItems steps rest).map fun (items, rest) => (.array items, rest)
      | .leftBrace :: rest =>
          match skipSpace rest with
          | .rightBrace :: rest => some (.table false [], rest)
          | rest => (readInline steps [] rest).map fun (entries, rest) => (.table false entries, rest)
      | _ => none
/-- The items of an array and its closing bracket; a comma may follow the last item. -/
def readItems : Nat → List Token → Option (List Toml × List Token)
  | 0, _ => none
  | steps + 1, rest =>
      match skipLines rest with
      | .rightBracket :: rest => some ([], rest)
      | rest => do
          let (item, rest) ← readValue steps rest
          match skipLines rest with
          | .comma :: rest =>
              let (items, rest) ← readItems steps rest
              return (item :: items, rest)
          | .rightBracket :: rest => return ([item], rest)
          | _ => none
/-- The entries of an inline table and its closing brace, all on one line. -/
def readInline : Nat → List (String × Toml) → List Token → Option (List (String × Toml) × List Token)
  | 0, _, _ => none
  | steps + 1, entries, rest => do
      let (key, rest) ← readKeyParts steps rest
      let .equals :: rest := rest | none
      let (value, rest) ← readValue steps (skipSpace rest)
      let entries ← addEntry value key entries
      match skipSpace rest with
      | .rightBrace :: rest => return (entries, rest)
      | .comma :: rest => readInline steps entries rest
      | _ => none
end

def readHeader (steps : Nat) (rest : List Token) : Option (Section × List Token) := do
  let (element, rest) := match rest with
    | .leftBracket :: rest => (true, rest)
    | rest => (false, rest)
  let (path, rest) ← readKeyParts steps rest
  let .rightBracket :: rest := rest | none
  let rest ← match element, rest with
    | true, .rightBracket :: rest => some rest
    | true, _ => none
    | false, rest => some rest
  return (⟨path, element, []⟩, ← readLineEnd rest)

/-- Reads the lines below the current section, which is the last of the result. -/
def readSections : Nat → Section → List Token → Option (List Section)
  | 0, _, _ => none
  | steps + 1, current, rest =>
      match skipLines rest with
      | [] => some [current]
      | .leftBracket :: rest => do
          let (next, rest) ← readHeader steps rest
          return current :: (← readSections steps next rest)
      | rest => do
          let (key, rest) ← readKeyParts steps rest
          let .equals :: rest := rest | none
          let (value, rest) ← readValue steps (skipSpace rest)
          let entries ← addEntry value key current.entries
          readSections steps { current with entries } (← readLineEnd rest)

def sections (text : List Char) : Option (List Section) := do
  let tokens ← tokens text
  readSections (tokens.length + 1) ⟨[], false, []⟩ tokens

end RouteManifest.Toml
