/-!
The words of a command line by their shape: long options with two dashes, short ones
with one dash and a letter, the two dashes alone after which no word is an option, and
plain words. A dash alone is a plain word.
-/

namespace RouteManifest.Command

inductive Word
  | plain (text : String)
  | long (name : String) (value : Option String)
  | short (letter : Char) (attached : List Char)
  | dashes
deriving DecidableEq, Repr

namespace Word

/-- A long option may carry its value behind an equals sign. -/
def ofLong (letters : List Char) : Word :=
  let name := String.ofList (letters.takeWhile (· ≠ '='))
  match letters.dropWhile (· ≠ '=') with
  | [] => long name none
  | _ :: value => long name (some (String.ofList value))

def ofText (text : String) : Word :=
  match text.toList with
  | ['-', '-'] => dashes
  | '-' :: '-' :: letters => ofLong letters
  | '-' :: letter :: attached => short letter attached
  | _ => plain text

end Word

/-- An option that takes a value. -/
inductive Choice
  | root
  | config
  | format
deriving DecidableEq, Repr

namespace Choice

def name : Choice → String
  | root => "root"
  | config => "config"
  | format => "format"

def letter : Choice → Char
  | root => 'r'
  | config => 'c'
  | format => 'f'

end Choice

/-- What the next word of a command line says, with the word behind it if that is the
value of an option. -/
inductive Item
  | plain (text : String)
  | attached (choice : Choice) (value : String)
  | apart (choice : Choice) (value : String)
  | dashes
  | help
  | unknown
deriving DecidableEq, Repr

namespace Item

def takeApart (choice : Choice) : List String → Item × List String
  | [] => (unknown, [])
  | word :: rest =>
      match Word.ofText word with
      | .plain value => (apart choice value, rest)
      | _ => (unknown, rest)

/-- The letters behind a short option are its value; an equals sign before them is dropped. -/
def take (known : List Choice) (word : String) (rest : List String) : Item × List String :=
  match Word.ofText word with
  | .plain text => (plain text, rest)
  | .dashes => (dashes, rest)
  | .long name value =>
      match known.find? (·.name == name), value with
      | some choice, some value => (attached choice value, rest)
      | some choice, none => takeApart choice rest
      | none, none => (if name = "help" then help else unknown, rest)
      | none, some _ => (unknown, rest)
  | .short letter letters =>
      match known.find? (·.letter == letter), letters with
      | some choice, [] => takeApart choice rest
      | some choice, '=' :: value => (attached choice (String.ofList value), rest)
      | some choice, value => (attached choice (String.ofList value), rest)
      | none, _ => (if letter = 'h' then help else unknown, rest)

theorem length_take_apart_le (choice : Choice) (rest : List String) :
    (takeApart choice rest).2.length ≤ rest.length := by
  unfold takeApart
  split
  · simp
  · split <;> simp

theorem length_take_le (known : List Choice) (word : String) (rest : List String) :
    (take known word rest).2.length ≤ rest.length := by
  unfold take
  split
  · simp
  · simp
  · split <;> first | exact length_take_apart_le _ _ | simp
  · split <;> first | exact length_take_apart_le _ _ | simp

end Item

example : Word.ofText "--format=table" = .long "format" (some "table") := by decide
example : Word.ofText "-" = .plain "-" ∧ Word.ofText "--" = .dashes := by decide
example : Item.take [.format] "-f=x" ["y"] = (.attached .format "x", ["y"]) := by decide
example : Item.take [.format] "-f" ["x", "y"] = (.apart .format "x", ["y"]) := by decide

end RouteManifest.Command
