import RouteManifest.Text.Blank

/-!
Paths as texts. A path is cut at its slashes into pieces; empty pieces and pieces
that are a single dot mean nothing, except for a dot at the very front. Joining and
removing a base work on the text, so a path keeps the spelling it was built with.
-/

namespace RouteManifest.Path

open RouteManifest.Text

inductive Component
  | root
  | current
  | parent
  | normal (name : String)
deriving DecidableEq, Repr

def pieces (path : String) : List String := (path.toList.splitOn '/').map String.ofList

def ofPieces (pieces : List String) : String := "/".intercalate pieces

def isAbsolute (path : String) : Bool := path.toList.head? == some '/'

/-- A path below a base; an absolute path replaces the base. -/
def join (base path : String) : String :=
  if isAbsolute path || base.isEmpty then path
  else if base.toList.getLast? == some '/' then base ++ path
  else base ++ "/" ++ path

def joinNames (base : String) (names : List String) : String := names.foldl join base

/-- A piece that names no step of its own. -/
def isIdle (piece : String) : Bool := piece = "" || piece = "."

def stepOf? (piece : String) : Option Component :=
  if isIdle piece then none
  else if piece = ".." then some .parent
  else some (.normal piece)

/-- What a path starts with, apart from its steps. -/
def startOf (path : String) : List Component :=
  if isAbsolute path then [.root]
  else if (pieces path).head? == some "." then [.current]
  else []

def components (path : String) : List Component :=
  startOf path ++ (pieces path).filterMap stepOf?

/-- Drops pieces from the front until so many of them were steps. -/
def dropSteps : Nat → List String → List String
  | 0, pieces => pieces
  | _, [] => []
  | steps + 1, piece :: rest =>
      if (stepOf? piece).isSome then dropSteps steps rest else dropSteps (steps + 1) rest

def dropIdleEnd (pieces : List String) : List String :=
  (pieces.reverse.dropWhile isIdle).reverse

/-- The rest of a path below a base that it starts with, step by step. -/
def stripBase? (base path : String) : Option String :=
  if (components base).isPrefixOf (components path) then
    let steps := ((pieces base).filterMap stepOf?).length
    let rest := dropSteps steps (pieces path)
    let rest := if (components base).isEmpty then rest else rest.dropWhile isIdle
    some (ofPieces (dropIdleEnd rest))
  else none

def trimSlashes (path : String) : String :=
  let isSlash (character : Char) : Bool := character == '/'
  String.ofList (dropEndWhile isSlash (path.toList.dropWhile isSlash))

example : join "/top" "modules" = "/top/modules" := by decide
example : join "/top/" "" = "/top/" ∧ join "/top" "/other" = "/other" := by decide
example : stripBase? "/top" "/top/./a//b/c/" = some "a//b/c" := by decide
example : stripBase? "/top" "/topmost" = none := by decide

end RouteManifest.Path
