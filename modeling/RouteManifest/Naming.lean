import RouteManifest.Endpoint.Basic
import RouteManifest.Text.Blank

/-!
The naming convention. A script file is named by its route, its verb and the
extension, separated by dots, and no part of that name holds another dot. The
convention is applied to the whole path below the root, so a dot in a folder name
breaks it too.
-/

namespace RouteManifest

open RouteManifest.Text

def normalizePath (path : String) : String :=
  String.ofList (path.toList.map fun character => if character = '\\' then '/' else character)

structure RoutedName where
  route : String
  verb : Verb
deriving DecidableEq, Repr

/-- The route and verb of a path below the root, if it follows the convention. -/
def RoutedName.ofPath? (path extension : String) : Option RoutedName :=
  match path.toList.splitOn '.' with
  | [route, verb, last] =>
      if last ≠ extension.toList || route.isEmpty then none
      else (Verb.ofText? (String.ofList verb)).map fun verb => ⟨String.ofList route, verb⟩
  | _ => none

def isLegalCharacter (character : Char) : Bool :=
  character.isAlphanum || character = '-' || character = '_' || character = '/'

/-- Folder paths that may be used as parts of a route: ASCII letters and digits,
hyphens, underscores and slashes, and at least one of them. -/
def isLegalRoute (path : String) : Bool := !path.isEmpty && path.toList.all isLegalCharacter

def isSlash (character : Char) : Bool := character == '/'

/-- The path of an endpoint: its route below the namespace, if there is one. -/
def endpointPath (space route : String) : String :=
  if space.isEmpty then route
  else String.ofList (dropEndWhile isSlash space.toList ++ '/' :: route.toList)

end RouteManifest
