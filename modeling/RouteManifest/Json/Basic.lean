import RouteManifest.Number.Shortest
import RouteManifest.Number.Literal

/-!
JSON values. Whole numbers are kept exactly, all others as 64-bit floating point
numbers. Members of an object are kept in the order given; an object that stands
for a map of free keys is built by insertion, which keeps the keys sorted by code
point and lets the last value of a key win.
-/

namespace RouteManifest

open RouteManifest.Number

inductive JsonNumber
  | whole (value : Int)
  | real (value : Binary64)
deriving DecidableEq, Repr, Inhabited

inductive Json
  | null
  | bool (flag : Bool)
  | number (number : JsonNumber)
  | string (text : String)
  | array (items : List Json)
  | object (members : List (String × Json))
deriving Repr, Inhabited

/-- Sets a key in an association list sorted by key. -/
def insertSorted {Item : Type} (key : String) (item : Item) :
    List (String × Item) → List (String × Item)
  | [] => [(key, item)]
  | (head, kept) :: rest =>
      if key < head then (key, item) :: (head, kept) :: rest
      else if key = head then (key, item) :: rest
      else (head, kept) :: insertSorted key item rest

def sortedMembers {Item : Type} (members : List (String × Item)) : List (String × Item) :=
  members.foldl (fun sorted (key, item) => insertSorted key item sorted) []

namespace Json

def ofInt (value : Int) : Json := .number (.whole value)

def ofStrings (texts : List String) : Json := .array (texts.map .string)

def member? : Json → String → Option Json
  | object members, key => members.lookup key
  | _, _ => none

def string? : Json → Option String
  | string text => some text
  | _ => none

end Json

end RouteManifest
