import RouteManifest.Json.Document
import RouteManifest.Script.Value

/-!
Taking values out of JSON documents. What is asked for is checked, what is not
asked for may hold numbers without value and halves of surrogate pairs. A record
may be written as an object, where unknown keys are skipped and a known key stands
at most once, or as an array of its fields in their declared order. A value that
is kept may nest at most a fixed number of containers.
-/

namespace RouteManifest.Json.Document

open RouteManifest.Number RouteManifest.Script

/-- Containers around the innermost value of a document that is kept. -/
def nestingLimit : Nat := 127

def string? : Document → Option String
  | string content => content
  | _ => none

def bool? : Document → Option Bool
  | bool flag => some flag
  | _ => none

/-- Reads a field that may be absent: null stands for an absent one. -/
def optional? {Item : Type} (read : Document → Option Item) : Option Document → Option (Option Item)
  | none | some null => some none
  | some document => (read document).map some

def listOf? {Item : Type} (read : Document → Option Item) : Document → Option (List Item)
  | array items => items.mapM read
  | _ => none

def keys? (members : List (Option String × Document)) : Option (List String) :=
  members.mapM Prod.fst

/-- The declared fields of a record in their order, each absent or given. -/
def fields? (declared : List String) : Document → Option (List (Option Document))
  | object members => do
      let keys ← keys? members
      if declared.all fun name => keys.count name ≤ 1 then
        some (declared.map fun name => members.lookup (some name))
      else none
  | array items =>
      if items.length ≤ declared.length then
        some (items.map some ++ List.replicate (declared.length - items.length) none)
      else none
  | _ => none

/-- A word from a closed list, alone or as the only key of an object whose value is null. -/
def word? {Item : Type} (ofText? : String → Option Item) : Document → Option Item
  | string (some text) => ofText? text
  | object [(some text, null)] => ofText? text
  | _ => none

/-- An object whose values are all strings, as a map in which the last value of a key wins. -/
def stringMap? : Document → Option (List (String × String))
  | object members => do
      let pairs ← members.mapM fun (key, value) => do
        let key ← key
        let value ← value.string?
        return (key, value)
      return sortedMembers pairs
  | _ => none

def fitsInteger (value : Int) : Bool := 
  -0x8000000000000000 ≤ value && value < 0x8000000000000000

/-- A scalar of a script: whole numbers beyond 64 bits with a sign become decimals. -/
def scalar? : Document → Option Value
  | bool flag => some (.bool flag)
  | string content => content.map Value.string
  | number numeral =>
      numeral.value?.map fun
        | .whole value =>
            if fitsInteger value then .int (Int64.ofInt value)
            else .decimal (Binary64.ofNat value.toNat)
        | .real value => .decimal value
  | _ => none

mutual
/-- The free value of a document whose containers nest at most so deep. -/
def json? (depth : Nat) : Document → Option Json
  | null => some .null
  | bool flag => some (.bool flag)
  | number numeral => numeral.value?.map .number
  | string content => content.map .string
  | array items => if depth = 0 then none else (items? (depth - 1) items).map .array
  | object members =>
      if depth = 0 then none
      else (members? (depth - 1) members).map fun pairs => .object (sortedMembers pairs)
def items? (depth : Nat) : List Document → Option (List Json)
  | [] => some []
  | item :: rest => do
      let value ← item.json? depth
      let values ← items? depth rest
      return value :: values
def members? (depth : Nat) : List (Option String × Document) → Option (List (String × Json))
  | [] => some []
  | (key, item) :: rest => do
      let key ← key
      let value ← item.json? depth
      let values ← members? depth rest
      return (key, value) :: values
end

end RouteManifest.Json.Document
