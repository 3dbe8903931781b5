import RouteManifest.Json.Token

/-!
JSON documents: texts that are well formed, before anything is asked of their
numbers, surrogates or nesting. The tokens are assembled in one pass with the
containers that are still open, innermost first.
-/

namespace RouteManifest.Json

inductive Document
  | null
  | bool (flag : Bool)
  | number (numeral : Numeral)
  | string (content : Option String)
  | array (items : List Document)
  | object (members : List (Option String × Document))
deriving Repr, Inhabited

/-- A container whose parts are still being read; the parts read so far are reversed. -/
inductive Pending
  | array (items : List Document)
  | object (members : List (Option String × Document)) (key : Option String)

namespace Document

mutual
/-- Reads one value inside the open containers. -/
def assemble (pending : List Pending) : List Token → Option Document
  | .null :: rest => deliver .null pending rest
  | .bool flag :: rest => deliver (.bool flag) pending rest
  | .number numeral :: rest => deliver (.number numeral) pending rest
  | .string content :: rest => deliver (.string content) pending rest
  | .beginArray :: .endArray :: rest => deliver (.array []) pending rest
  | .beginArray :: rest => assemble (.array [] :: pending) rest
  | .beginObject :: .endObject :: rest => deliver (.object []) pending rest
  | .beginObject :: .string key :: .colon :: rest => assemble (.object [] key :: pending) rest
  | _ => none
/-- Puts a finished value into the innermost open container and goes on. -/
def deliver (value : Document) : List Pending → List Token → Option Document
  | [], [] => some value
  | .array items :: pending, .comma :: rest => assemble (.array (value :: items) :: pending) rest
  | .array items :: pending, .endArray :: rest =>
      deliver (.array (value :: items).reverse) pending rest
  | .object members key :: pending, .comma :: .string next :: .colon :: rest =>
      assemble (.object ((key, value) :: members) next :: pending) rest
  | .object members key :: pending, .endObject :: rest =>
      deliver (.object ((key, value) :: members).reverse) pending rest
  | _, _ => none
end

def parse (text : List Char) : Option Document := do
  let tokens ← tokens text
  assemble [] tokens

end Document

end RouteManifest.Json
