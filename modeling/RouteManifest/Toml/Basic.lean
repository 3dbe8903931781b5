import RouteManifest.Number.Literal

/-!
TOML values. Entries of a table are kept in the order given and may repeat a key;
it is for the reader of a table to refuse repetitions of the keys it knows. Of a
date or time only the shape is checked, so nothing of it is kept.
-/

namespace RouteManifest

open RouteManifest.Number

inductive Toml
  | string (text : String)
  | boolean (flag : Bool)
  | integer (value : Int)
  | float (value : Binary64)
  | datetime
  | array (items : List Toml)
  /-- A table that was begun by a dotted key can be extended by further dotted keys. -/
  | table (extensible : Bool) (entries : List (String × Toml))
deriving Repr, Inhabited

end RouteManifest
