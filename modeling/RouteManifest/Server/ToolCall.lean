import RouteManifest.Json.Write
import RouteManifest.Text.Shown

/-!
The parameters of a tool call: the name of the tool and its arguments, as an object or
as an array of the two. What is wrong with them is told by the kind of value that was
found and what was expected in its place.
-/

namespace RouteManifest.Server

structure ToolCall where
  name : String
  arguments : Json
deriving Repr

inductive ToolCallFault
  | missingName
  | notCall (found : Json)
  | notName (found : Json)
  | tooShort
  | tooLong (length : Nat)

/-- The kind of a value, with the value itself where it is short. -/
def kindText : Json → String
  | .null => "null"
  | .bool true => "boolean `true`"
  | .bool false => "boolean `false`"
  | .number (.whole value) => "integer `" ++ (Json.ofInt value).compact ++ "`"
  | .number (.real value) => "floating point `" ++ (Json.number (.real value)).compact ++ "`"
  | .string text => "string " ++ Text.showText text
  | .array _ => "sequence"
  | .object _ => "map"

def ToolCallFault.message : ToolCallFault → String
  | missingName => "missing field `name`"
  | notCall found => "invalid type: " ++ kindText found ++ ", expected struct ToolCall"
  | notName found => "invalid type: " ++ kindText found ++ ", expected a string"
  | tooShort => "invalid length 0, expected struct ToolCall with 2 elements"
  | tooLong length =>
      "invalid length " ++ (Json.ofInt length).compact ++ ", expected fewer elements in array"

namespace ToolCall

def named (arguments : Json) : Json → Except ToolCallFault ToolCall
  | .string name => .ok ⟨name, arguments⟩
  | found => .error (.notName found)

/-- A wrong name is noticed before superfluous items are. -/
def ofJson : Json → Except ToolCallFault ToolCall
  | .object members =>
      match members.lookup "name" with
      | none => .error .missingName
      | some name => named ((members.lookup "arguments").getD .null) name
  | .array [] => .error .tooShort
  | .array [name] => named .null name
  | .array [name, arguments] => named arguments name
  | .array (name :: rest) => do
      let _ ← named .null name
      .error (.tooLong (rest.length + 1))
  | found => .error (.notCall found)

end ToolCall

end RouteManifest.Server
