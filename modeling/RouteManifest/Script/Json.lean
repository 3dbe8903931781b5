import RouteManifest.Script.Node
import RouteManifest.Json.Write
import RouteManifest.Json.Decode

/-!
The JSON form of a script tree: an object with the name, the value when there is
one, and the children when there are any. Scalars stand for themselves; a decimal
that is not finite is written as null.
-/

namespace RouteManifest.Script

open RouteManifest.Json (Document)

def Value.toJson : Value → Json
  | .bool flag => .bool flag
  | .int number => .ofInt number.toInt
  | .decimal number => .number (.real number)
  | .string text => .string text

mutual
def Node.toJson : Node → Json
  | ⟨name, value, children⟩ =>
      .object ([("name", .string name)] ++
        (match value with
          | none => []
          | some value => [("value", value.toJson)]) ++
        if children.isEmpty then [] else [("children", .array (Node.allToJson children))])
def Node.allToJson : List Node → List Json
  | [] => []
  | node :: rest => node.toJson :: Node.allToJson rest
end

/-- Reads the fields of a node, and its children as they are read in it. -/
def Node.ofFields? (children? : Document → Option (List Node)) (document : Document) :
    Option Node := do
  let [name, value, children] ← document.fields? ["name", "value", "children"] | none
  let name ← (← name).string?
  let value ← Document.optional? Document.scalar? value
  match children with
  | none => return { name, value }
  | some children => return { name, value, children := ← children? children }

/-- Reads a node whose containers nest at most so deep. A node opens one container
for itself and one for its children. -/
def Node.ofDocument? : Nat → Document → Option Node
  | 0 => fun _ => none
  | 1 => Node.ofFields? fun _ => none
  | depth + 2 => Node.ofFields? fun children => children.listOf? (Node.ofDocument? depth)

def Node.ofJsonText? (text : String) : Option Node := do
  let document ← Document.parse text.toList
  Node.ofDocument? Document.nestingLimit document

end RouteManifest.Script
