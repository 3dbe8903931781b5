import RouteManifest.Script.Node

/-!
What is known about one endpoint without running its script: its path and verb,
the declared input, roles and description, and, for recognised database scripts,
the returned fields and the kind. An endpoint also has a node form, read by
scripts.
-/

namespace RouteManifest

open RouteManifest.Script

inductive Verb
  | get
  | post
  | put
  | delete
deriving DecidableEq, Repr, Inhabited

namespace Verb

def toText : Verb → String
  | get => "get"
  | post => "post"
  | put => "put"
  | delete => "delete"

/-- Only the lower-case names are verbs. -/
def ofText? : String → Option Verb
  | "get" => some get
  | "post" => some post
  | "put" => some put
  | "delete" => some delete
  | _ => none

def toUpperText : Verb → String
  | get => "GET"
  | post => "POST"
  | put => "PUT"
  | delete => "DELETE"

theorem of_text_to_text (verb : Verb) : ofText? verb.toText = some verb := by cases verb <;> rfl

end Verb

inductive EndpointKind
  | crudCreate
  | crudRead
  | crudUpdate
  | crudDelete
  | crudCount
  | crudSql
  | crudStatistics
deriving DecidableEq, Repr, Inhabited

namespace EndpointKind

def toText : EndpointKind → String
  | crudCreate => "crud-create"
  | crudRead => "crud-read"
  | crudUpdate => "crud-update"
  | crudDelete => "crud-delete"
  | crudCount => "crud-count"
  | crudSql => "crud-sql"
  | crudStatistics => "crud-statistics"

def ofText? : String → Option EndpointKind
  | "crud-create" => some crudCreate
  | "crud-read" => some crudRead
  | "crud-update" => some crudUpdate
  | "crud-delete" => some crudDelete
  | "crud-count" => some crudCount
  | "crud-sql" => some crudSql
  | "crud-statistics" => some crudStatistics
  | _ => none

theorem of_text_to_text (kind : EndpointKind) : ofText? kind.toText = some kind := by
  cases kind <;> rfl

end EndpointKind

/-- A named field of a schema with its declared type, or the value that describes it. -/
structure Field where
  name : String
  value : Option Value := none
deriving DecidableEq, Repr, Inhabited

namespace Field

/-- The declaration of a node; what is nested below it is not part of the field. -/
def ofNode (node : Node) : Field := ⟨node.name, node.value⟩

def toNode (field : Field) : Node := { name := field.name, value := field.value }

end Field

structure Endpoint where
  path : String
  verb : Verb
  input : Option (List Field) := none
  /-- Required roles in the order of their declaration, repetitions included. -/
  roles : Option (List String) := none
  description : Option String := none
  returns : Option (List Field) := none
  array : Option Bool := none
  kind : Option EndpointKind := none
deriving DecidableEq, Repr, Inhabited

namespace Endpoint

def fields (endpoint : Endpoint) : List Field :=
  endpoint.input.getD [] ++ endpoint.returns.getD []

def IsExact (endpoint : Endpoint) : Prop :=
  ∀ field ∈ endpoint.fields, field.value.any Value.isDecimal = false

instance (endpoint : Endpoint) : Decidable endpoint.IsExact :=
  inferInstanceAs (Decidable (∀ field ∈ endpoint.fields, _ = _))

def fieldsNode (name : String) (fields : List Field) : Node :=
  { name, children := fields.map Field.toNode }

def rolesNode (roles : List String) : Node :=
  { name := "auth", children := roles.map (Node.ofText "") }

/-- The node form: an unnamed node with one child for everything that is known. -/
def toNode (endpoint : Endpoint) : Node where
  name := ""
  children :=
    [Node.ofText "path" endpoint.path, Node.ofText "verb" endpoint.verb.toText] ++
    (endpoint.input.map (fieldsNode "input")).toList ++
    (endpoint.roles.map rolesNode).toList ++
    (endpoint.description.map (Node.ofText "description")).toList ++
    (endpoint.returns.map (fieldsNode "returns")).toList ++
    (endpoint.array.map fun array => Node.ofValue "array" (.bool array)).toList ++
    (endpoint.kind.map fun kind => Node.ofText "type" kind.toText).toList

end Endpoint

end RouteManifest
