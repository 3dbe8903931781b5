import RouteManifest.Endpoint.Basic
import RouteManifest.Script.Json

/-!
The JSON form of endpoints. What is not known about an endpoint is left out; an
empty list is written and stays apart from an absent one.
-/

namespace RouteManifest

open RouteManifest.Script
open RouteManifest.Json (Document)

def Field.toJson (field : Field) : Json :=
  .object ([("name", .string field.name)] ++
    (field.value.map fun value => ("type", value.toJson)).toList)

def Field.ofDocument? (document : Document) : Option Field := do
  let [name, value] ← document.fields? ["name", "type"] | none
  return { name := ← (← name).string?, value := ← Document.optional? Document.scalar? value }

def Endpoint.toJson (endpoint : Endpoint) : Json :=
  let fields (list : List Field) : Json := .array (list.map Field.toJson)
  .object (
    [("path", .string endpoint.path), ("verb", .string endpoint.verb.toText)] ++
    (endpoint.input.map fun input => ("input", fields input)).toList ++
    (endpoint.roles.map fun roles => ("auth", Json.ofStrings roles)).toList ++
    (endpoint.description.map fun text => ("description", .string text)).toList ++
    (endpoint.returns.map fun returns => ("returns", fields returns)).toList ++
    (endpoint.array.map fun array => ("array", .bool array)).toList ++
    (endpoint.kind.map fun kind => ("type", .string kind.toText)).toList)

def Endpoint.ofDocument? (document : Document) : Option Endpoint := do
  let [path, verb, input, roles, description, returns, array, kind] ←
    document.fields?
      ["path", "verb", "input", "auth", "description", "returns", "array", "type"] | none
  let fields := Document.listOf? Field.ofDocument?
  return {
    path := ← (← path).string?
    verb := ← (← verb).word? Verb.ofText?
    input := ← Document.optional? fields input
    roles := ← Document.optional? (Document.listOf? Document.string?) roles
    description := ← Document.optional? Document.string? description
    returns := ← Document.optional? fields returns
    array := ← Document.optional? Document.bool? array
    kind := ← Document.optional? (Document.word? EndpointKind.ofText?) kind }

def Endpoint.listToJson (endpoints : List Endpoint) : Json := .array (endpoints.map Endpoint.toJson)

def Endpoint.listOfJsonText? (text : String) : Option (List Endpoint) := do
  let document ← Document.parse text.toList
  document.listOf? Endpoint.ofDocument?

end RouteManifest
