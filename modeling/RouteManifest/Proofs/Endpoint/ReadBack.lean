import RouteManifest.Endpoint.Render
import RouteManifest.Proofs.Json.Pretty
import RouteManifest.Proofs.Json.Record
import RouteManifest.Proofs.Script.ReadBack

/-!
Endpoints read back from their JSON text. What is left out is read as absent, an empty list stays
an empty list, and a value comes back with its kind, whole numbers over the whole range of 64
bits with a sign. Decimals are left aside: they are rounded when they are read.
-/

namespace RouteManifest

open RouteManifest.Json (Document)
open RouteManifest.Script

def Field.record (field : Field) : List (String × Option Json) :=
  [("name", some (.string field.name)), ("type", field.value.map Value.toJson)]

theorem Field.to_json_eq (field : Field) : field.toJson = .object (present field.record) := by
  obtain ⟨name, value⟩ := field
  cases value <;> rfl

theorem Field.of_document {field : Field} (exact : field.value.any Value.isDecimal = false) :
    Field.ofDocument? field.toJson.document = some field := by
  have found : Document.fields? ["name", "type"] (Json.object (present field.record)).document = _ :=
    Document.fields_present field.record (by decide : ["name", "type"].Nodup)
  have value : Document.optional? Document.scalar?
      (field.value.map fun value => value.toJson.document) = some field.value :=
    Value.optional_scalar_document exact
  rw [Field.to_json_eq, Field.ofDocument?, found]
  simp [Field.record, Function.comp_def, value, Json.document, Document.string?]

namespace Endpoint

def record (endpoint : Endpoint) : List (String × Option Json) :=
  [("path", some (.string endpoint.path)), ("verb", some (.string endpoint.verb.toText)),
    ("input", endpoint.input.map fun input => .array (input.map Field.toJson)),
    ("auth", endpoint.roles.map Json.ofStrings),
    ("description", endpoint.description.map Json.string),
    ("returns", endpoint.returns.map fun returns => .array (returns.map Field.toJson)),
    ("array", endpoint.array.map Json.bool),
    ("type", endpoint.kind.map fun kind => .string kind.toText)]

theorem to_json_eq (endpoint : Endpoint) : endpoint.toJson = .object (present endpoint.record) := by
  simp [toJson, record, present, Option.map_map, Function.comp_def]

theorem fields_document (fields : Option (List Field))
    (exact : ∀ list ∈ fields, ∀ field ∈ list, field.value.any Value.isDecimal = false) :
    Document.optional? (Document.listOf? Field.ofDocument?)
        (fields.map fun list => (Json.array (list.map Field.toJson)).document) =
      some fields := by
  apply Document.optional_document
  intro list member
  refine ⟨Document.noConfusion, ?_⟩
  apply Document.list_of_item_documents
  exact fun field inside => Field.of_document (exact list member field inside)

theorem of_document {endpoint : Endpoint} (exact : endpoint.IsExact) :
    Endpoint.ofDocument? endpoint.toJson.document = some endpoint := by
  have found : Document.fields?
      ["path", "verb", "input", "auth", "description", "returns", "array", "type"]
      (Json.object (present endpoint.record)).document = _ :=
    Document.fields_present endpoint.record (by decide :
      ["path", "verb", "input", "auth", "description", "returns", "array", "type"].Nodup)
  have path : (Json.string endpoint.path).document.string? = some endpoint.path := rfl
  have verb : Document.word? Verb.ofText? (Json.string endpoint.verb.toText).document =
      some endpoint.verb := Verb.of_text_to_text endpoint.verb
  have input := fields_document endpoint.input fun list member field inside =>
    exact field (by simp [fields, Option.mem_def.mp member, inside])
  have returns := fields_document endpoint.returns fun list member field inside =>
    exact field (by simp [fields, Option.mem_def.mp member, inside])
  have roles : Document.optional? (Document.listOf? Document.string?)
      (endpoint.roles.map fun roles => (Json.ofStrings roles).document) = some endpoint.roles := by
    apply Document.optional_document
    exact fun roles _ => ⟨Document.noConfusion, Document.list_of_item_documents fun _ _ => rfl⟩
  have description : Document.optional? Document.string?
      (endpoint.description.map fun text => (Json.string text).document) = some endpoint.description := by
    apply Document.optional_document
    exact fun text _ => ⟨Document.noConfusion, rfl⟩
  have array : Document.optional? Document.bool?
      (endpoint.array.map fun flag => (Json.bool flag).document) = some endpoint.array := by
    apply Document.optional_document
    exact fun flag _ => ⟨Document.noConfusion, rfl⟩
  have kind : Document.optional? (Document.word? EndpointKind.ofText?)
      (endpoint.kind.map fun kind => (Json.string kind.toText).document) =
        some endpoint.kind := by
    apply Document.optional_document
    exact fun kind _ => ⟨Document.noConfusion, EndpointKind.of_text_to_text kind⟩
  rw [to_json_eq, Endpoint.ofDocument?, found]
  simp only [record, List.map_cons, List.map_nil, Option.map_some, Option.map_map,
    Function.comp_def, input, returns, roles, description, array, kind, Option.bind_eq_bind,
    Option.bind_some, Option.pure_def, path, verb]

end Endpoint

/-- A list of endpoints is read back from its JSON text as it was. -/
theorem endpoints_read_back (endpoints : List Endpoint)
    (exact : ∀ endpoint ∈ endpoints, endpoint.IsExact) :
    Endpoint.listOfJsonText? (render endpoints .json) = some endpoints := by
  rw [render, Endpoint.listOfJsonText?, Endpoint.listToJson, Json.pretty, String.toList_ofList,
    Json.parse_pretty]
  apply Document.list_of_item_documents
  exact fun endpoint member => Endpoint.of_document (exact endpoint member)

def samplerEndpoint : Endpoint where
  path := "magic/modules/\"shop\"\n"
  verb := .put
  input := some []
  roles := some ["", "admin,root"]
  returns := some [⟨"id", some (.int (-0x8000000000000000))⟩, ⟨"total", some (.int 0x7FFFFFFFFFFFFFFF)⟩,
    ⟨"flag", some (.bool true)⟩, ⟨"text", some (.string "true")⟩, ⟨"", none⟩]
  array := some false
  kind := some .crudCount

theorem endpoints_read_back_sampler :
    (∀ endpoint ∈ [samplerEndpoint, { path := "", verb := .get }], endpoint.IsExact) ∧
    Endpoint.listOfJsonText? (render [samplerEndpoint, { path := "", verb := .get }] .json) =
      some [samplerEndpoint, { path := "", verb := .get }] := by
  have exact : ∀ endpoint ∈ [samplerEndpoint, { path := "", verb := .get }],
      endpoint.IsExact := by decide
  exact ⟨exact, endpoints_read_back _ exact⟩

end RouteManifest
