import RouteManifest.Endpoint.Basic
import RouteManifest.Json.Decode
import RouteManifest.Json.Write

/-!
What an endpoint exchanges with its caller: a request resolved to a route and a verb,
and the response to it. Both have a JSON form. Queries and headers are maps from text
to text, kept sorted by key, in which the last value of a key wins. A payload or body
that is null is written as null and read back as absent.
-/

namespace RouteManifest

open RouteManifest.Json (Document)

abbrev TextMap := List (String × String)

namespace TextMap

def toJson (map : TextMap) : Json := .object (map.map fun pair => (pair.1, .string pair.2))

/-- A map that is absent is empty, but null is no map. -/
def ofDocument? : Option Document → Option TextMap
  | none => some []
  | some document => document.stringMap?

end TextMap

structure HttpRequest where
  route : String
  verb : Verb
  payload : Option Json := none
  query : TextMap := []
  headers : TextMap := []
deriving Repr

structure HttpResponse where
  status : UInt16
  headers : TextMap := []
  body : Option Json := none
deriving Repr

/-- Free values nest in the record that holds them. -/
def freeJson? : Document → Option Json := Document.json? (Document.nestingLimit - 1)

namespace HttpRequest

def withPayload (request : HttpRequest) (payload : Json) : HttpRequest :=
  { request with payload := some payload }

def withQuery (request : HttpRequest) (key value : String) : HttpRequest :=
  { request with query := insertSorted key value request.query }

def withHeader (request : HttpRequest) (key value : String) : HttpRequest :=
  { request with headers := insertSorted key value request.headers }

def toJson (request : HttpRequest) : Json :=
  .object (
    [("route", .string request.route), ("verb", .string request.verb.toText)] ++
    (request.payload.map fun payload => ("payload", payload)).toList ++
    [("query", request.query.toJson), ("headers", request.headers.toJson)])

def ofDocument? (document : Document) : Option HttpRequest := do
  let [route, verb, payload, query, headers] ←
    document.fields? ["route", "verb", "payload", "query", "headers"] | none
  return {
    route := ← (← route).string?
    verb := ← (← verb).word? Verb.ofText?
    payload := ← Document.optional? freeJson? payload
    query := ← TextMap.ofDocument? query
    headers := ← TextMap.ofDocument? headers }

def ofJsonText? (text : String) : Option HttpRequest := do
  ofDocument? (← Document.parse text.toList)

end HttpRequest

namespace HttpResponse

def withBody (response : HttpResponse) (body : Json) : HttpResponse :=
  { response with body := some body }

def toJson (response : HttpResponse) : Json :=
  .object (
    [("status", .ofInt response.status.toNat), ("headers", response.headers.toJson)] ++
    (response.body.map fun body => ("body", body)).toList)

def statusOf? : Document → Option UInt16
  | .number numeral =>
      match numeral.value? with
      | some (.whole value) =>
          if 0 ≤ value && value < 0x10000 then some (UInt16.ofNat value.toNat) else none
      | _ => none
  | _ => none

def ofDocument? (document : Document) : Option HttpResponse := do
  let [status, headers, body] ← document.fields? ["status", "headers", "body"] | none
  return {
    status := ← statusOf? (← status)
    headers := ← TextMap.ofDocument? headers
    body := ← Document.optional? freeJson? body }

def ofJsonText? (text : String) : Option HttpResponse := do
  ofDocument? (← Document.parse text.toList)

end HttpResponse

end RouteManifest
