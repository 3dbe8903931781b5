import RouteManifest.Json.Decode
import RouteManifest.Json.Write

/-!
Messages between a client and the server. A request names a method, with parameters
and an identifier that its response repeats. A response carries a result or a fault,
and an identifier only when the request has one.
-/

namespace RouteManifest.Server

open RouteManifest.Json (Document)

structure Request where
  id : Option Json
  method : String
  params : Json
deriving Repr

inductive Fault
  | unreadable (reason : String)
  | unknownMethod (method : String)
  | invalidParams (reason : String)
deriving DecidableEq, Repr

namespace Fault

def code : Fault → Int
  | unreadable _ => -32700
  | unknownMethod _ => -32601
  | invalidParams _ => -32602

def message : Fault → String
  | unreadable reason => "Parse error: " ++ reason
  | unknownMethod method => "Method not found: " ++ method
  | invalidParams reason => "Invalid params: " ++ reason

def toJson (fault : Fault) : Json :=
  .object [("code", .ofInt fault.code), ("message", .string fault.message)]

end Fault

structure Response where
  id : Option Json
  outcome : Except Fault Json

namespace Request

/-- The values of a request are free and nest in the request itself. -/
def ofDocument? (document : Document) : Option Request := do
  let [id, method, params] ← document.fields? ["id", "method", "params"] | none
  let free := Document.json? (Document.nestingLimit - 1)
  return {
    id := ← Document.optional? free id
    method := ← (← method).string?
    params := (← Document.optional? free params).getD .null }

def ofText? (text : List Char) : Option Request := do ofDocument? (← Document.parse text)

end Request

namespace Response

def toJson (response : Response) : Json :=
  .object ([("jsonrpc", .string "2.0")] ++
    (response.id.map fun id => ("id", id)).toList ++
    match response.outcome with
    | .ok result => [("result", result)]
    | .error fault => [("error", fault.toJson)])

end Response

end RouteManifest.Server
