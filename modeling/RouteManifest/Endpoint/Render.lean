import RouteManifest.Endpoint.Json
import RouteManifest.Script.Text

/-!
The three texts of a list of endpoints: pretty JSON, the node forms one after
another, and a table with one row for each endpoint.
-/

namespace RouteManifest

open RouteManifest.Script

inductive OutputFormat
  | json
  | lambda
  | table
deriving DecidableEq, Repr, Inhabited

def OutputFormat.ofText? : String → Option OutputFormat
  | "json" => some json
  | "lambda" => some lambda
  | "table" => some table
  | _ => none

def OutputFormat.toText : OutputFormat → String
  | json => "json"
  | lambda => "lambda"
  | table => "table"

def padRight (width : Nat) (text : List Char) : List Char :=
  text ++ List.replicate (width - text.length) ' '

def tableRow (endpoint : Endpoint) : List Char :=
  let kind := (endpoint.kind.map EndpointKind.toText).getD "-"
  let roles := ",".intercalate (endpoint.roles.getD [])
  padRight 7 endpoint.verb.toUpperText.toList ++ ' ' :: padRight 48 endpoint.path.toList ++
    ' ' :: padRight 16 kind.toList ++ ' ' :: roles.toList ++ ['\n']

def render (endpoints : List Endpoint) : OutputFormat → String
  | .json => (Endpoint.listToJson endpoints).pretty
  | .lambda => forestText (endpoints.map Endpoint.toNode)
  | .table => String.ofList (endpoints.flatMap tableRow)

end RouteManifest
