import RouteManifest.Discovery
import RouteManifest.Endpoint.Json
import RouteManifest.Server.ToolCall
import RouteManifest.Settings.Load

/-!
The two tools of the server: one lists all endpoints or those with a verb, the other
describes the endpoint with a path and a verb. Every call discovers the endpoints
afresh, so the answers follow the files.
-/

namespace RouteManifest.Server

/-- Where the server discovers endpoints, and how its reader words what is wrong with a text
that is no request. -/
structure Context where
  root : String
  settings : Settings := {}
  complaint : List Char → String := fun _ => "the line is not a request"

/-- The first word is the root, and the working folder is when there is none. -/
def Context.ofWords (disk : Disk) (words : List String) : Context :=
  let root := words.head?.getD disk.working.toText
  { root, settings := Settings.loadOrDefault disk (Settings.defaultPath root) }

inductive ToolFault
  | unknownTool (name : String)
  | missing (parameter : String)
  | unsupportedVerb (text : String)
  | noEndpoint (verb : Verb) (path : String)
  | discovery (failure : Failure)
deriving DecidableEq, Repr

def ToolFault.message : ToolFault → String
  | unknownTool name => "Unknown tool: " ++ name
  | missing parameter => "Missing required parameter: " ++ parameter
  | unsupportedVerb text => "Unsupported verb: " ++ text
  | noEndpoint verb path => s!"No endpoint {verb.toText} {path}"
  | discovery failure => failure.message

namespace Tools

def text? (arguments : Json) (parameter : String) : Option String :=
  (arguments.member? parameter).bind Json.string?

/-- The verb among the arguments; anything but a string counts as absent. -/
def verb? (arguments : Json) : Except ToolFault (Option Verb) :=
  match text? arguments "verb" with
  | none => .ok none
  | some text =>
      match Verb.ofText? text with
      | none => .error (.unsupportedVerb text)
      | some verb => .ok (some verb)

def endpoints (context : Context) (disk : Disk) : Except ToolFault (List Endpoint) :=
  match discover disk context.settings context.root with
  | .error failure => .error (.discovery failure)
  | .ok endpoints => .ok endpoints

def list (context : Context) (disk : Disk) (arguments : Json) :
    Except ToolFault (List Endpoint) := do
  match ← verb? arguments with
  | none => endpoints context disk
  | some verb => return (← endpoints context disk).filter fun endpoint => endpoint.verb == verb

def describe (context : Context) (disk : Disk) (arguments : Json) :
    Except ToolFault (List Endpoint) := do
  let some path := text? arguments "path" | .error (.missing "path")
  let some verb ← verb? arguments | .error (.missing "verb")
  match (← endpoints context disk).find? fun endpoint => endpoint.key == (path, verb) with
  | some endpoint => return [endpoint]
  | none => .error (.noEndpoint verb path)

def call (context : Context) (disk : Disk) (tool : ToolCall) : Except ToolFault (List Endpoint) :=
  match tool.name with
  | "endpoints_list" => list context disk tool.arguments
  | "endpoints_describe" => describe context disk tool.arguments
  | name => .error (.unknownTool name)

def content (text : String) : String × Json :=
  ("content", .array [.object [("text", .string text), ("type", .string "text")]])

def answer : Except ToolFault (List Endpoint) → Json
  | .ok endpoints => .object [content (Endpoint.listToJson endpoints).pretty]
  | .error fault => .object [content fault.message, ("isError", .bool true)]

def verbNames : Json := .ofStrings ["get", "post", "put", "delete"]

def textSchema (description : Option String) (values : Option Json) : Json :=
  .object ((description.map fun text => ("description", Json.string text)).toList ++
    (values.map fun values => ("enum", values)).toList ++ [("type", .string "string")])

def specification (name description : String) (required : List String)
    (properties : List (String × Json)) : Json :=
  let schema := [("properties", Json.object properties)] ++
    (if required.isEmpty then [] else [("required", .ofStrings required)]) ++
    [("type", .string "object")]
  .object [("description", .string description), ("inputSchema", .object schema),
    ("name", .string name)]

def listSpecification : Json :=
  specification "endpoints_list"
    ("List every HTTP endpoint defined by script files under the root, " ++
      "with verb, required roles, input arguments, and inferred CRUD/SQL type.")
    []
    [("verb", textSchema (some "Optional: only endpoints with this verb") (some verbNames))]

def describeSpecification : Json :=
  specification "endpoints_describe" "Describe one endpoint by path and verb." ["path", "verb"]
    [("path", textSchema (some "Endpoint path, e.g. 'magic/modules/shop/items'") none),
     ("verb", textSchema none (some verbNames))]

def specifications : Json := .array [listSpecification, describeSpecification]

end Tools

end RouteManifest.Server
