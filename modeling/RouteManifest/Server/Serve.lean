import RouteManifest.Server.Message
import RouteManifest.Server.Tools
import RouteManifest.Text.Blank
import RouteManifest.Text.Lines

/-!
The server reads one request from every line of its input and answers each in order,
on a line of its own. Blank lines are skipped, and one method is a notification that
gets no answer. A line that is no text in UTF-8 ends the input.
-/

namespace RouteManifest.Server

def greeting : Json :=
  .object [("capabilities", .object [("tools", .object [])]),
    ("protocolVersion", .string "2024-11-05"),
    ("serverInfo", .object [("name", .string "lambda-endpoints"), ("version", .string "0.1.0")])]

def callTool (context : Context) (disk : Disk) (params : Json) : Except Fault Json :=
  match ToolCall.ofJson params with
  | .error fault => .error (.invalidParams fault.message)
  | .ok tool => .ok (Tools.answer (Tools.call context disk tool))

/-- What a request is answered with; nothing for a notification. -/
def respond (context : Context) (disk : Disk) (request : Request) : Option (Except Fault Json) :=
  match request.method with
  | "initialize" => some (.ok greeting)
  | "notifications/initialized" => none
  | "tools/list" => some (.ok (.object [("tools", Tools.specifications)]))
  | "tools/call" => some (callTool context disk request.params)
  | "ping" => some (.ok (.object []))
  | method => some (.error (.unknownMethod method))

def answerLine (context : Context) (disk : Disk) (line : List Char) : Option Response :=
  let text := Text.trim line
  if text.isEmpty then none
  else
    match Request.ofText? text with
    | none => some { id := none, outcome := .error (.unreadable (context.complaint text)) }
    | some request =>
        (respond context disk request).map fun outcome => { id := request.id, outcome }

def lineText? (octets : List UInt8) : Option (List Char) :=
  (String.fromUTF8? ⟨octets.toArray⟩).map String.toList

/-- The texts of the lines before the first that has none. -/
def inputLines (octets : List UInt8) : List (List Char) :=
  ((Text.lines 0x0A 0x0D octets).map lineText?).takeWhile Option.isSome |>.reduceOption

def serve (context : Context) (disk : Disk) (octets : List UInt8) : List Response :=
  (inputLines octets).filterMap (answerLine context disk)

/-- The responses as they are sent, one on each line. -/
def output (responses : List Response) : String :=
  String.join (responses.map fun response => response.toJson.compact ++ "\n")

end RouteManifest.Server
