/-!
Quoted literals. Inside double quotes a backslash joins the next character to a
pair: n, r and t name control characters and any other second character stands
for itself. Writing uses five pairs, reading accepts all of them, and what
follows the closing quote is handed back untouched.
-/

namespace RouteManifest.Text.Quoted

def escape : Char → List Char
  | '"' => ['\\', '"']
  | '\\' => ['\\', '\\']
  | '\n' => ['\\', 'n']
  | '\r' => ['\\', 'r']
  | '\t' => ['\\', 't']
  | character => [character]

def unescape : Char → Char
  | 'n' => '\n'
  | 'r' => '\r'
  | 't' => '\t'
  | character => character

def encode (content : List Char) : List Char := '"' :: content.flatMap escape ++ ['"']

/-- Reads up to the closing quote; the opening quote is already consumed. -/
def decodeBody : List Char → Option (List Char × List Char)
  | [] => none
  | '"' :: rest => some ([], rest)
  | ['\\'] => none
  | '\\' :: second :: rest =>
      (decodeBody rest).map fun (content, suffix) => (unescape second :: content, suffix)
  | character :: rest =>
      (decodeBody rest).map fun (content, suffix) => (character :: content, suffix)

def decode : List Char → Option (List Char × List Char)
  | '"' :: rest => decodeBody rest
  | _ => none

theorem decode_body_escape (character : Char) (rest : List Char) :
    decodeBody (escape character ++ rest) =
      (decodeBody rest).map fun (content, suffix) => (character :: content, suffix) := by
  unfold escape
  split <;> simp_all [decodeBody, unescape]

theorem decode_encode (content suffix : List Char) :
    decode (encode content ++ suffix) = some (content, suffix) := by
  have body : decodeBody (content.flatMap escape ++ '"' :: suffix) = some (content, suffix) := by
    induction content with
    | nil => simp [decodeBody]
    | cons character rest induction =>
        simp [List.append_assoc, decode_body_escape, induction]
  simp [encode, decode, body]

end RouteManifest.Text.Quoted
