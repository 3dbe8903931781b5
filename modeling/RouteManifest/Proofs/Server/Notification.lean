import RouteManifest.Proofs.Server.Framing

/-!
Requests without an identifier. The protocol calls them notifications, and nothing is to be
sent for them. The server decides by the method alone: it is silent on one method and sends a
response without identifier for every other notification, also for one it cannot carry out.
-/

namespace RouteManifest.Server

open RouteManifest.Json (Document)

section Reply

variable {context : Context} {disk : Disk} {line : List Char}

theorem reply_eq_empty_iff : reply context disk line = "" ↔ IsSilent line := by
  constructor
  · intro nothing
    by_contra spoken
    obtain ⟨response, answered, -⟩ := answer_line_response context disk spoken
    rw [reply_response answered] at nothing
    simp at nothing
  · intro silent
    rw [reply, answer_line_silent silent]
    rfl

theorem output_around_line {octets : List UInt8} {before after : List (List Char)}
    (lines : inputLines octets = before ++ line :: after) :
    output (serve context disk octets) =
      String.join (before.map (reply context disk)) ++ reply context disk line ++
        String.join (after.map (reply context disk)) := by
  have whole : output (serve context disk octets) =
      String.join ((inputLines octets).map (reply context disk)) :=
    output_filter_map _ _
  rw [whole, lines, List.map_append, String.join_append, List.map_cons, String.join_cons,
    String.append_assoc]

end Reply

/-- The line holds a request, and the request has no identifier. -/
structure IsNotification (line : List Char) (request : Request) : Prop where
  read : Request.ofText? (Text.trim line) = some request
  anonymous : ∀ field, ¬ HasId (Text.trim line) field

namespace IsNotification

variable {line : List Char} {request : Request}

/-- A line with a request is silent only for the sake of its method. -/
theorem silent_iff (notification : IsNotification line request) :
    IsSilent line ↔ request.method = "notifications/initialized" := by
  constructor
  · rintro (blank | ⟨other, read, silent⟩)
    · have parsed : Document.parse [] = none := by cbv
      have nothing : Request.ofText? [] = none := by
        rw [Request.ofText?, parsed]
        rfl
      have solid := notification.read
      rw [Text.trim_eq_nil_iff.mpr blank, nothing] at solid
      cases solid
    · obtain rfl : request = other := Option.some.inj (notification.read.symm.trans read)
      exact silent
  · intro silent
    exact .inr ⟨request, notification.read, silent⟩

theorem response_anonymous (notification : IsNotification line request) {body : List Char}
    {members : List (Option String × Document)}
    (response : IsResponse (Text.trim line) body members) :
    members.lookup (some "id") = none := by
  rw [← Option.not_isSome_iff_eq_none, response.id]
  exact not_exists.mpr notification.anonymous

end IsNotification

/-- Exactly the notifications of one method are left without an output line of their own. For
every other one the server sends one line, with a response that has no identifier. -/
theorem notification_unanswered_iff (context : Context) (disk : Disk) {octets : List UInt8}
    {before after : List (List Char)} {line : List Char} {request : Request}
    (lines : inputLines octets = before ++ line :: after)
    (notification : IsNotification line request) :
    ∃ sent, output (serve context disk octets) =
        String.join (before.map (reply context disk)) ++ sent ++
          String.join (after.map (reply context disk)) ∧
      (sent = "" ↔ request.method = "notifications/initialized") ∧
      (request.method ≠ "notifications/initialized" → ∃ body members,
        sent = String.ofList body ++ "\n" ∧ IsResponse (Text.trim line) body members ∧
        members.lookup (some "id") = none) := by
  refine ⟨reply context disk line, output_around_line lines, ?_, ?_⟩
  · rw [reply_eq_empty_iff, notification.silent_iff]
  · intro other
    have spoken : ¬ IsSilent line := mt notification.silent_iff.mp other
    obtain ⟨response, answered, isResponse⟩ := answer_line_response context disk spoken
    exact ⟨_, _, reply_response answered, isResponse, notification.response_anonymous isResponse⟩

def pingLine : List Char :=
  "\x7b\"jsonrpc\":\"2.0\",\"method\":\"ping\"\x7d".toList

theorem ping_is_notification : IsNotification pingLine ⟨none, "ping", .null⟩ := by
  have parsed : Document.parse (Text.trim pingLine) = some (.object
      [(some "jsonrpc", .string (some "2.0")), (some "method", .string (some "ping"))]) := by
    cbv
  have read : Request.ofText? (Text.trim pingLine) = some ⟨none, "ping", .null⟩ := by
    rw [Request.ofText?, parsed]
    rfl
  refine ⟨read, fun field has => ?_⟩
  obtain ⟨value, given, -⟩ := (request_id read).given field has
  cases given

theorem ping_lines : inputLines (encoded pingLine ++ [0x0A]) = [] ++ pingLine :: [] := by
  have cut : Text.lines 0x0A 0x0D (encoded pingLine ++ [0x0A]) = [encoded pingLine] := by decide
  rw [inputLines, cut, List.map_singleton, line_text_iff.mpr rfl]
  rfl

/-- A ping is answered, although it has no identifier. -/
theorem notification_unanswered_ping :
    inputLines (encoded pingLine ++ [0x0A]) = [] ++ pingLine :: [] ∧
    IsNotification pingLine ⟨none, "ping", .null⟩ ∧
    ∃ body members, output (serve { root := "top" } {} (encoded pingLine ++ [0x0A])) =
        String.ofList body ++ "\n" ∧
      IsResponse (Text.trim pingLine) body members ∧ members.lookup (some "id") = none := by
  refine ⟨ping_lines, ping_is_notification, ?_⟩
  obtain ⟨sent, sends, -, spoken⟩ :=
    notification_unanswered_iff { root := "top" } {} ping_lines ping_is_notification
  obtain ⟨body, members, line, response⟩ := spoken (by decide)
  exact ⟨body, members, by simpa [line] using sends, response⟩

/-- Not every request without an identifier is left unanswered. -/
theorem not_every_notification_is_silent :
    ¬ ∀ (context : Context) (disk : Disk) (octets : List UInt8) (before after : List (List Char))
      (line : List Char) (request : Request),
      inputLines octets = before ++ line :: after → IsNotification line request →
      output (serve context disk octets) =
        String.join (before.map (reply context disk)) ++
          String.join (after.map (reply context disk)) := by
  intro always
  have silent := always { root := "top" } {} _ [] [] _ _ ping_lines ping_is_notification
  rw [output_around_line ping_lines] at silent
  have empty : reply { root := "top" } {} pingLine = "" := by simpa using silent
  have method := ping_is_notification.silent_iff.mp (reply_eq_empty_iff.mp empty)
  exact absurd method (by decide)

end RouteManifest.Server
