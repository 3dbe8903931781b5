import Mathlib.Data.List.ReduceOption
import RouteManifest.Proofs.Json.Meaning
import RouteManifest.Proofs.Text.Lines
import RouteManifest.Proofs.Text.Octets
import RouteManifest.Proofs.Text.Trim
import RouteManifest.Server.Serve

/-!
How the server answers. Its input is cut into lines, up to the first one that is no text, and
its output is what it answers to each of these lines alone, in their order. An answer is empty
or one line with one object, and the object belongs to the request of that line.
-/

namespace RouteManifest.Server

open RouteManifest.Json (Document Numeral)

def withoutReturn (line : List UInt8) : List UInt8 :=
  if line.getLast? = some 0x0D then line.dropLast else line

/-- Octets are cut at every newline, a return in front of it is dropped, and what follows the
last newline is a line unless it is empty. -/
def CutsInto (octets : List UInt8) (lines : List (List UInt8)) : Prop :=
  ∃ (whole : List (List UInt8)) (tail : List UInt8),
    octets = whole.flatMap (· ++ [0x0A]) ++ tail ∧ (∀ line ∈ whole, 0x0A ∉ line) ∧ 0x0A ∉ tail ∧
      lines = whole.map withoutReturn ++ if tail = [] then [] else [tail]

theorem lines_cut (octets : List UInt8) : CutsInto octets (Text.lines 0x0A 0x0D octets) := by
  obtain ⟨joined, plain, plainTail⟩ := Text.split_lines_joined (0x0A : UInt8) octets
  refine ⟨_, _, joined, plain, plainTail, ?_⟩
  have dropped : Text.dropLast (0x0D : UInt8) = withoutReturn :=
    funext fun line => Text.drop_last_eq 0x0D line
  simp only [Text.lines, dropped, List.isEmpty_iff]

def encoded (line : List Char) : List UInt8 := Text.octets (String.ofList line)

theorem line_text_iff {octets : List UInt8} {line : List Char} :
    lineText? octets = some line ↔ octets = encoded line := by
  rw [lineText?, Option.map_eq_some_iff]
  constructor
  · rintro ⟨text, read, rfl⟩
    unfold String.fromUTF8? at read
    split at read
    · cases read
      rw [encoded, String.ofList_toList]
      rfl
    · cases read
  · rintro rfl
    refine ⟨String.ofList line, ?_, String.toList_ofList⟩
    unfold String.fromUTF8?
    exact dif_pos (String.ofList line).isValidUTF8

/-- Of some lines those are read that stand in front of the first one that is no text. -/
theorem read_lines_split (lines : List (List UInt8)) :
    ∃ unread, lines =
        ((lines.map lineText?).takeWhile Option.isSome).reduceOption.map encoded ++ unread ∧
      ∀ first ∈ unread.head?, ∀ text, first ≠ encoded text := by
  induction lines with
  | nil => exact ⟨[], rfl, by simp⟩
  | cons line lines induction =>
      cases read : lineText? line with
      | none =>
          refine ⟨line :: lines, by simp [read], ?_⟩
          rintro first same text rfl
          obtain rfl : line = encoded text := Option.some.inj same
          rw [line_text_iff.mpr rfl] at read
          cases read
      | some text =>
          obtain ⟨unread, split, stops⟩ := induction
          refine ⟨unread, ?_, stops⟩
          rw [List.map_cons, read, List.takeWhile_cons_of_pos rfl, List.reduceOption_cons_of_some,
            List.map_cons, List.cons_append, ← split, ← line_text_iff.mp read]

/-- The text is a request, and its field for an identifier is this one and is not null. -/
def HasId (text : List Char) (field : Document) : Prop :=
  (Request.ofText? text).isSome ∧ field ≠ .null ∧
    ∃ (document : Document) (method params : Option Document),
      Document.parse text = some document ∧
      document.fields? ["id", "method", "params"] = some [some field, method, params]

theorem optional_solid {Item : Type} {read : Document → Option Item} {document : Document}
    (solid : document ≠ .null) :
    Document.optional? read (some document) = (read document).map some := by
  cases document with
  | null => exact absurd rfl solid
  | _ => rfl

theorem optional_eq_some {Item : Type} {read : Document → Option Item} {field : Option Document}
    {item : Item} (taken : Document.optional? read field = some (some item)) :
    ∃ document, field = some document ∧ document ≠ .null := by
  unfold Document.optional? at taken
  split at taken
  · cases taken
  · cases taken
  · next document solid => exact ⟨document, rfl, solid⟩

theorem of_text_eq_some {text : List Char} {request : Request}
    (read : Request.ofText? text = some request) :
    ∃ document id method params, Document.parse text = some document ∧
      document.fields? ["id", "method", "params"] = some [id, method, params] ∧
      Document.optional? (Document.json? (Document.nestingLimit - 1)) id = some request.id := by
  obtain ⟨document, parsed, taken⟩ := Option.bind_eq_some_iff.mp read
  simp only [Request.ofDocument?, Option.bind_eq_bind, Option.bind_eq_some_iff,
    Option.pure_def] at taken
  obtain ⟨fields, cut, taken⟩ := taken
  split at taken
  · next id method params =>
      simp only [Option.bind_eq_some_iff] at taken
      obtain ⟨idValue, idTaken, _, -, _, -, _, -, same⟩ := taken
      cases same
      exact ⟨document, id, method, params, parsed, cut, idTaken⟩
  · cases taken

/-- The identifier is what is read from the field of the request, and there is none without it. -/
structure IsIdOf (text : List Char) (id : Option Json) : Prop where
  given : ∀ field, HasId text field →
    ∃ value, id = some value ∧ field.json? (Document.nestingLimit - 1) = some value
  field : id.isSome → ∃ field, HasId text field

theorem request_id {text : List Char} {request : Request}
    (read : Request.ofText? text = some request) : IsIdOf text request.id := by
  obtain ⟨document, id, method, params, parsed, fields, taken⟩ := of_text_eq_some read
  constructor
  · rintro field ⟨-, solid, other, otherMethod, otherParams, otherParsed, otherFields⟩
    obtain rfl : document = other := Option.some.inj (parsed.symm.trans otherParsed)
    obtain ⟨rfl, -⟩ := List.cons.inj (Option.some.inj (fields.symm.trans otherFields))
    rw [optional_solid solid] at taken
    obtain ⟨value, given, present⟩ := Option.map_eq_some_iff.mp taken
    exact ⟨value, present.symm, given⟩
  · intro present
    obtain ⟨value, same⟩ := Option.isSome_iff_exists.mp present
    rw [same] at taken
    obtain ⟨field, rfl, solid⟩ := optional_eq_some taken
    exact ⟨field, Option.isSome_of_eq_some read, solid, document, method, params, parsed, fields⟩

theorem no_request_id {text : List Char} (invalid : Request.ofText? text = none) :
    IsIdOf text none where
  given field has := by
    have valid := has.1
    rw [invalid] at valid
    cases valid
  field present := by cases present

/-- The response to a text: one object on one line, of this version, with a result or an error
and not both, and with an identifier if the request has one. The identifier is that of the request
up to its numbers, and it is the same value exactly when all of them are kept, as whole numbers of
64 bits are. A text that is no request gets an error with a code of its own. -/
structure IsResponse (text body : List Char) (members : List (Option String × Document)) :
    Prop where
  oneLine : '\n' ∉ body ∧ '\r' ∉ body
  isObject : Document.parse body = some (.object members)
  distinct : (members.map Prod.fst).Nodup
  version : members.lookup (some "jsonrpc") = some (.string (some "2.0"))
  outcome : (members.lookup (some "result")).isSome = !(members.lookup (some "error")).isSome
  id : (members.lookup (some "id")).isSome ↔ ∃ field, HasId text field
  idNotNull : members.lookup (some "id") ≠ some .null
  idEchoed : ∀ field, HasId text field → ∃ written, members.lookup (some "id") = some written ∧
    written.Echoes field ∧ (written.SameValue field ↔ field.AllNumbers Numeral.IsKept)
  wholeId : ∀ field, HasId text field → field.AllNumbers Numeral.IsStoredWhole →
    ∃ written, members.lookup (some "id") = some written ∧ written.SameValue field
  unreadable : Request.ofText? text = none → ∃ fault numeral,
    members.lookup (some "error") = some (.object fault) ∧
    fault.lookup (some "code") = some (.number numeral) ∧
    numeral.value? = some (.whole (-32700))

namespace Response

def documents (response : Response) : List (Option String × Document) :=
  Json.memberDocuments ([("jsonrpc", .string "2.0")] ++
    (response.id.map fun id => ("id", id)).toList ++
    match response.outcome with
    | .ok result => [("result", result)]
    | .error fault => [("error", fault.toJson)])

variable (response : Response)

theorem to_json_document : response.toJson.document = .object response.documents := rfl

theorem documents_distinct : (response.documents.map Prod.fst).Nodup := by
  obtain ⟨_ | id, fault | result⟩ := response
  · exact (by decide : [some "jsonrpc", some "error"].Nodup)
  · exact (by decide : [some "jsonrpc", some "result"].Nodup)
  · exact (by decide : [some "jsonrpc", some "id", some "error"].Nodup)
  · exact (by decide : [some "jsonrpc", some "id", some "result"].Nodup)

theorem documents_version :
    response.documents.lookup (some "jsonrpc") = some (.string (some "2.0")) := rfl

theorem documents_id :
    response.documents.lookup (some "id") = response.id.map Json.document := by
  obtain ⟨id, outcome⟩ := response
  cases id <;> cases outcome <;> rfl

theorem documents_outcome :
    (response.documents.lookup (some "result")).isSome =
      !(response.documents.lookup (some "error")).isSome := by
  obtain ⟨id, outcome⟩ := response
  cases id <;> cases outcome <;> rfl

theorem documents_error {fault : Fault} (failed : response.outcome = .error fault) :
    response.documents.lookup (some "error") = some fault.toJson.document := by
  obtain ⟨id, outcome⟩ := response
  cases failed
  cases id <;> rfl

end Response

theorem fault_code (fault : Fault) :
    ∃ members numeral, fault.toJson.document = .object members ∧
      members.lookup (some "code") = some (.number numeral) ∧
      numeral.value? = some (.whole fault.code) := by
  refine ⟨_, _, rfl, congrArg some (Json.number_document_whole fault.code), ?_⟩
  apply Json.numeral_value_written
  cases fault <;> simp [Json.IsStored, Fault.code]

theorem response_id_echoes {text : List Char} {response : Response} {field : Document}
    (isId : IsIdOf text response.id) (has : HasId text field) :
    ∃ written, response.documents.lookup (some "id") = some written ∧ written.Echoes field := by
  obtain ⟨value, same, read⟩ := isId.given field has
  refine ⟨value.document, ?_, Json.echoes_of_json read⟩
  rw [response.documents_id, same]
  rfl

/-- A response with the identifier of a request, if it has one, is the response to its text. -/
theorem is_response {text : List Char} {response : Response} (isId : IsIdOf text response.id)
    (unreadable : Request.ofText? text = none →
      ∃ reason, response.outcome = .error (.unreadable reason)) :
    IsResponse text response.toJson.write response.documents where
  oneLine := (Json.write_one_line response.toJson).no_line_end
  isObject := by rw [Json.parse_write, response.to_json_document]
  distinct := response.documents_distinct
  version := response.documents_version
  outcome := response.documents_outcome
  id := by
    rw [response.documents_id, Option.isSome_map]
    constructor
    · exact isId.field
    · rintro ⟨field, has⟩
      obtain ⟨value, same, -⟩ := isId.given field has
      exact Option.isSome_of_eq_some same
  idNotNull := by
    rw [response.documents_id, Ne, Option.map_eq_some_iff]
    rintro ⟨id, given, null⟩
    obtain ⟨field, has⟩ := isId.field (Option.isSome_of_eq_some given)
    obtain ⟨value, same, read⟩ := isId.given field has
    obtain rfl : value = id := Option.some.inj (same.symm.trans given)
    exact Json.document_not_null (Document.json_fits field read)
      (Document.json_not_null read has.2.1) null
  idEchoed field has := by
    obtain ⟨written, found, echoes⟩ := response_id_echoes isId has
    exact ⟨written, found, echoes, echoes.same_value_iff⟩
  wholeId field has whole := by
    obtain ⟨written, found, echoes⟩ := response_id_echoes isId has
    obtain ⟨meaning, means, all⟩ := whole
    have kept : field.AllNumbers Numeral.IsKept :=
      ⟨meaning, means, fun numeral inside => (all numeral inside).kept⟩
    exact ⟨written, found, echoes.same_value_iff.mpr kept⟩
  unreadable invalid := by
    obtain ⟨reason, failed⟩ := unreadable invalid
    obtain ⟨members, numeral, isObject, code, value⟩ := fault_code (.unreadable reason)
    refine ⟨members, numeral, ?_, code, value⟩
    rw [response.documents_error failed, isObject]

/-- The line gets no answer: it is blank or a certain notification. -/
def IsSilent (line : List Char) : Prop :=
  Text.isBlankText line = true ∨ ∃ request, Request.ofText? (Text.trim line) = some request ∧
    request.method = "notifications/initialized"

theorem respond_eq_none_iff {context : Context} {disk : Disk} {request : Request} :
    respond context disk request = none ↔ request.method = "notifications/initialized" := by
  unfold respond
  split <;> simp_all

section Answers

variable {context : Context} {disk : Disk} {line : List Char}

theorem answer_line_blank (blank : Text.isBlankText line = true) :
    answerLine context disk line = none := by
  simp [answerLine, Text.trim_eq_nil_iff.mpr blank]

theorem answer_line_unreadable (solid : Text.isBlankText line ≠ true)
    (invalid : Request.ofText? (Text.trim line) = none) :
    answerLine context disk line =
      some ⟨none, .error (.unreadable (context.complaint (Text.trim line)))⟩ := by
  have kept : ¬ (Text.trim line).isEmpty = true := fun empty =>
    solid (Text.trim_eq_nil_iff.mp (List.isEmpty_iff.mp empty))
  simp [answerLine, kept, invalid]

theorem answer_line_request {request : Request} (solid : Text.isBlankText line ≠ true)
    (read : Request.ofText? (Text.trim line) = some request) :
    answerLine context disk line =
      (respond context disk request).map fun outcome => { id := request.id, outcome } := by
  have kept : ¬ (Text.trim line).isEmpty = true := fun empty =>
    solid (Text.trim_eq_nil_iff.mp (List.isEmpty_iff.mp empty))
  simp [answerLine, kept, read]

theorem answer_line_silent (silent : IsSilent line) : answerLine context disk line = none := by
  by_cases blank : Text.isBlankText line = true
  · exact answer_line_blank blank
  · obtain ⟨request, read, notified⟩ := silent.resolve_left blank
    rw [answer_line_request blank read, respond_eq_none_iff.mpr notified]
    rfl

/-- Every other line is answered with the response to its text. -/
theorem answer_line_response (context : Context) (disk : Disk) (spoken : ¬ IsSilent line) :
    ∃ response, answerLine context disk line = some response ∧
      IsResponse (Text.trim line) response.toJson.write response.documents := by
  have solid : Text.isBlankText line ≠ true := fun blank => spoken (.inl blank)
  cases read : Request.ofText? (Text.trim line) with
  | none =>
      exact ⟨_, answer_line_unreadable solid read,
        is_response (no_request_id read) fun _ => ⟨_, rfl⟩⟩
  | some request =>
      have answered : respond context disk request ≠ none := fun none =>
        spoken (.inr ⟨request, read, respond_eq_none_iff.mp none⟩)
      obtain ⟨outcome, given⟩ := Option.ne_none_iff_exists'.mp answered
      refine ⟨{ id := request.id, outcome }, ?_, is_response (request_id read) ?_⟩
      · rw [answer_line_request solid read, given]
        rfl
      · intro invalid
        rw [read] at invalid
        cases invalid

end Answers

/-- What the server sends for one line, whatever other lines there are. -/
def reply (context : Context) (disk : Disk) (line : List Char) : String :=
  output (answerLine context disk line).toList

theorem reply_response {context : Context} {disk : Disk} {line : List Char} {response : Response}
    (answered : answerLine context disk line = some response) :
    reply context disk line = String.ofList response.toJson.write ++ "\n" := by
  rw [reply, answered]
  simp [output, Json.compact]

theorem output_filter_map (answer : List Char → Option Response) (lines : List (List Char)) :
    output (lines.filterMap answer) =
      String.join (lines.map fun line => output (answer line).toList) := by
  induction lines with
  | nil => rfl
  | cons line lines induction =>
      rw [List.map_cons, String.join_cons, ← induction, List.filterMap_cons]
      cases answer line with
      | none => simp [output]
      | some response => simp [output]

/-- The output of the server is what it sends for each line of its input that stands in front of
the first one that is no text. That is nothing for a silent line, and one line with the response
to its text for any other. -/
theorem serve_answers_line_by_line (context : Context) (disk : Disk) :
    (∀ octets, ∃ (lines : List (List Char)) (unread : List (List UInt8)),
      CutsInto octets (lines.map encoded ++ unread) ∧
      (∀ first ∈ unread.head?, ∀ text, first ≠ encoded text) ∧
      output (serve context disk octets) = String.join (lines.map (reply context disk))) ∧
    ∀ line, (IsSilent line → reply context disk line = "") ∧
      (¬ IsSilent line → ∃ body members,
        reply context disk line = String.ofList body ++ "\n" ∧
        IsResponse (Text.trim line) body members) := by
  constructor
  · intro octets
    obtain ⟨unread, split, stops⟩ := read_lines_split (Text.lines 0x0A 0x0D octets)
    refine ⟨inputLines octets, unread, ?_, stops, output_filter_map _ _⟩
    have cut := lines_cut octets
    rwa [split] at cut
  · intro line
    constructor
    · intro silent
      rw [reply, answer_line_silent silent]
      rfl
    · intro spoken
      obtain ⟨response, answered, isResponse⟩ := answer_line_response context disk spoken
      exact ⟨_, _, reply_response answered, isResponse⟩

/-- A call of the method `ping`, with more digits in its identifier than the reader keeps. -/
def fineLine : List Char :=
  "\x7b\"jsonrpc\":\"2.0\",\"id\":0.9452706955539223,\"method\":\"ping\"\x7d".toList

def fineNumeral : Numeral where
  negative := false
  whole := ['0']
  fraction := ['9', '4', '5', '2', '7', '0', '6', '9', '5', '5', '5', '3', '9', '2', '2', '3']
  exponent := none

def fineDocument : Document :=
  .object [(some "jsonrpc", .string (some "2.0")), (some "id", .number fineNumeral),
    (some "method", .string (some "ping"))]

theorem fine_line_parsed : Document.parse (Text.trim fineLine) = some fineDocument := by cbv

theorem fine_line_fields : fineDocument.fields? ["id", "method", "params"] =
    some [some (.number fineNumeral), some (.string (some "ping")), none] := rfl

theorem fine_line_read : ∃ request, Request.ofText? (Text.trim fineLine) = some request ∧
    request.method = "ping" := by
  have isNumber : fineNumeral.value?.isSome := by decide +kernel
  obtain ⟨number, value⟩ := Option.isSome_iff_exists.mp isNumber
  refine ⟨⟨some (.number number), "ping", .null⟩, ?_, rfl⟩
  simp [Request.ofText?, fine_line_parsed, Request.ofDocument?, fine_line_fields,
    Document.optional?, Document.json?, Document.string?, value]

theorem fine_numeral_not_kept : ¬ fineNumeral.IsKept := by
  have echo : fineNumeral.echo? = some { fineNumeral with fraction :=
      ['9', '4', '5', '2', '7', '0', '6', '9', '5', '5', '5', '3', '9', '2', '2', '4'] } := by
    decide +kernel
  rw [Numeral.IsKept, echo, Option.map_some, Option.some.injEq]
  norm_num [Numeral.exact, Numeral.power, fineNumeral, Number.digitsValue, Number.digitValue]
  decide

/-- Not every identifier is repeated as the same value. -/
theorem not_every_id_is_repeated :
    ¬ ∀ (context : Context) (disk : Disk) (line : List Char) (field : Document),
      ¬ IsSilent line → HasId (Text.trim line) field → ∃ body members written,
        reply context disk line = String.ofList body ++ "\n" ∧
        Document.parse body = some (.object members) ∧
        members.lookup (some "id") = some written ∧ written.SameValue field := by
  intro always
  obtain ⟨request, read, ping⟩ := fine_line_read
  have spoken : ¬ IsSilent fineLine := by
    rintro (blank | ⟨other, again, notified⟩)
    · exact absurd blank (by decide)
    · obtain rfl : request = other := Option.some.inj (read.symm.trans again)
      exact absurd (ping.symm.trans notified) (by decide)
  have has : HasId (Text.trim fineLine) (.number fineNumeral) :=
    ⟨Option.isSome_of_eq_some read, by simp, _, _, _, fine_line_parsed, fine_line_fields⟩
  obtain ⟨body, members, written, sent, isObject, found, same⟩ :=
    always { root := "top" } {} fineLine (.number fineNumeral) spoken has
  obtain ⟨response, answered, isResponse⟩ := answer_line_response { root := "top" } {} spoken
  have texts : body = response.toJson.write := by
    have line := sent.symm.trans (reply_response answered)
    simpa [String.ofList_inj] using line
  rw [texts, isResponse.isObject] at isObject
  cases isObject
  obtain ⟨echo, foundEcho, -, sameIff⟩ := isResponse.idEchoed _ has
  obtain rfl : echo = written := Option.some.inj (foundEcho.symm.trans found)
  obtain ⟨meaning, means, kept⟩ := sameIff.mp same
  cases means
  exact fine_numeral_not_kept (kept _ List.mem_cons_self)

end RouteManifest.Server
