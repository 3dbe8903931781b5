import Mathlib.Data.List.Induction
import RouteManifest.Exchange
import RouteManifest.Proofs.Json.Record

/-!
Requests built call by call. Whatever the order of the calls, the request holds the last payload
and the last value of each key, so calls that end up with the same values build the same request.
It is read back from its text as it was built, but a payload that is null cannot be told from one
that is absent.
-/

namespace RouteManifest

open RouteManifest.Json (Document)

namespace TextMap

theorem string_map_document {map : TextMap} (sorted : KeysSorted map) :
    map.toJson.document.stringMap? = some map := by
  rw [toJson, Json.document, Document.stringMap?, Json.member_documents_eq, List.map_map,
    Json.mapM_read_back]
  · simp [sorted_members_of_keys sorted]
  · exact fun _ _ => rfl

end TextMap

namespace HttpRequest

/-- A call that sets a part of a request. -/
inductive Call
  | payload (payload : Json)
  | query (key value : String)
  | header (key value : String)

namespace Call

def payload? : Call → Option Json
  | .payload value => some value
  | _ => none

def query? : Call → Option (String × String)
  | .query key value => some (key, value)
  | _ => none

def header? : Call → Option (String × String)
  | .header key value => some (key, value)
  | _ => none

end Call

def call (request : HttpRequest) : Call → HttpRequest
  | .payload payload => request.withPayload payload
  | .query key value => request.withQuery key value
  | .header key value => request.withHeader key value

def build (route : String) (verb : Verb) (calls : List Call) : HttpRequest :=
  calls.foldl call { route, verb }

def lastPayload (calls : List Call) : Option Json := (calls.filterMap Call.payload?).getLast?

def lastQuery (calls : List Call) (key : String) : Option String :=
  (calls.filterMap Call.query?).reverse.lookup key

def lastHeader (calls : List Call) (key : String) : Option String :=
  (calls.filterMap Call.header?).reverse.lookup key

theorem mem_of_last_payload {calls : List Call} {value : Json}
    (last : value ∈ lastPayload calls) : .payload value ∈ calls := by
  obtain ⟨call, member, sets⟩ := List.mem_filterMap.mp (List.mem_of_getLast? last)
  cases call with
  | payload other =>
      obtain rfl := Option.some.inj sets
      exact member
  | query key value => cases sets
  | header key value => cases sets

theorem build_concat (route : String) (verb : Verb) (calls : List Call) (last : Call) :
    build route verb (calls ++ [last]) = (build route verb calls).call last :=
  List.foldl_concat ..

/-- A request holds the last values that were set. -/
theorem build_eq (route : String) (verb : Verb) (calls : List Call) :
    build route verb calls =
      { route, verb
        payload := lastPayload calls
        query := sortedMembers (calls.filterMap Call.query?)
        headers := sortedMembers (calls.filterMap Call.header?) } := by
  induction calls using List.reverseRecOn with
  | nil => rfl
  | append_singleton calls last induction =>
      rw [build_concat, induction]
      cases last with
      | payload payload =>
          simp [call, withPayload, lastPayload, Call.payload?, Call.query?, Call.header?,
            List.filterMap_cons]
      | query key value =>
          simp [call, withQuery, lastPayload, Call.payload?, Call.query?, Call.header?,
            List.filterMap_cons, sorted_members_concat]
      | header key value =>
          simp [call, withHeader, lastPayload, Call.payload?, Call.query?, Call.header?,
            List.filterMap_cons, sorted_members_concat]

/-- Two sequences of calls with the same last values. -/
structure SameLast (calls others : List Call) : Prop where
  payload : lastPayload calls = lastPayload others
  query : ∀ key, lastQuery calls key = lastQuery others key
  header : ∀ key, lastHeader calls key = lastHeader others key

theorem build_of_same_last {calls others : List Call} (same : SameLast calls others)
    (route : String) (verb : Verb) : build route verb calls = build route verb others := by
  have query := sorted_members_of_same_last same.query
  have headers := sorted_members_of_same_last same.header
  rw [build_eq, build_eq, same.payload, query, headers]

/-- The payload that is read back: null comes back as absent. -/
def givenBack : Option Json → Option Json
  | some .null => none
  | payload => payload

def record (request : HttpRequest) : List (String × Option Json) :=
  [("route", some (.string request.route)), ("verb", some (.string request.verb.toText)),
    ("payload", request.payload), ("query", some request.query.toJson),
    ("headers", some request.headers.toJson)]

theorem to_json_eq (request : HttpRequest) : request.toJson = .object (present request.record) := by
  simp [toJson, record, present]

theorem payload_document {payload : Option Json}
    (fits : ∀ value ∈ payload, value.Fits 100 ∧ value.IsExact) :
    Document.optional? freeJson? (payload.map Json.document) = some (givenBack payload) := by
  cases payload with
  | none => rfl
  | some value =>
      by_cases null : value = .null
      · subst null
        rfl
      · obtain ⟨fit, exact⟩ := fits value rfl
        have deeper : value.Fits (Document.nestingLimit - 1) := fit.mono (by decide)
        have kept : givenBack (some value) = some value := by
          rw [givenBack]
          rintro ⟨⟩
          exact null rfl
        rw [kept, Option.map_some, Document.optional?, freeJson?,
          Json.json_document value deeper exact]
        · rfl
        · exact Json.document_not_null deeper null

theorem of_document {request : HttpRequest}
    (fits : ∀ value ∈ request.payload, value.Fits 100 ∧ value.IsExact)
    (query : KeysSorted request.query) (headers : KeysSorted request.headers) :
    ofDocument? request.toJson.document =
      some { request with payload := givenBack request.payload } := by
  have found : Document.fields? ["route", "verb", "payload", "query", "headers"]
      (Json.object (present request.record)).document = _ :=
    Document.fields_present request.record
      (by decide : ["route", "verb", "payload", "query", "headers"].Nodup)
  have route : (Json.string request.route).document.string? = some request.route := rfl
  have verb : Document.word? Verb.ofText? (Json.string request.verb.toText).document =
      some request.verb := Verb.of_text_to_text request.verb
  rw [to_json_eq, ofDocument?, found]
  simp only [record, List.map_cons, List.map_nil, Option.map_some, Option.bind_eq_bind,
    Option.bind_some, Option.pure_def, route, verb, payload_document fits, TextMap.ofDocument?,
    TextMap.string_map_document query, TextMap.string_map_document headers]

/-- A request with the last values of the calls. -/
structure HoldsLast (route : String) (verb : Verb) (calls : List Call) (request : HttpRequest) :
    Prop where
  route : request.route = route
  verb : request.verb = verb
  payload : request.payload = givenBack (lastPayload calls)
  query : KeysSorted request.query ∧ ∀ key, request.query.lookup key = lastQuery calls key
  headers : KeysSorted request.headers ∧ ∀ key, request.headers.lookup key = lastHeader calls key

/-- A request is read back from its text with the last values that were set, and its text depends
on these values only. The payloads nest at most a hundred containers, their numbers are whole, and
their objects hold each key once, in order. -/
theorem built_request_read_back (route : String) (verb : Verb) (calls : List Call)
    (fits : ∀ value, .payload value ∈ calls → value.Fits 100 ∧ value.IsExact) :
    (∃ back, ofJsonText? (build route verb calls).toJson.compact = some back ∧
      HoldsLast route verb calls back) ∧
    ∀ others, SameLast calls others →
      (build route verb calls).toJson.compact = (build route verb others).toJson.compact := by
  have last : ∀ value ∈ lastPayload calls, value.Fits 100 ∧ value.IsExact :=
    fun value member => fits value (mem_of_last_payload member)
  have query := sorted_members_keys (calls.filterMap Call.query?)
  have headers := sorted_members_keys (calls.filterMap Call.header?)
  constructor
  · rw [build_eq, ofJsonText?, Json.compact, String.toList_ofList, Json.parse_write]
    exact ⟨_, of_document last query headers, rfl, rfl, rfl, ⟨query, lookup_sorted_members _⟩,
      ⟨headers, lookup_sorted_members _⟩⟩
  · intro others same
    rw [build_of_same_last same]

def samplePayload : Json :=
  .object [("a", .array [.number (.whole (-0x8000000000000000)), .object []]),
    ("b", .number (.whole 0xFFFFFFFFFFFFFFFF))]

theorem sample_payload_fits : samplePayload.Fits 100 ∧ samplePayload.IsExact := by
  have least : (Json.number (.whole (-0x8000000000000000))).Fits 98 := ⟨by decide, by decide⟩
  have greatest : (Json.number (.whole 0xFFFFFFFFFFFFFFFF)).Fits 99 := ⟨by decide, by decide⟩
  have empty : (Json.object []).Fits 98 := ⟨by decide, .nil, trivial⟩
  have order : "a" < "b" := by decide
  exact ⟨⟨by decide, List.pairwise_pair.mpr order, ⟨by decide, least, empty, trivial⟩, greatest,
    trivial⟩, ⟨trivial, trivial, trivial⟩, trivial, trivial⟩

def sampleCalls : List Call :=
  [.query "limit" "5", .payload .null, .header "Authorization" "Bearer \"t\"", .query "" "\n",
    .payload samplePayload, .header "authorization" "", .query "limit" "50"]

theorem sample_request_read_back :
    (∀ value, .payload value ∈ sampleCalls → value.Fits 100 ∧ value.IsExact) ∧
    ∃ back, ofJsonText? (build "modules/a" .post sampleCalls).toJson.compact = some back ∧
      HoldsLast "modules/a" .post sampleCalls back := by
  have fits : ∀ value, .payload value ∈ sampleCalls → value.Fits 100 ∧ value.IsExact := by
    intro value member
    simp only [sampleCalls, List.mem_cons, reduceCtorEq, Call.payload.injEq, false_or, or_false,
      List.not_mem_nil] at member
    rcases member with rfl | rfl
    · exact ⟨trivial, trivial⟩
    · exact sample_payload_fits
  exact ⟨fits, (built_request_read_back _ _ _ fits).1⟩

end HttpRequest

end RouteManifest
