import RouteManifest.Proofs.Discovery.Manifest
import RouteManifest.Server.Tools

/-!
What the two tools answer. Both read their arguments and then discover the endpoints, so their
answers are decided by the arguments and the manifest: the list selects from it by verb, and a
description is the one endpoint with a path and a verb. A discovery that fails is told by both.
-/

namespace RouteManifest.Server

open RouteManifest.Discovery

/-- A client gets these endpoints: one text with their pretty JSON, and no mark of an error. -/
structure Shows (answer : Json) (endpoints : List Endpoint) : Prop where
  content : answer.member? "content" = some (.array [.object
    [("text", .string (Endpoint.listToJson endpoints).pretty), ("type", .string "text")]])
  unmarked : answer.member? "isError" = none

/-- A client gets this text, marked as an error, and nothing else. -/
structure Complains (answer : Json) (text : String) : Prop where
  content : answer.member? "content" = some (.array [.object
    [("text", .string text), ("type", .string "text")]])
  marked : answer.member? "isError" = some (.bool true)

namespace Tools

theorem answer_shows (endpoints : List Endpoint) : Shows (answer (.ok endpoints)) endpoints :=
  ⟨rfl, rfl⟩

theorem answer_complains (fault : ToolFault) : Complains (answer (.error fault)) fault.message :=
  ⟨rfl, rfl⟩

theorem answer_unmarked_iff {result : Except ToolFault (List Endpoint)} :
    (answer result).member? "isError" = none ↔ ∃ endpoints, result = .ok endpoints := by
  cases result with
  | error fault => simp [(answer_complains fault).marked]
  | ok endpoints => simp [(answer_shows endpoints).unmarked]

def HasText (arguments : Json) (parameter text : String) : Prop :=
  arguments.member? parameter = some (.string text)

variable {context : Context} {disk : Disk} {arguments : Json} {manifest : List Endpoint}
  {path : String} {verb : Verb} {failure : Failure}

theorem text_eq_some_iff {parameter text : String} :
    text? arguments parameter = some text ↔ HasText arguments parameter text := by
  rw [text?, HasText, Option.bind_eq_some_iff]
  constructor
  · rintro ⟨value, member, read⟩
    cases value <;> simp_all [Json.string?]
  · intro has
    exact ⟨_, has, rfl⟩

theorem text_eq_none_iff {parameter : String} :
    text? arguments parameter = none ↔ ∀ text, ¬ HasText arguments parameter text := by
  simp only [Option.eq_none_iff_forall_ne_some, ne_eq, text_eq_some_iff]

theorem verb_of_text (has : HasText arguments "verb" verb.toText) :
    verb? arguments = .ok (some verb) := by
  rw [verb?, text_eq_some_iff.mpr has]
  simp only [Verb.of_text_to_text]

theorem verb_of_no_text (lacks : ∀ text, ¬ HasText arguments "verb" text) :
    verb? arguments = .ok none := by
  rw [verb?, text_eq_none_iff.mpr lacks]

theorem list_with_verb (has : HasText arguments "verb" verb.toText) :
    list context disk arguments =
      (endpoints context disk).map (List.filter fun endpoint => endpoint.verb == verb) := by
  rw [list, verb_of_text has]
  rfl

theorem list_without_verb (lacks : ∀ text, ¬ HasText arguments "verb" text) :
    list context disk arguments = endpoints context disk := by
  rw [list, verb_of_no_text lacks]
  rfl

theorem describe_eq (hasPath : HasText arguments "path" path)
    (hasVerb : HasText arguments "verb" verb.toText) :
    describe context disk arguments = (endpoints context disk).bind fun manifest =>
      match manifest.find? fun endpoint => endpoint.key == (path, verb) with
      | some endpoint => .ok [endpoint]
      | none => .error (.noEndpoint verb path) := by
  rw [describe, verb_of_text hasVerb, text_eq_some_iff.mpr hasPath]
  rfl

theorem describe_of_mem {endpoint : Endpoint}
    (discovered : discover disk context.settings context.root = .ok manifest)
    (member : endpoint ∈ manifest) (hasPath : HasText arguments "path" endpoint.path)
    (hasVerb : HasText arguments "verb" endpoint.verb.toText) :
    describe context disk arguments = .ok [endpoint] := by
  have only := filter_key_of_mem (discover_keys_nodup discovered) member
  have found : manifest.find? (fun other => other.key == endpoint.key) = some endpoint := by
    rw [← List.head?_filter, only, List.head?_cons]
  rw [describe_eq hasPath hasVerb, endpoints, discovered]
  simp only [Except.bind, ← Endpoint.key.eq_def, found]

theorem describe_ok_iff (discovered : discover disk context.settings context.root = .ok manifest)
    (hasPath : HasText arguments "path" path) (hasVerb : HasText arguments "verb" verb.toText) :
    (∃ described, describe context disk arguments = .ok described) ↔
      ∃ endpoint ∈ manifest, endpoint.path = path ∧ endpoint.verb = verb := by
  constructor
  · rintro ⟨described, succeeded⟩
    rw [describe_eq hasPath hasVerb, endpoints, discovered] at succeeded
    simp only [Except.bind] at succeeded
    split at succeeded
    · next endpoint found =>
        have same := List.find?_some found
        exact ⟨endpoint, List.mem_of_find?_eq_some found, Prod.mk.inj (beq_iff_eq.mp same)⟩
    · cases succeeded
  · rintro ⟨endpoint, member, rfl, rfl⟩
    exact ⟨_, describe_of_mem discovered member hasPath hasVerb⟩

theorem endpoints_of_ok (discovered : discover disk context.settings context.root = .ok manifest) :
    endpoints context disk = .ok manifest := by
  rw [endpoints, discovered]

theorem endpoints_of_error
    (failed : discover disk context.settings context.root = .error failure) :
    endpoints context disk = .error (.discovery failure) := by
  rw [endpoints, failed]

theorem list_of_error (failed : discover disk context.settings context.root = .error failure)
    (valid : ∀ text, HasText arguments "verb" text → ∃ verb : Verb, text = verb.toText) :
    list context disk arguments = .error (.discovery failure) := by
  cases written : text? arguments "verb" with
  | none => rw [list_without_verb (text_eq_none_iff.mp written), endpoints_of_error failed]
  | some text =>
      have has := text_eq_some_iff.mp written
      obtain ⟨verb, rfl⟩ := valid text has
      rw [list_with_verb has, endpoints_of_error failed]
      rfl

/-- The answers of the two tools agree with the discovery at the time of the call, and with each
other. From a manifest the list gives the endpoints with the verb that is asked for, in their
order, or all of them when no verb is given, and a description succeeds exactly for the path and
the verb of an endpoint, which is the only one that has both. A discovery that fails makes both
complain with its message. -/
theorem tools_agree_with_discovery (context : Context) (disk : Disk) (arguments : Json) :
    let found := discover disk context.settings context.root
    let listed := answer (call context disk ⟨"endpoints_list", arguments⟩)
    let described := answer (call context disk ⟨"endpoints_describe", arguments⟩)
    (∀ manifest, found = .ok manifest →
      (∀ verb : Verb, HasText arguments "verb" verb.toText →
        Shows listed (manifest.filter fun endpoint => endpoint.verb == verb)) ∧
      ((∀ text, ¬ HasText arguments "verb" text) → Shows listed manifest) ∧
      ∀ (path : String) (verb : Verb),
        HasText arguments "path" path → HasText arguments "verb" verb.toText →
        (described.member? "isError" = none ↔
          ∃ endpoint ∈ manifest, endpoint.path = path ∧ endpoint.verb = verb) ∧
        ∀ endpoint ∈ manifest, endpoint.path = path → endpoint.verb = verb →
          Shows described [endpoint] ∧
          manifest.filter (fun other => other.path == path && other.verb == verb) = [endpoint]) ∧
    ∀ failure, found = .error failure →
      ((∀ text, HasText arguments "verb" text → ∃ verb : Verb, text = verb.toText) →
        Complains listed failure.message) ∧
      ∀ (path : String) (verb : Verb),
        HasText arguments "path" path → HasText arguments "verb" verb.toText →
        Complains described failure.message := by
  intro found listed described
  have lists : listed = answer (list context disk arguments) := rfl
  have describes : described = answer (describe context disk arguments) := rfl
  constructor
  · intro manifest discovered
    refine ⟨?_, ?_, ?_⟩
    · intro verb hasVerb
      rw [lists, list_with_verb hasVerb, endpoints_of_ok discovered]
      exact answer_shows _
    · intro lacks
      rw [lists, list_without_verb lacks, endpoints_of_ok discovered]
      exact answer_shows manifest
    · intro path verb hasPath hasVerb
      constructor
      · rw [describes, answer_unmarked_iff]
        exact describe_ok_iff discovered hasPath hasVerb
      · rintro endpoint member rfl rfl
        rw [describes, describe_of_mem discovered member hasPath hasVerb]
        exact ⟨answer_shows _, filter_key_of_mem (discover_keys_nodup discovered) member⟩
  · intro failure failed
    constructor
    · intro valid
      rw [lists, list_of_error failed valid]
      exact answer_complains _
    · intro path verb hasPath hasVerb
      rw [describes, describe_eq hasPath hasVerb, endpoints_of_error failed]
      exact answer_complains _

def cartEndpoint : Endpoint := { path := "magic/modules/shop/cart", verb := .put }

def itemsEndpoint : Endpoint := { path := "magic/modules/shop/items", verb := .get }

def cartArguments : Json :=
  .object [("path", .string cartEndpoint.path), ("verb", .string cartEndpoint.verb.toText)]

def missingFolder : Failure := .access "top/modules" (.enumerating "top/modules" .notFound)

theorem discover_nothing : discover {} {} "top" = .error missingFolder := by
  have pieces : Disk.piecesOf "top/modules" = .ok ["top", "modules"] := rfl
  have walked : Disk.walk {} [] Disk.linkLimit ["top"] = .error .notFound := by
    rw [Disk.walk]
    rfl
  have missing : Disk.findLink {} "top/modules" = .error .notFound := by
    rw [Disk.findLink, pieces]
    change Except.bind (Disk.walk {} [] Disk.linkLimit ["top"]) _ = _
    rw [walked]
    rfl
  have base : (ScanPlan.ofSettings "top" {}).base = "top/modules" := by decide
  have visited : (ScanPlan.ofSettings "top" {}).visit {} .base = .failed missingFolder := by
    rw [ScanPlan.visit, ScanPlan.visitBase, base, missing]
    rfl
  have stepped : Scan.start.next (ScanPlan.ofSettings "top" {}) {} false =
      (some (.error missingFolder), .finished) := by
    rw [Scan.start, Scan.next_going, Scan.advance]
    split <;> simp_all
  have failed : run (Disk.loader {}) false {} {} "top" = (.error missingFolder, false) :=
    gather_of_next_error stepped
  rw [discover, discoverWith, failed]

/-- The shop is listed as a whole and by verb, its cart is described, and an empty file system
has no answer but the failure. -/
theorem tools_agree_on_shop :
    discover shopDisk {} "top" = .ok [cartEndpoint, itemsEndpoint] ∧
    Shows (answer (call { root := "top" } shopDisk ⟨"endpoints_list", .null⟩))
      [cartEndpoint, itemsEndpoint] ∧
    Shows (answer (call { root := "top" } shopDisk ⟨"endpoints_list", cartArguments⟩))
      [cartEndpoint] ∧
    Shows (answer (call { root := "top" } shopDisk ⟨"endpoints_describe", cartArguments⟩))
      [cartEndpoint] ∧
    Complains (answer (call { root := "top" } {} ⟨"endpoints_describe", cartArguments⟩))
      ("I/O error at top/modules: IO error for operation on top/modules: " ++
        "No such file or directory (os error 2)") := by
  have discovered : discover shopDisk {} "top" = .ok [cartEndpoint, itemsEndpoint] :=
    discover_shop "magic"
  refine ⟨discovered, ?_, ?_, ?_, ?_⟩
  · have agree := (tools_agree_with_discovery { root := "top" } shopDisk .null).1 _ discovered
    exact agree.2.1 fun text has => by cases has
  · have agree :=
      (tools_agree_with_discovery { root := "top" } shopDisk cartArguments).1 _ discovered
    exact agree.1 .put rfl
  · have agree :=
      (tools_agree_with_discovery { root := "top" } shopDisk cartArguments).1 _ discovered
    exact ((agree.2.2 _ .put rfl rfl).2 cartEndpoint List.mem_cons_self rfl rfl).1
  · have agree :=
      (tools_agree_with_discovery { root := "top" } {} cartArguments).2 _ discover_nothing
    exact agree.2 _ .put rfl rfl

end Tools

end RouteManifest.Server
