import RouteManifest.Discovery
import RouteManifest.Proofs.Scan.Survey

/-!
How a discovery ends. A scan gives its files one by one, and a discovery passes a file when
nobody has asked to stop, the loader gives its script, and no earlier endpoint has the key of
its endpoint. The first file that is not passed decides the failure, and a request to stop
after the last file is a failure too. The calls of the loader are read off a loader that
writes them down.
-/

namespace RouteManifest

open RouteManifest.Script (Node)

variable {State : Type}

namespace Loader

/-- The same loader, which also notes every path that it is asked for. -/
def recorded (loader : Loader State) : Loader (State × List String) where
  load path state :=
    (loader.load path state.1).map fun loaded => (loaded.1, loaded.2, state.2 ++ [path])
  afterFailure path state := (loader.afterFailure path state.1, state.2 ++ [path])
  cancelled state := loader.cancelled state.1

theorem recorded_load_ok {loader : Loader State} {path : String} {state after : State}
    {script : Node} (loads : loader.load path state = .ok (script, after)) (log : List String) :
    loader.recorded.load path (state, log) = .ok (script, after, log ++ [path]) := by
  simp [recorded, loads, Except.map]

theorem recorded_load_error {loader : Loader State} {path : String} {state : State}
    {failure : Failure} (fails : loader.load path state = .error failure) (log : List String) :
    loader.recorded.load path (state, log) = .error failure := by
  simp [recorded, fails, Except.map]

end Loader

namespace Discovery

/-- The paths that a discovery asks its loader for, in the order of the calls. -/
def calls (loader : Loader State) (state : State) (disk : Disk) (settings : Settings)
    (root : String) : List String :=
  (run loader.recorded (state, []) disk settings root).2.2

/-- A discovery has gone past some files, with these endpoints and this state of the loader. -/
inductive Passed (loader : Loader State) (settings : Settings) (start : State) :
    List ScriptFile → List Endpoint → State → Prop
  | none : Passed loader settings start [] [] start
  | next {front : List ScriptFile} {file : ScriptFile} {endpoints : List Endpoint}
      {state after : State} {script : Node}
      (before : Passed loader settings start front endpoints state)
      (going : loader.cancelled state = false)
      (loads : loader.load file.path state = .ok (script, after))
      (fresh : (describeFile settings file script).key ∉ endpoints.map Endpoint.key) :
      Passed loader settings start (front ++ [file])
        (endpoints ++ [describeFile settings file script]) after

/-- The result over a list of files, with the files that were loaded and the last state. -/
inductive Ending (loader : Loader State) (settings : Settings) (start : State)
    (files : List ScriptFile) :
    List ScriptFile → Except Failure (List Endpoint) → State → Prop
  | stopped {front rest : List ScriptFile} {endpoints : List Endpoint} {state : State}
      (split : files = front ++ rest)
      (before : Passed loader settings start front endpoints state)
      (asked : loader.cancelled state = true) :
      Ending loader settings start files front (.error .cancelled) state
  | refused {front rest : List ScriptFile} {file : ScriptFile} {endpoints : List Endpoint}
      {state : State} {failure : Failure}
      (split : files = front ++ file :: rest)
      (before : Passed loader settings start front endpoints state)
      (going : loader.cancelled state = false)
      (fails : loader.load file.path state = .error failure) :
      Ending loader settings start files (front ++ [file]) (.error failure)
        (loader.afterFailure file.path state)
  | repeated {front rest : List ScriptFile} {file : ScriptFile} {endpoints : List Endpoint}
      {state after : State} {script : Node}
      (split : files = front ++ file :: rest)
      (before : Passed loader settings start front endpoints state)
      (going : loader.cancelled state = false)
      (loads : loader.load file.path state = .ok (script, after))
      (known : (describeFile settings file script).key ∈ endpoints.map Endpoint.key) :
      Ending loader settings start files (front ++ [file])
        (.error (.duplicate (endpointPath settings.routeSpace file.route) file.verb.toText)) after
  | complete {endpoints : List Endpoint} {state : State}
      (before : Passed loader settings start files endpoints state)
      (going : loader.cancelled state = false) :
      Ending loader settings start files files (.ok endpoints) state

variable {loader : Loader State} {settings : Settings} {start : State}

section Steps

variable {plan : ScanPlan} {disk : Disk} {taken : List (String × Verb)} {agenda : List Visit}
  {others : List (Except Failure ScriptFile)} {file : ScriptFile} {state after : State}
  {script : Node}

theorem gather_of_next_none {scan later : Scan}
    (stepped : scan.next plan disk (loader.cancelled state) = (none, later)) :
    gather settings loader plan disk taken scan state = (.ok [], state) := by
  rw [gather]
  split <;> simp_all

theorem gather_of_next_error {scan later : Scan} {failure : Failure}
    (stepped : scan.next plan disk (loader.cancelled state) = (some (.error failure), later)) :
    gather settings loader plan disk taken scan state = (.error failure, state) := by
  rw [gather]
  split <;> simp_all

theorem gather_of_next_ok {scan later : Scan}
    (stepped : scan.next plan disk (loader.cancelled state) = (some (.ok file), later)) :
    gather settings loader plan disk taken scan state =
      match loader.call file.path state with
      | (.error failure, after) => (.error failure, after)
      | (.ok script, after) =>
          let endpoint := describeFile settings file script
          if taken.contains endpoint.key then
            (.error (.duplicate endpoint.path endpoint.verb.toText), after)
          else
            withEndpoint endpoint
              (gather settings loader plan disk (endpoint.key :: taken) later after) := by
  rw [gather]
  split
  · simp_all
  · simp_all
  · next found =>
      rw [stepped] at found
      cases found
      rfl

theorem gather_asked (asked : loader.cancelled state = true) :
    gather settings loader plan disk taken (.underway agenda) state =
      (.error .cancelled, state) := by
  apply gather_of_next_error
  rw [asked]
  exact Scan.next_cancelled agenda

theorem gather_nothing (going : loader.cancelled state = false)
    (listed : (Scan.underway agenda).rest plan disk false = []) :
    gather settings loader plan disk taken (.underway agenda) state = (.ok [], state) := by
  obtain ⟨later, stepped⟩ := Scan.next_of_listed_nil listed
  rw [← going] at stepped
  exact gather_of_next_none stepped

theorem gather_refused {failure : Failure} (going : loader.cancelled state = false)
    (listed : (Scan.underway agenda).rest plan disk false = .ok file :: others)
    (fails : loader.load file.path state = .error failure) :
    gather settings loader plan disk taken (.underway agenda) state =
      (.error failure, loader.afterFailure file.path state) := by
  obtain ⟨remaining, stepped, -⟩ := Scan.next_of_listed_cons listed
  rw [← going] at stepped
  rw [gather_of_next_ok stepped, Loader.call, fails]

theorem gather_repeated (going : loader.cancelled state = false)
    (listed : (Scan.underway agenda).rest plan disk false = .ok file :: others)
    (loads : loader.load file.path state = .ok (script, after))
    (known : (describeFile settings file script).key ∈ taken) :
    gather settings loader plan disk taken (.underway agenda) state =
      (.error (.duplicate (endpointPath settings.routeSpace file.route) file.verb.toText),
        after) := by
  obtain ⟨remaining, stepped, -⟩ := Scan.next_of_listed_cons listed
  rw [← going] at stepped
  rw [gather_of_next_ok stepped, Loader.call, loads]
  simp only [List.contains_iff_mem.mpr known, if_true]
  rfl

theorem gather_passed (going : loader.cancelled state = false)
    (listed : (Scan.underway agenda).rest plan disk false = .ok file :: others)
    (loads : loader.load file.path state = .ok (script, after))
    (fresh : (describeFile settings file script).key ∉ taken) :
    ∃ remaining, (Scan.underway remaining).rest plan disk false = others ∧
      gather settings loader plan disk taken (.underway agenda) state =
        withEndpoint (describeFile settings file script)
          (gather settings loader plan disk ((describeFile settings file script).key :: taken)
            (.underway remaining) after) := by
  obtain ⟨remaining, stepped, later⟩ := Scan.next_of_listed_cons listed
  rw [← going] at stepped
  refine ⟨remaining, later, ?_⟩
  rw [gather_of_next_ok stepped, Loader.call, loads]
  simp [fresh]

end Steps

section Runs

variable {plan : ScanPlan} {disk : Disk} {agenda : List Visit} {front rest : List ScriptFile}
  {endpoints : List Endpoint} {state : State}

theorem gather_of_passed (before : Passed loader settings start front endpoints state)
    (listed : (Scan.underway agenda).rest plan disk false = (front ++ rest).map .ok) :
    ∃ remaining, (Scan.underway remaining).rest plan disk false = rest.map .ok ∧
      gather settings loader plan disk [] (.underway agenda) start =
        endpoints.foldr withEndpoint
          (gather settings loader plan disk (endpoints.map Endpoint.key).reverse
            (.underway remaining) state) := by
  induction before generalizing rest with
  | none => exact ⟨agenda, listed, rfl⟩
  | @next front file endpoints state after script before going loads fresh induction =>
      rw [List.append_assoc, List.singleton_append] at listed
      obtain ⟨remaining, listed, gathered⟩ := induction listed
      have fresh_taken : (describeFile settings file script).key ∉
          (endpoints.map Endpoint.key).reverse := by simpa using fresh
      obtain ⟨remaining, listed, stepped⟩ := gather_passed going listed loads fresh_taken
      refine ⟨remaining, listed, ?_⟩
      rw [gathered, stepped, List.foldr_append]
      simp

theorem fold_with_endpoint_error (endpoints : List Endpoint) (failure : Failure) (state : State) :
    endpoints.foldr withEndpoint (.error failure, state) = (.error failure, state) := by
  induction endpoints with
  | nil => rfl
  | cons endpoint endpoints induction => rw [List.foldr_cons, induction]; rfl

theorem fold_with_endpoint_ok (endpoints others : List Endpoint) (state : State) :
    endpoints.foldr withEndpoint (.ok others, state) = (.ok (endpoints ++ others), state) := by
  induction endpoints with
  | nil => rfl
  | cons endpoint endpoints induction => rw [List.foldr_cons, induction]; rfl

theorem gather_of_ending {files loaded : List ScriptFile}
    {result : Except Failure (List Endpoint)}
    (ending : Ending loader settings start files loaded result state)
    (listed : (Scan.underway agenda).rest plan disk false = files.map .ok) :
    gather settings loader plan disk [] (.underway agenda) start = (result, state) := by
  cases ending with
  | stopped split before asked =>
      subst split
      obtain ⟨remaining, -, gathered⟩ := gather_of_passed before listed
      rw [gathered, gather_asked asked, fold_with_endpoint_error]
  | refused split before going fails =>
      subst split
      obtain ⟨remaining, listed, gathered⟩ := gather_of_passed before listed
      rw [gathered, gather_refused going listed fails, fold_with_endpoint_error]
  | @repeated front rest file endpoints state after script split before going loads known =>
      subst split
      obtain ⟨remaining, listed, gathered⟩ := gather_of_passed before listed
      have known_taken : (describeFile settings file script).key ∈
          (endpoints.map Endpoint.key).reverse := by simpa using known
      rw [gathered, gather_repeated going listed loads known_taken, fold_with_endpoint_error]
  | complete before going =>
      rw [← List.append_nil files] at listed
      obtain ⟨remaining, listed, gathered⟩ := gather_of_passed before listed
      rw [gathered, gather_nothing going listed, fold_with_endpoint_ok, List.append_nil]

/-- Whatever the loader does, a discovery comes to one of its endings. -/
theorem ending_exists_of_passed (before : Passed loader settings start front endpoints state)
    (rest : List ScriptFile) :
    ∃ loaded result final, Ending loader settings start (front ++ rest) loaded result final := by
  induction rest generalizing front endpoints state with
  | nil =>
      rw [List.append_nil]
      cases going : loader.cancelled state with
      | true => exact ⟨_, _, _, .stopped (List.append_nil front).symm before going⟩
      | false => exact ⟨_, _, _, .complete before going⟩
  | cons file rest induction =>
      cases going : loader.cancelled state with
      | true => exact ⟨_, _, _, .stopped rfl before going⟩
      | false =>
          cases loads : loader.load file.path state with
          | error failure => exact ⟨_, _, _, .refused rfl before going loads⟩
          | ok loaded =>
              obtain ⟨script, after⟩ := loaded
              by_cases known :
                  (describeFile settings file script).key ∈ endpoints.map Endpoint.key
              · exact ⟨_, _, _, .repeated rfl before going loads known⟩
              · have later := induction (.next before going loads known)
                rwa [List.append_assoc, List.singleton_append] at later

end Runs

theorem Passed.recorded {front : List ScriptFile} {endpoints : List Endpoint} {state : State}
    (passed : Passed loader settings start front endpoints state) :
    Passed loader.recorded settings (start, []) front endpoints
      (state, front.map ScriptFile.path) := by
  induction passed with
  | none => exact .none
  | next before going loads fresh induction =>
      rw [List.map_append]
      exact .next induction going (Loader.recorded_load_ok loads _) fresh

/-- A loader that writes its calls down comes to the same end, with one call for every file. -/
theorem Ending.recorded {files loaded : List ScriptFile}
    {result : Except Failure (List Endpoint)} {final : State}
    (ending : Ending loader settings start files loaded result final) :
    Ending loader.recorded settings (start, []) files loaded result
      (final, loaded.map ScriptFile.path) := by
  cases ending with
  | stopped split before asked => exact .stopped split before.recorded asked
  | @refused front rest file _ state _ split before going fails =>
      rw [List.map_append]
      exact .refused split before.recorded going
        (Loader.recorded_load_error fails (front.map ScriptFile.path))
  | repeated split before going loads known =>
      rw [List.map_append]
      exact .repeated split before.recorded going (Loader.recorded_load_ok loads _) known
  | complete before going => exact .complete before.recorded going

theorem Passed.keys_nodup {front : List ScriptFile} {endpoints : List Endpoint} {state : State}
    (passed : Passed loader settings start front endpoints state) :
    (endpoints.map Endpoint.key).Nodup := by
  induction passed with
  | none => exact List.nodup_nil
  | next before going loads fresh induction =>
      rw [List.map_append, List.nodup_append]
      refine ⟨induction, by simp, ?_⟩
      intro key member other last same
      rw [List.map_singleton, List.mem_singleton] at last
      exact fresh (last ▸ same ▸ member)

theorem Passed.length_eq {front : List ScriptFile} {endpoints : List Endpoint} {state : State}
    (passed : Passed loader settings start front endpoints state) :
    endpoints.length = front.length := by
  induction passed with
  | none => rfl
  | next before going loads fresh induction => simp [induction]

theorem Passed.loads_at {front : List ScriptFile} {endpoints : List Endpoint} {state : State}
    (passed : Passed loader settings start front endpoints state) {index : Nat}
    (inside : index < front.length) :
    ∃ earlier script after,
      Passed loader settings start (front.take index) (endpoints.take index) earlier ∧
      loader.load front[index].path earlier = .ok (script, after) ∧
      endpoints[index]? = some (describeFile settings front[index] script) := by
  induction passed with
  | none => simp at inside
  | @next front file endpoints state after script before going loads fresh induction =>
      have same := before.length_eq
      by_cases last : index = front.length
      · subst last
        refine ⟨state, script, after, ?_, ?_, ?_⟩
        · rw [List.take_left, ← same, List.take_left]
          exact before
        · simpa using loads
        · rw [List.getElem?_append_right (by omega)]
          simp [same]
      · have earlier : index < front.length := by
          rw [List.length_append, List.length_singleton] at inside
          omega
        obtain ⟨state, script, after, passed, loaded, listed⟩ := induction earlier
        refine ⟨state, script, after, ?_, ?_, ?_⟩
        · rwa [List.take_append_of_le_length (by omega),
            List.take_append_of_le_length (by omega)]
        · simpa [List.getElem_append_left earlier] using loaded
        · rw [List.getElem?_append_left (by omega), listed, List.getElem_append_left earlier]

/-- The result of a discovery and the calls of its loader are those of an ending over the files
of the scan, and of no other one. A manifest holds one endpoint for every file, in their order,
and no key twice. -/
theorem discover_with_iff_ending (loader : Loader State) (start : State) (disk : Disk)
    (settings : Settings) (root : String) {files : List ScriptFile}
    (listed : Scan.start.rest (ScanPlan.ofSettings root settings) disk false = files.map .ok) :
    (∀ result paths,
      (discoverWith loader start disk settings root = result ∧
        calls loader start disk settings root = paths) ↔
      ∃ loaded final, Ending loader settings start files loaded result final ∧
        paths = loaded.map ScriptFile.path) ∧
    ∀ manifest, discoverWith loader start disk settings root = .ok manifest →
      calls loader start disk settings root = files.map ScriptFile.path ∧
      manifest.length = files.length ∧
      (manifest.map Endpoint.key).Nodup ∧
      ∀ index (inside : index < files.length), ∃ state script after,
        Passed loader settings start (files.take index) (manifest.take index) state ∧
        loader.load files[index].path state = .ok (script, after) ∧
        manifest[index]? =
          some (describe script (endpointPath settings.routeSpace files[index].route)
            files[index].verb settings.vocabulary) := by
  have runs : ∀ loaded result final,
      Ending loader settings start files loaded result final →
        discoverWith loader start disk settings root = result ∧
          calls loader start disk settings root = loaded.map ScriptFile.path := by
    intro loaded result final ending
    constructor
    · rw [discoverWith, run, Scan.start, gather_of_ending ending listed]
    · rw [calls, run, Scan.start, gather_of_ending ending.recorded listed]
  have nothing : Passed loader settings start [] [] start := .none
  obtain ⟨loaded, result, final, ending⟩ := ending_exists_of_passed nothing files
  rw [List.nil_append] at ending
  obtain ⟨result_eq, calls_eq⟩ := runs _ _ _ ending
  constructor
  · intro other paths
    constructor
    · rintro ⟨rfl, rfl⟩
      exact ⟨loaded, final, result_eq ▸ ending, calls_eq⟩
    · rintro ⟨others, last, ends, rfl⟩
      exact runs _ _ _ ends
  · intro manifest succeeded
    rw [result_eq] at succeeded
    subst succeeded
    cases ending with
    | complete before going =>
        exact ⟨calls_eq, before.length_eq, before.keys_nodup, fun _ inside =>
          before.loads_at inside⟩

def stopAtItems : Loader Bool where
  load path _ := .ok ({ name := "" }, path == "top/modules/shop/items.get.hl")
  cancelled := id

def cartFile : ScriptFile := ⟨"top/modules/shop/cart.put.hl", "modules/shop/cart", .put⟩

def itemsFile : ScriptFile := ⟨"top/modules/shop/items.get.hl", "modules/shop/items", .get⟩

theorem shop_files_listed :
    Scan.start.rest (ScanPlan.ofSettings "top" {}) shopDisk false =
      [cartFile, itemsFile].map .ok := by
  have listable : (ScanPlan.ofSettings "top" {}).Listable shopDisk shopModules :=
    .of_folders find_shop_modules ⟨_, rfl⟩ shop_paths_short
  have shop_admitted : (ScanPlan.ofSettings "top" {}).Admits [⟨"shop", by decide⟩] :=
    ScanPlan.admits_snoc.mpr ⟨ScanPlan.admits_nil, by decide⟩
  have base : (ScanPlan.ofSettings "top" {}).visit shopDisk .base =
      .more [.entry [⟨"alias", by decide⟩] .link, .entry [⟨"loose.get.hl", by decide⟩] .file,
        .entry [⟨"shop", by decide⟩] .folder] := by
    rw [listable.visit_base, Visit.of_listing_of_sorted _ (by decide)]
    rfl
  have linked : (ScanPlan.ofSettings "top" {}).visit shopDisk
      (.entry [⟨"alias", by decide⟩] .link) = .more [] := rfl
  have loose : (ScanPlan.ofSettings "top" {}).visit shopDisk
      (.entry [⟨"loose.get.hl", by decide⟩] .file) = .more [] := rfl
  have shop : (ScanPlan.ofSettings "top" {}).visit shopDisk
      (.entry [⟨"shop", by decide⟩] .folder) =
      .more [.entry [⟨"shop", by decide⟩, ⟨"cart.put.hl", by decide⟩] .file,
        .entry [⟨"shop", by decide⟩, ⟨"items.get.hl", by decide⟩] .file] := by
    rw [listable.visit_folder rfl shop_admitted (by decide),
      Visit.of_listing_of_sorted _ (by decide)]
    rfl
  have cart : (ScanPlan.ofSettings "top" {}).visit shopDisk
      (.entry [⟨"shop", by decide⟩, ⟨"cart.put.hl", by decide⟩] .file) = .found cartFile := by
    decide
  have items : (ScanPlan.ofSettings "top" {}).visit shopDisk
      (.entry [⟨"shop", by decide⟩, ⟨"items.get.hl", by decide⟩] .file) = .found itemsFile := by
    decide
  rw [Scan.start, Scan.rest_of_visit_more base, List.append_nil, Scan.rest_of_visit_more linked,
    List.nil_append, Scan.rest_of_visit_more loose, List.nil_append,
    Scan.rest_of_visit_more shop, List.append_nil, Scan.rest_of_visit_found cart, Scan.rest_of_visit_found items,
    Scan.rest_nil]
  rfl

/-- A request to stop that comes with the last file is a failure, after all calls. -/
theorem discover_with_stopped_at_items :
    Scan.start.rest (ScanPlan.ofSettings "top" {}) shopDisk false =
      [cartFile, itemsFile].map .ok ∧
    discoverWith stopAtItems false shopDisk {} "top" = .error .cancelled ∧
    calls stopAtItems false shopDisk {} "top" =
      ["top/modules/shop/cart.put.hl", "top/modules/shop/items.get.hl"] := by
  refine ⟨shop_files_listed, ?_⟩
  have ends := discover_with_iff_ending stopAtItems false shopDisk {} "top" shop_files_listed
  have first : Passed stopAtItems {} false [cartFile]
      [describeFile {} cartFile { name := "" }] false :=
    .next .none rfl rfl List.not_mem_nil
  have both : Passed stopAtItems {} false [cartFile, itemsFile]
      [describeFile {} cartFile { name := "" }, describeFile {} itemsFile { name := "" }] true :=
    .next first rfl rfl (by decide)
  exact (ends.1 _ _).mpr ⟨_, _, .stopped (List.append_nil _).symm both rfl, rfl⟩

end Discovery

end RouteManifest
