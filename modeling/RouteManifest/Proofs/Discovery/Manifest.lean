import Mathlib.Data.List.Forall2
import RouteManifest.Proofs.Discovery.Ending
import RouteManifest.Proofs.Scan.Found

/-!
What a manifest says about the files of a scan. A discovery that gives a manifest came to the
end of the scan and passed every file, so each file has its endpoint there, with the script that
the file holds. No two endpoints share a key, so a path and a verb choose one endpoint at most.
-/

namespace RouteManifest

open RouteManifest.Script (Node)

namespace Discovery

variable {State : Type} {loader : Loader State} {settings : Settings} {start : State}

section Runs

variable {plan : ScanPlan} {disk : Disk} {agenda : List Visit} {front files : List ScriptFile}
  {items : List (Except Failure ScriptFile)} {endpoints others : List Endpoint} {state : State}

/-- Behind the last file a discovery succeeds with nothing more, is stopped, or tells why the scan
cannot go on. -/
theorem gather_at_end {taken : List (String × Verb)} (state : State) (ended : Scan.IsEnd items)
    (listed : (Scan.underway agenda).rest plan disk false = items) :
    let result := (gather settings loader plan disk taken (.underway agenda) state).1
    (items = [] ∧ result = .ok []) ∨ result = .error .cancelled ∨
      ∃ path cause, result = .error (.access path cause) := by
  intro result
  cases going : loader.cancelled state with
  | true => exact .inr (.inl (congrArg Prod.fst (gather_asked going)))
  | false =>
      rcases ended with rfl | ⟨path, cause, rfl⟩
      · exact .inl ⟨rfl, congrArg Prod.fst (gather_nothing going listed)⟩
      · obtain ⟨later, stepped⟩ := Scan.next_of_listed_error listed
        rw [← going] at stepped
        exact .inr (.inr ⟨path, cause, congrArg Prod.fst (gather_of_next_error stepped)⟩)

theorem with_endpoint_ok {endpoint : Endpoint} {outcome : Except Failure (List Endpoint) × State}
    (succeeded : (withEndpoint endpoint outcome).1 = .ok others) :
    ∃ rest, outcome.1 = .ok rest ∧ others = endpoint :: rest := by
  obtain ⟨result, last⟩ := outcome
  cases result with
  | error failure => cases succeeded
  | ok rest => exact ⟨rest, rfl, (Except.ok.inj succeeded).symm⟩

theorem passed_of_gather_ok (ended : Scan.IsEnd items)
    (before : Passed loader settings start front endpoints state)
    (listed : (Scan.underway agenda).rest plan disk false = files.map .ok ++ items)
    (succeeded : (gather settings loader plan disk (endpoints.map Endpoint.key).reverse
      (.underway agenda) state).1 = .ok others) :
    items = [] ∧
      ∃ final, Passed loader settings start (front ++ files) (endpoints ++ others) final := by
  induction files generalizing front endpoints state agenda others with
  | nil =>
      rcases gather_at_end state ended listed with ⟨nothing, complete⟩ | stopped | ⟨_, _, failed⟩
      · obtain rfl := Except.ok.inj (succeeded.symm.trans complete)
        rw [List.append_nil, List.append_nil]
        exact ⟨nothing, state, before⟩
      · cases succeeded.symm.trans stopped
      · cases succeeded.symm.trans failed
  | cons file files induction =>
      cases going : loader.cancelled state with
      | true => simp [gather_asked going] at succeeded
      | false =>
          cases loads : loader.load file.path state with
          | error failure => simp [gather_refused going listed loads] at succeeded
          | ok loaded =>
              obtain ⟨script, after⟩ := loaded
              by_cases known : (describeFile settings file script).key ∈
                  (endpoints.map Endpoint.key).reverse
              · simp [gather_repeated going listed loads known] at succeeded
              · obtain ⟨remaining, later, gathered⟩ := gather_passed going listed loads known
                rw [gathered] at succeeded
                obtain ⟨rest, completed, rfl⟩ := with_endpoint_ok succeeded
                have fresh : (describeFile settings file script).key ∉
                    endpoints.map Endpoint.key := by simpa using known
                have next := induction (.next before going loads fresh) later
                  (by simpa using completed)
                simpa using next

end Runs

theorem Passed.describes {front : List ScriptFile} {endpoints : List Endpoint} {state : State}
    (passed : Passed loader settings start front endpoints state) {file : ScriptFile}
    (member : file ∈ front) :
    ∃ script before after, loader.load file.path before = .ok (script, after) ∧
      describeFile settings file script ∈ endpoints := by
  obtain ⟨index, inside, rfl⟩ := List.getElem_of_mem member
  obtain ⟨before, script, after, -, loads, listed⟩ := passed.loads_at inside
  exact ⟨script, before, after, loads, List.mem_of_getElem? listed⟩

/-- Files and endpoints stand side by side, each endpoint with a script of its file. -/
theorem Passed.side_by_side {front : List ScriptFile} {endpoints : List Endpoint} {state : State}
    (passed : Passed loader settings start front endpoints state) :
    List.Forall₂ (fun file endpoint => ∃ script before after,
      loader.load file.path before = .ok (script, after) ∧
        endpoint = describeFile settings file script) front endpoints := by
  induction passed with
  | none => exact .nil
  | next before going loads fresh induction =>
      exact List.rel_append induction (.cons ⟨_, _, _, loads, rfl⟩ .nil)

/-- The manifest below a root and the files that its scan gives. -/
structure Covers (disk : Disk) (settings : Settings) (root : String) (files : List ScriptFile)
    (manifest : List Endpoint) : Prop where
  listed : Scan.start.rest (ScanPlan.ofSettings root settings) disk false = files.map .ok
  passed : ∃ final, Passed disk.loader settings false files manifest final

variable {disk : Disk} {root : String} {manifest : List Endpoint}

theorem covers_of_discover (succeeded : discover disk settings root = .ok manifest) :
    ∃ files, Covers disk settings root files manifest := by
  obtain ⟨found, finds⟩ := Scan.finds_exists (ScanPlan.ofSettings root settings) disk Scan.start
    Scan.start_ordered
  obtain ⟨items, ended, listed⟩ := finds.listed
  obtain ⟨rfl, final, passed⟩ := passed_of_gather_ok ended .none listed succeeded
  rw [List.append_nil] at listed
  exact ⟨_, listed, final, passed⟩

theorem discover_keys_nodup (succeeded : discover disk settings root = .ok manifest) :
    (manifest.map Endpoint.key).Nodup := by
  obtain ⟨files, covers⟩ := covers_of_discover succeeded
  obtain ⟨final, passed⟩ := covers.passed
  exact passed.keys_nodup

theorem load_ok_iff {path : String} {before after : Bool} {script : Node} :
    disk.loader.load path before = .ok (script, after) ↔
      disk.loadScript path = .ok script ∧ before = after := by
  simp only [Disk.loader]
  cases disk.loadScript path <;> simp [Except.map]

theorem discover_describes (succeeded : discover disk settings root = .ok manifest)
    {file : ScriptFile}
    (scanned : .ok file ∈ Scan.start.rest (ScanPlan.ofSettings root settings) disk false) :
    ∃ script, disk.loadScript file.path = .ok script ∧
      describeFile settings file script ∈ manifest := by
  obtain ⟨files, covers⟩ := covers_of_discover succeeded
  obtain ⟨final, passed⟩ := covers.passed
  rw [covers.listed, List.mem_map] at scanned
  obtain ⟨member, inside, same⟩ := scanned
  obtain rfl := Except.ok.inj same
  obtain ⟨script, before, after, loads, described⟩ := passed.describes inside
  exact ⟨script, (load_ok_iff.mp loads).1, described⟩

theorem described_of_discover (succeeded : discover disk settings root = .ok manifest)
    {endpoint : Endpoint} (member : endpoint ∈ manifest) :
    ∃ file script, .ok file ∈ Scan.start.rest (ScanPlan.ofSettings root settings) disk false ∧
      disk.loadScript file.path = .ok script ∧ endpoint = describeFile settings file script := by
  obtain ⟨files, covers⟩ := covers_of_discover succeeded
  obtain ⟨final, passed⟩ := covers.passed
  obtain ⟨same, beside⟩ := List.forall₂_iff_get.mp passed.side_by_side
  obtain ⟨index, inside, rfl⟩ := List.getElem_of_mem member
  obtain ⟨script, before, after, loads, described⟩ := beside index (same ▸ inside) inside
  refine ⟨files[index], script, ?_, (load_ok_iff.mp loads).1, described⟩
  rw [covers.listed]
  exact List.mem_map_of_mem (List.getElem_mem _)

theorem discover_lone {file : ScriptFile} {script : Node}
    (listed : Scan.start.rest (ScanPlan.ofSettings root settings) disk false = [.ok file])
    (loads : disk.loadScript file.path = .ok script) :
    discover disk settings root = .ok [describeFile settings file script] := by
  have passed : Passed disk.loader settings false [file] [describeFile settings file script] false :=
    .next .none rfl (load_ok_iff.mpr ⟨loads, rfl⟩) List.not_mem_nil
  exact congrArg Prod.fst (gather_of_ending (.complete passed rfl) listed)

theorem filter_key_of_mem {endpoint : Endpoint} (nodup : (manifest.map Endpoint.key).Nodup)
    (member : endpoint ∈ manifest) :
    manifest.filter (fun other => other.key == endpoint.key) = [endpoint] := by
  induction manifest with
  | nil => cases member
  | cons first rest induction =>
      rw [List.map_cons, List.nodup_cons] at nodup
      obtain ⟨fresh, later⟩ := nodup
      rcases List.mem_cons.mp member with rfl | inside
      · have others : rest.filter (fun other => other.key == endpoint.key) = [] := by
          apply List.filter_eq_nil_iff.mpr
          intro other inside same
          exact fresh (beq_iff_eq.mp same ▸ List.mem_map_of_mem inside)
        rw [List.filter_cons_of_pos (by simp), others]
      · have different : first.key ≠ endpoint.key := fun same =>
          fresh (same ▸ List.mem_map_of_mem inside)
        rw [List.filter_cons_of_neg (by simpa using different), induction later inside]

theorem load_written_script {path : String} (source : String) {script : Node}
    (found : disk.find path = .ok (.file source.toUTF8))
    (parsed : Script.parse source = .ok script) : disk.loadScript path = .ok script := by
  have read : disk.read path = .ok source.toUTF8 := by
    rw [Disk.read, found]
    rfl
  have text : String.fromUTF8? source.toUTF8 = some source := dif_pos source.isValidUTF8
  rw [Disk.loadScript, Disk.readText, read]
  simp only [text, parsed]

theorem load_blank_script {path : String} (found : disk.find path = .ok (.file .empty)) :
    disk.loadScript path = .ok { name := "" } :=
  load_written_script "" found rfl

theorem load_shop_script (names : List FileName) {path : String}
    (pieces : Disk.piecesOf path = .ok (names.map FileName.text))
    (leads : shopDisk.at? names = some (.file .empty)) :
    shopDisk.loadScript path = .ok { name := "" } :=
  load_blank_script (find_in_shop names pieces leads (by decide))

theorem load_cart_script : shopDisk.loadScript cartFile.path = .ok { name := "" } :=
  load_shop_script [⟨"top", by decide⟩, ⟨"modules", by decide⟩, ⟨"shop", by decide⟩,
    ⟨"cart.put.hl", by decide⟩] rfl rfl

theorem load_items_script : shopDisk.loadScript itemsFile.path = .ok { name := "" } :=
  load_shop_script [⟨"top", by decide⟩, ⟨"modules", by decide⟩, ⟨"shop", by decide⟩,
    ⟨"items.get.hl", by decide⟩] rfl rfl

theorem discover_shop (space : String) :
    discover shopDisk { routeSpace := space } "top" =
      .ok [describeFile { routeSpace := space } cartFile { name := "" },
        describeFile { routeSpace := space } itemsFile { name := "" }] := by
  have listed : Scan.start.rest (ScanPlan.ofSettings "top" { routeSpace := space }) shopDisk false =
      [cartFile, itemsFile].map .ok := shop_files_listed
  have first : Passed shopDisk.loader { routeSpace := space } false [cartFile]
      [describeFile { routeSpace := space } cartFile { name := "" }] false :=
    .next .none rfl (load_ok_iff.mpr ⟨load_cart_script, rfl⟩) List.not_mem_nil
  have both : Passed shopDisk.loader { routeSpace := space } false [cartFile, itemsFile]
      [describeFile { routeSpace := space } cartFile { name := "" },
        describeFile { routeSpace := space } itemsFile { name := "" }] false := by
    apply Passed.next first rfl (load_ok_iff.mpr ⟨load_items_script, rfl⟩)
    simp [Endpoint.key, describeFile, describe, cartFile, itemsFile]
  rw [discover, discoverWith, run, Scan.start, gather_of_ending (.complete both rfl) listed]

end Discovery

end RouteManifest
