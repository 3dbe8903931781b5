import Mathlib.Data.List.Nodup
import RouteManifest.Proofs.Discovery.Manifest
import RouteManifest.Proofs.Scan.Relative

/-!
When two files get the same endpoint. The key of an endpoint gives back the path of its file
below the root, up to backslashes, which count as slashes there. So two files share a key only
where a name holds a backslash, and then every discovery that nobody stops fails.
-/

namespace RouteManifest

open RouteManifest.Script (Node)

namespace ScanPlan

/-- A scan comes to a file, given by the names that lead to it from the topmost folder. -/
def Scans (plan : ScanPlan) (disk : Disk) (names : List FileName) : Prop :=
  ∃ routed, .ok (plan.fileOf (names, routed)) ∈ Scan.start.rest plan disk false

end ScanPlan

namespace Discovery

variable {State : Type} {loader : Loader State} {settings : Settings}

def fileKey (settings : Settings) (file : ScriptFile) : String × Verb :=
  (endpointPath settings.routeSpace file.route, file.verb)

theorem describe_file_key (file : ScriptFile) (script : Node) :
    (describeFile settings file script).key = fileKey settings file := rfl

/-- All files have different keys, and none that is taken. -/
def KeysApart (settings : Settings) (taken : List (String × Verb)) (files : List ScriptFile) :
    Prop :=
  (files.map (fileKey settings)).Nodup ∧ ∀ file ∈ files, fileKey settings file ∉ taken

theorem keys_apart_cons {taken : List (String × Verb)} {file : ScriptFile}
    {files : List ScriptFile} :
    KeysApart settings taken (file :: files) ↔
      fileKey settings file ∉ taken ∧ KeysApart settings (fileKey settings file :: taken) files := by
  simp only [KeysApart, List.map_cons, List.nodup_cons, List.mem_map, not_exists, not_and,
    List.mem_cons, not_or, forall_eq_or_imp]
  constructor
  · rintro ⟨⟨different, nodup⟩, first, others⟩
    exact ⟨first, nodup, fun other member => ⟨different other member, others other member⟩⟩
  · rintro ⟨first, nodup, others⟩
    exact ⟨⟨fun other member => (others other member).1, nodup⟩, first,
      fun other member => (others other member).2⟩

section Runs

variable {plan : ScanPlan} {disk : Disk} {items : List (Except Failure ScriptFile)}

theorem with_endpoint_duplicate {endpoint : Endpoint} {path verb : String}
    {outcome : Except Failure (List Endpoint) × State} :
    (withEndpoint endpoint outcome).1 = .error (.duplicate path verb) ↔
      outcome.1 = .error (.duplicate path verb) := by
  obtain ⟨result, state⟩ := outcome
  cases result <;> simp [withEndpoint, Except.map]

/-- Where all keys are apart no discovery complains about a key, stopped or not. -/
theorem gather_ne_duplicate (returns : ∀ path state, ∃ loaded, loader.load path state = .ok loaded)
    {files : List ScriptFile} {taken : List (String × Verb)} {agenda : List Visit}
    (state : State) (ended : Scan.IsEnd items)
    (listed : (Scan.underway agenda).rest plan disk false = files.map .ok ++ items)
    (apart : KeysApart settings taken files) (path verb : String) :
    (gather settings loader plan disk taken (.underway agenda) state).1 ≠
      .error (.duplicate path verb) := by
  induction files generalizing taken agenda state with
  | nil =>
      intro duplicated
      rcases gather_at_end state ended listed with ⟨-, complete⟩ | stopped | ⟨_, _, failed⟩
      · cases duplicated.symm.trans complete
      · cases duplicated.symm.trans stopped
      · cases duplicated.symm.trans failed
  | cons file files induction =>
      cases going : loader.cancelled state with
      | true => simp [gather_asked going]
      | false =>
          obtain ⟨⟨script, after⟩, loads⟩ := returns file.path state
          obtain ⟨fresh, later⟩ := keys_apart_cons.mp apart
          rw [← describe_file_key file script] at fresh later
          obtain ⟨remaining, listed, gathered⟩ := gather_passed going listed loads fresh
          rw [gathered, Ne, with_endpoint_duplicate]
          exact induction after listed later

/-- Where two keys agree every discovery that nobody stops complains about a key. -/
theorem gather_duplicate (returns : ∀ path state, ∃ loaded, loader.load path state = .ok loaded)
    (going : ∀ state, loader.cancelled state = false)
    {files : List ScriptFile} {taken : List (String × Verb)} {agenda : List Visit}
    (state : State)
    (listed : (Scan.underway agenda).rest plan disk false = files.map .ok ++ items)
    (repeated : ¬ KeysApart settings taken files) :
    ∃ path verb, (gather settings loader plan disk taken (.underway agenda) state).1 =
      .error (.duplicate path verb) := by
  induction files generalizing taken agenda state with
  | nil => exact absurd ⟨List.nodup_nil, by simp⟩ repeated
  | cons file files induction =>
      obtain ⟨⟨script, after⟩, loads⟩ := returns file.path state
      rw [keys_apart_cons, ← describe_file_key file script] at repeated
      by_cases known : (describeFile settings file script).key ∈ taken
      · rw [gather_repeated (going state) listed loads known]
        exact ⟨_, _, rfl⟩
      · obtain ⟨remaining, listed, gathered⟩ := gather_passed (going state) listed loads known
        have later := fun apart => repeated ⟨known, apart⟩
        obtain ⟨path, verb, failed⟩ := induction after listed later
        exact ⟨path, verb, by rw [gathered, with_endpoint_duplicate, failed]⟩

end Runs

/-- Two files have one key exactly when their paths below the root are the same. -/
theorem file_key_eq_iff (settings : Settings) {plan : ScanPlan} {first second : List FileName}
    {one two : RoutedName} (givesFirst : plan.Gives first one) (givesSecond : plan.Gives second two) :
    fileKey settings (plan.fileOf (first, one)) = fileKey settings (plan.fileOf (second, two)) ↔
      plan.relative (plan.pathOf first) = plan.relative (plan.pathOf second) := by
  constructor
  · intro same
    obtain ⟨paths, verbs⟩ := Prod.mk.inj same
    obtain ⟨route, verb⟩ := one
    obtain ⟨otherRoute, otherVerb⟩ := two
    obtain rfl : route = otherRoute := endpoint_path_inj paths
    obtain rfl : verb = otherVerb := verbs
    exact of_path_inj givesFirst.named givesSecond.named
  · intro same
    have routed : one = two := by
      apply Option.some.inj
      rw [← givesFirst.named, ← givesSecond.named, same]
    rw [routed, fileKey, fileKey]
    rfl

theorem scans_iff {plan : ScanPlan} {disk : Disk} {found : List (List FileName × RoutedName)}
    (finds : Scan.Finds plan disk Scan.start found) {names : List FileName} :
    plan.Scans disk names ↔ ∃ routed, (names, routed) ∈ found := by
  constructor
  · rintro ⟨routed, member⟩
    obtain ⟨⟨others, other⟩, inside, same⟩ := List.mem_map.mp (finds.listed_iff.mp member)
    obtain rfl : others = names := ScanPlan.path_of_inj (congrArg ScriptFile.path same)
    exact ⟨other, inside⟩
  · rintro ⟨routed, inside⟩
    exact ⟨routed, finds.listed_iff.mpr (List.mem_map_of_mem inside)⟩

theorem keys_apart_iff {plan : ScanPlan} {disk : Disk}
    {found : List (List FileName × RoutedName)}
    (finds : Scan.Finds plan disk Scan.start found) :
    KeysApart settings [] (found.map plan.fileOf) ↔
      ∀ first second, plan.Scans disk first → plan.Scans disk second →
        plan.relative (plan.pathOf first) = plan.relative (plan.pathOf second) →
        first = second := by
  have nodup : (found.map Prod.fst).Nodup := finds.ordered.imp WalksBefore.ne
  have apart : KeysApart settings [] (found.map plan.fileOf) ↔
      ∀ first ∈ found, ∀ second ∈ found,
        fileKey settings (plan.fileOf first) = fileKey settings (plan.fileOf second) →
        first = second := by
    rw [← List.nodup_map_iff_inj_on (nodup.of_map _)]
    simp [KeysApart, List.map_map, Function.comp_def]
  rw [apart]
  constructor
  · intro distinct first second scansFirst scansSecond same
    obtain ⟨routed, inFirst⟩ := (scans_iff finds).mp scansFirst
    obtain ⟨other, inSecond⟩ := (scans_iff finds).mp scansSecond
    have keys := file_key_eq_iff settings (finds.given _ _ inFirst) (finds.given _ _ inSecond)
    exact congrArg Prod.fst (distinct _ inFirst _ inSecond (keys.mpr same))
  · rintro distinct ⟨first, one⟩ inFirst ⟨second, two⟩ inSecond keys
    have same := (file_key_eq_iff settings (finds.given _ _ inFirst) (finds.given _ _ inSecond)).mp keys
    have names := distinct _ _ ((scans_iff finds).mpr ⟨_, inFirst⟩)
      ((scans_iff finds).mpr ⟨_, inSecond⟩) same
    exact List.inj_on_of_nodup_map nodup inFirst inSecond names

/-- A discovery whose loader gives every script complains about a key only when two files that
it scans have the same path below the root, with backslashes read as slashes, and never when no
name that it scans holds a backslash. If nobody stops it, two such files make it fail. -/
theorem discover_duplicate_of_same_path (loader : Loader State) (start : State) (disk : Disk)
    (settings : Settings) (root : String)
    (returns : ∀ path state, ∃ loaded, loader.load path state = .ok loaded) :
    let plan := ScanPlan.ofSettings root settings
    let complains := ∃ path verb,
      discoverWith loader start disk settings root = .error (.duplicate path verb)
    let collides := ∃ first second, first ≠ second ∧
      plan.Scans disk first ∧ plan.Scans disk second ∧
      plan.relative (plan.pathOf first) = plan.relative (plan.pathOf second)
    (complains → collides) ∧
      ((∀ state, loader.cancelled state = false) → collides → complains) ∧
      ((∀ names, plan.Scans disk names → ∀ name ∈ names, '\\' ∉ name.text.toList) →
        ¬ complains) := by
  intro plan complains collides
  obtain ⟨found, finds⟩ := Scan.finds_exists plan disk Scan.start Scan.start_ordered
  obtain ⟨items, ended, listed⟩ := finds.listed
  have nonempty : ∀ names, plan.Scans disk names → names ≠ [] := by
    rintro names scans rfl
    obtain ⟨routed, inside⟩ := (scans_iff finds).mp scans
    exact absurd (finds.given [] routed inside).deep (by decide)
  have collision : complains → collides := by
    rintro ⟨path, verb, failed⟩
    have repeated : ¬ KeysApart settings [] (found.map plan.fileOf) := fun apart =>
      gather_ne_duplicate returns start ended listed apart path verb failed
    simp only [keys_apart_iff finds, not_forall] at repeated
    obtain ⟨first, second, scansFirst, scansSecond, same, different⟩ := repeated
    exact ⟨first, second, different, scansFirst, scansSecond, same⟩
  refine ⟨collision, ?_, ?_⟩
  · rintro going ⟨first, second, different, scansFirst, scansSecond, same⟩
    apply gather_duplicate returns going start listed
    intro apart
    exact different ((keys_apart_iff finds).mp apart first second scansFirst scansSecond same)
  · intro plain failed
    obtain ⟨first, second, different, scansFirst, scansSecond, same⟩ := collision failed
    apply different
    exact ScanPlan.relative_inj (nonempty first scansFirst) (nonempty second scansSecond)
      (plain first scansFirst) (plain second scansSecond) same

def twinModules : Entry :=
  .folder [(⟨"x", by decide⟩, .folder [(⟨"a\\b.get.hl", by decide⟩, .file .empty),
    (⟨"a", by decide⟩, .folder [(⟨"b.get.hl", by decide⟩, .file .empty)])])]

def twinDisk : Disk where
  top := .folder [(⟨"site", by decide⟩, .folder [(⟨"api", by decide⟩, twinModules)])]

def twinSettings : Settings := { modulesFolder := "api" }

def twinPlan : ScanPlan := ScanPlan.ofSettings "site" twinSettings

def blankLoader : Loader Unit where
  load _ _ := .ok ({ name := "" }, ())
  cancelled _ := false

def twinFile : ScriptFile := ⟨"site/api/x/a\\b.get.hl", "api/x/a/b", .get⟩

def nestedFile : ScriptFile := ⟨"site/api/x/a/b.get.hl", "api/x/a/b", .get⟩

theorem find_twin_modules : twinDisk.find "site/api" = .ok twinModules :=
  Disk.find_of_leads [⟨"site", by decide⟩, ⟨"api", by decide⟩] rfl rfl rfl (by decide)

theorem twin_files_listed :
    Scan.start.rest twinPlan twinDisk false =
      [twinFile, nestedFile].map .ok := by
  have listable : twinPlan.Listable twinDisk twinModules :=
    .of_folders find_twin_modules ⟨_, rfl⟩ (by decide)
  have outer : twinPlan.Admits [⟨"x", by decide⟩] :=
    ScanPlan.admits_snoc.mpr ⟨ScanPlan.admits_nil, by decide⟩
  have inner : twinPlan.Admits [⟨"x", by decide⟩, ⟨"a", by decide⟩] :=
    ScanPlan.admits_snoc.mpr ⟨outer, by decide⟩
  have base : twinPlan.visit twinDisk .base =
      .more [.entry [⟨"x", by decide⟩] .folder] := by
    rw [listable.visit_base, Visit.of_listing_of_sorted _ (by decide)]
    rfl
  have folder : twinPlan.visit twinDisk (.entry [⟨"x", by decide⟩] .folder) =
      .more [.entry [⟨"x", by decide⟩, ⟨"a\\b.get.hl", by decide⟩] .file,
        .entry [⟨"x", by decide⟩, ⟨"a", by decide⟩] .folder] := by
    rw [listable.visit_folder rfl outer (by decide), Visit.of_listing_of_sorted _ (by decide)]
    rfl
  have twin : twinPlan.visit twinDisk
      (.entry [⟨"x", by decide⟩, ⟨"a\\b.get.hl", by decide⟩] .file) = .found twinFile := by
    decide
  have deeper : twinPlan.visit twinDisk
      (.entry [⟨"x", by decide⟩, ⟨"a", by decide⟩] .folder) =
      .more [.entry [⟨"x", by decide⟩, ⟨"a", by decide⟩, ⟨"b.get.hl", by decide⟩] .file] := by
    rw [listable.visit_folder rfl inner (by decide), Visit.of_listing_of_sorted _ (by decide)]
    rfl
  have nested : twinPlan.visit twinDisk
      (.entry [⟨"x", by decide⟩, ⟨"a", by decide⟩, ⟨"b.get.hl", by decide⟩] .file) =
      .found nestedFile := by
    decide
  rw [Scan.start, Scan.rest_of_visit_more base, List.append_nil, Scan.rest_of_visit_more folder,
    List.append_nil, Scan.rest_of_visit_found twin, Scan.rest_of_visit_more deeper,
    List.append_nil, Scan.rest_of_visit_found nested, Scan.rest_nil]
  rfl

/-- A backslash in a name can make a discovery fail although every script is given. -/
theorem not_every_discovery_is_free_of_duplicates :
    ¬ ∀ (loader : Loader Unit) (start : Unit) (disk : Disk) (settings : Settings) (root : String),
      (∀ path state, ∃ loaded, loader.load path state = .ok loaded) →
      ∀ path verb,
        discoverWith loader start disk settings root ≠ .error (.duplicate path verb) := by
  intro never
  have repeated : ¬ KeysApart twinSettings [] [twinFile, nestedFile] := fun apart =>
    absurd apart.1 (by decide)
  have returns : ∀ path state, ∃ loaded, blankLoader.load path state = .ok loaded :=
    fun _ _ => ⟨_, rfl⟩
  have listed : Scan.start.rest twinPlan twinDisk false =
      [twinFile, nestedFile].map .ok ++ [] := twin_files_listed
  obtain ⟨path, verb, failed⟩ := gather_duplicate returns (fun _ => rfl) () listed repeated
  exact never blankLoader () twinDisk twinSettings "site" returns path verb failed

theorem twin_path :
    twinPlan.relative (twinPlan.pathOf [⟨"x", by decide⟩, ⟨"a\\b.get.hl", by decide⟩]) =
      "api/x/a/b.get.hl" := by
  decide

theorem nested_path :
    twinPlan.relative (twinPlan.pathOf [⟨"x", by decide⟩, ⟨"a", by decide⟩,
      ⟨"b.get.hl", by decide⟩]) = "api/x/a/b.get.hl" := by
  decide

theorem twin_scanned : twinPlan.Scans twinDisk
    [⟨"x", by decide⟩, ⟨"a\\b.get.hl", by decide⟩] := by
  refine ⟨⟨"api/x/a/b", .get⟩, ?_⟩
  rw [twin_files_listed]
  decide

theorem nested_scanned : twinPlan.Scans twinDisk
    [⟨"x", by decide⟩, ⟨"a", by decide⟩, ⟨"b.get.hl", by decide⟩] := by
  refine ⟨⟨"api/x/a/b", .get⟩, ?_⟩
  rw [twin_files_listed]
  decide

theorem shop_files_scanned {names : List FileName}
    (scans : (ScanPlan.ofSettings "top" {}).Scans shopDisk names) :
    names = [⟨"shop", by decide⟩, ⟨"cart.put.hl", by decide⟩] ∨
      names = [⟨"shop", by decide⟩, ⟨"items.get.hl", by decide⟩] := by
  obtain ⟨routed, member⟩ := scans
  rw [shop_files_listed, List.map_cons, List.map_singleton, List.mem_cons,
    List.mem_singleton] at member
  have cart : (ScanPlan.ofSettings "top" {}).pathOf
      [⟨"shop", by decide⟩, ⟨"cart.put.hl", by decide⟩] = cartFile.path := by decide
  have items : (ScanPlan.ofSettings "top" {}).pathOf
      [⟨"shop", by decide⟩, ⟨"items.get.hl", by decide⟩] = itemsFile.path := by decide
  rcases member with same | same
  · have paths := congrArg ScriptFile.path (Except.ok.inj same)
    exact .inl (ScanPlan.path_of_inj (paths.trans cart.symm))
  · have paths := congrArg ScriptFile.path (Except.ok.inj same)
    exact .inr (ScanPlan.path_of_inj (paths.trans items.symm))

/-- The twins are told of as one, and a shop without backslashes is described. -/
theorem discover_duplicate_of_twins :
    (∀ path state, ∃ loaded, blankLoader.load path state = .ok loaded) ∧
    (∃ path verb, discoverWith blankLoader () twinDisk twinSettings "site" = .error (.duplicate path verb)) ∧
    ¬ ∃ path verb, discoverWith blankLoader () shopDisk {} "top" =
      .error (.duplicate path verb) := by
  have returns : ∀ path state, ∃ loaded, blankLoader.load path state = .ok loaded :=
    fun _ _ => ⟨_, rfl⟩
  refine ⟨returns, ?_, ?_⟩
  · have collision := discover_duplicate_of_same_path blankLoader () twinDisk twinSettings "site" returns
    apply collision.2.1 fun _ => rfl
    refine ⟨_, _, ?_, twin_scanned, nested_scanned, ?_⟩
    · decide
    · exact twin_path.trans nested_path.symm
  · apply (discover_duplicate_of_same_path blankLoader () shopDisk {} "top" returns).2.2
    intro names scans
    rcases shop_files_scanned scans with rfl | rfl <;> decide

end Discovery

end RouteManifest
