import RouteManifest.Command.Run
import RouteManifest.Proofs.Discovery.Manifest
import RouteManifest.Proofs.Disk.Reach
import RouteManifest.Proofs.Scan.Relative

/-!
A file inspected alone. A scan builds the path of a file from the names that lead to it, while an
inspection is given a path, follows its links and removes the root again. Below a canonical root
without links both come to the same file, route and verb, whatever characters a name holds, so an
inspection prints the endpoint that the manifest has for the file.
-/

namespace RouteManifest

namespace ScanPlan

variable {plan : ScanPlan} {parts : List String} {names : List FileName}

theorem is_absolute_path_of (base : plan.base = Path.join plan.root (Path.ofPieces parts))
    (absolute : Path.isAbsolute plan.root = true) (names : List FileName) :
    Path.isAbsolute (plan.pathOf names) = true := by
  rw [pathOf, base]
  exact Path.is_absolute_join_names (Path.is_absolute_join absolute _) _

theorem parts_and_names_ordinary (ordinary : ∀ part ∈ parts, Path.isOrdinary part = true)
    (names : List FileName) :
    ∀ name ∈ parts ++ names.map FileName.text, Path.isOrdinary name = true := by
  intro name member
  rcases List.mem_append.mp member with inParts | inNames
  · exact ordinary name inParts
  · exact FileName.texts_ordinary names name inNames

/-- The path that a scan gives to a file of a tree without links is canonical. -/
theorem canonical_path_of {disk : Disk} {tree : Entry}
    (base : plan.base = Path.join plan.root (Path.ofPieces parts))
    (ordinary : ∀ part ∈ parts, Path.isOrdinary part = true)
    (canonical : disk.canonical plan.root = .ok plan.root)
    (found : disk.find plan.root = .ok tree) (free : tree.IsLinkFree) (nonempty : names ≠ []) :
    disk.canonicalOrSame (plan.pathOf names) = plan.pathOf names := by
  have absolute := is_absolute_path_of base (Disk.is_absolute_of_canonical canonical) names
  have cut : Path.pieces (plan.pathOf names) =
      Path.stem plan.root ++ (parts ++ names.map FileName.text) := by
    rw [pathOf, base]
    exact Path.pieces_below_folder plan.root ordinary (by simpa using nonempty)
      (FileName.texts_ordinary names)
  exact Disk.canonical_or_same_below canonical found free absolute cut (by simp [nonempty])
    (parts_and_names_ordinary ordinary names)

end ScanPlan

namespace Command

theorem script_file_of_gives {disk : Disk} {plan : ScanPlan} {names : List FileName}
    {routed : RoutedName} {relative : String} (gives : plan.Gives names routed)
    (absolute : Path.isAbsolute (plan.pathOf names) = true)
    (kept : disk.canonicalOrSame (plan.pathOf names) = plan.pathOf names)
    (below : Path.stripBase? plan.root (plan.pathOf names) = some relative) :
    scriptFile disk plan.root (plan.pathOf names) plan.extension =
      .ok (plan.fileOf (names, routed)) := by
  have named := gives.named
  rw [ScanPlan.relative, below, Option.getD_some] at named
  have joined : Path.join plan.root (plan.pathOf names) = plan.pathOf names := by
    simp [Path.join, absolute]
  simp only [scriptFile, joined, kept, below, named]
  rfl

/-- An inspection of a file by its absolute path prints one endpoint, in every format. -/
structure InspectedAs (disk : Disk) (settings : Settings) (root : String) (file : ScriptFile)
    (endpoint : Endpoint) : Prop where
  absolute : Path.isAbsolute file.path = true
  prints : ∀ format,
    run disk settings root (.inspect file.path format) = .ok (render [endpoint] format)
  reports : ∀ (invocation : Invocation) (format : OutputFormat),
    invocation.canonicalRoot disk = root → invocation.settings disk = settings →
    invocation.command = .inspect file.path format →
    invocation.run disk = { code := 0, output := render [endpoint] format }

section Inspection

variable {disk : Disk} {settings : Settings} {root : String} {file : ScriptFile}

theorem inspected_as_of_script_file {script : Script.Node}
    (absolute : Path.isAbsolute file.path = true)
    (taken : scriptFile disk root file.path settings.extension = .ok file)
    (loads : disk.loadScript file.path = .ok script) :
    InspectedAs disk settings root file (Discovery.describeFile settings file script) := by
  have inspected : inspectFile disk settings root file.path =
      .ok [Discovery.describeFile settings file script] := by
    simp only [inspectFile, taken, loads]
  have prints (format : OutputFormat) : run disk settings root (.inspect file.path format) =
      .ok (render [Discovery.describeFile settings file script] format) := by
    rw [run, inspected]
    rfl
  refine ⟨absolute, prints, ?_⟩
  intro invocation format sameRoot sameSettings command
  rw [Invocation.run, sameRoot, sameSettings, command, prints]

/-- Every file that a scan below a canonical root without links gives can be inspected. -/
theorem script_file_of_scanned {tree : Entry} {parts : List String}
    (canonical : disk.canonical root = .ok root) (found : disk.find root = .ok tree)
    (free : tree.IsLinkFree) (ordinary : ∀ part ∈ parts, Path.isOrdinary part = true)
    (modules : settings.modulesFolder = Path.ofPieces parts)
    (scanned : .ok file ∈ Scan.start.rest (ScanPlan.ofSettings root settings) disk false) :
    Path.isAbsolute file.path = true ∧
      scriptFile disk root file.path settings.extension = .ok file := by
  obtain ⟨names, routed, gives, rfl⟩ := Scan.gives_of_listed scanned
  have base : (ScanPlan.ofSettings root settings).base = Path.join root (Path.ofPieces parts) := by
    rw [← modules]
    rfl
  have nonempty : names ≠ [] := by
    rintro rfl
    exact absurd gives.deep (by decide)
  have absolute := ScanPlan.is_absolute_path_of base (Disk.is_absolute_of_canonical canonical) names
  have kept := ScanPlan.canonical_path_of base ordinary canonical found free nonempty
  have below : Path.stripBase? root ((ScanPlan.ofSettings root settings).pathOf names) =
      some (Path.ofPieces (parts ++ names.map FileName.text)) := by
    rw [ScanPlan.pathOf, base]
    exact Path.strip_base_join_names root ordinary (by simpa using nonempty)
      (FileName.texts_ordinary names)
  have taken := script_file_of_gives gives absolute kept below
  exact ⟨absolute, taken⟩

end Inspection

/-- Below a canonical root without links an inspection of each file that is scanned prints the
endpoint that the manifest has at its place. -/
theorem inspect_agrees_with_list (disk : Disk) (settings : Settings) {root : String}
    {tree : Entry} {parts : List String} {manifest : List Endpoint}
    (canonical : disk.canonical root = .ok root) (found : disk.find root = .ok tree)
    (free : tree.IsLinkFree) (ordinary : ∀ part ∈ parts, Path.isOrdinary part = true)
    (modules : settings.modulesFolder = Path.ofPieces parts)
    (discovered : discover disk settings root = .ok manifest) :
    ∃ files, Scan.start.rest (ScanPlan.ofSettings root settings) disk false = files.map .ok ∧
      List.Forall₂ (InspectedAs disk settings root) files manifest := by
  obtain ⟨files, covers⟩ := Discovery.covers_of_discover discovered
  obtain ⟨final, passed⟩ := covers.passed
  have taken : ∀ file ∈ files, Path.isAbsolute file.path = true ∧
      scriptFile disk root file.path settings.extension = .ok file := by
    intro file member
    apply script_file_of_scanned canonical found free ordinary modules
    rw [covers.listed]
    exact List.mem_map_of_mem member
  refine ⟨files, covers.listed, ?_⟩
  apply ((List.forall₂_and_left _ _).mpr ⟨taken, passed.side_by_side⟩).imp
  rintro file endpoint ⟨⟨absolute, taken⟩, script, before, after, loads, rfl⟩
  exact inspected_as_of_script_file absolute taken (Discovery.load_ok_iff.mp loads).1

/-- A folder with one endpoint, whose file has a blank and a backslash in its name. -/
def deskFolder : Entry :=
  .folder [(⟨"drawer", by decide⟩, .folder [(⟨"to do\\now.get.hl", by decide⟩, .file .empty)])]

def deskTree : Entry := .folder [(⟨"desk", by decide⟩, deskFolder)]

def deskDisk : Disk where
  top := .folder [(⟨"room", by decide⟩, deskTree)]

def deskSettings : Settings := { modulesFolder := "desk" }

def deskPlan : ScanPlan := ScanPlan.ofSettings "/room" deskSettings

def deskFile : ScriptFile := ⟨"/room/desk/drawer/to do\\now.get.hl", "desk/drawer/to do/now", .get⟩

def deskEndpoint : Endpoint := Discovery.describeFile deskSettings deskFile { name := "" }

theorem find_on_desk (names : List FileName) {path : String} {entry : Entry}
    (pieces : Disk.piecesOf path = .ok ("" :: names.map FileName.text))
    (leads : deskDisk.at? names = some entry) (noLink : entry.kind ≠ .link) :
    deskDisk.find path = .ok entry := by
  have start : deskDisk.startOf path = [] := ite_self []
  apply Disk.find_eq_ok_iff.mpr
  refine ⟨_, ⟨names, Disk.linkLimit⟩, pieces, ?_, leads⟩
  rw [start]
  exact Disk.walk_absolute ⟨_, rfl⟩ leads noLink

theorem find_desk_tree : deskDisk.find "/room" = .ok deskTree :=
  find_on_desk [⟨"room", by decide⟩] rfl rfl (by decide)

theorem canonical_desk_root : deskDisk.canonical "/room" = .ok "/room" := by
  have place : deskDisk.IsPlace [⟨"room", by decide⟩] := ⟨⟨deskTree, rfl, by decide⟩, by decide⟩
  exact place.canonical_to_text (by simp)

theorem desk_is_link_free : deskTree.IsLinkFree := by
  simp [deskTree, deskFolder, Entry.is_link_free_folder_iff, Folder.distinct,
    Entry.is_link_free_file]

theorem load_desk_script : deskDisk.loadScript deskFile.path = .ok { name := "" } :=
  Discovery.load_blank_script (find_on_desk [⟨"room", by decide⟩, ⟨"desk", by decide⟩,
    ⟨"drawer", by decide⟩, ⟨"to do\\now.get.hl", by decide⟩] rfl rfl (by decide))

theorem find_desk_folder : deskDisk.find "/room/desk" = .ok deskFolder :=
  find_on_desk [⟨"room", by decide⟩, ⟨"desk", by decide⟩] rfl rfl (by decide)

theorem desk_file_listed :
    Scan.start.rest deskPlan deskDisk false = [deskFile].map .ok := by
  have listable : deskPlan.Listable deskDisk deskFolder :=
    .of_folders find_desk_folder ⟨_, rfl⟩ (by decide)
  have given : deskPlan.fileOf ([⟨"drawer", by decide⟩, ⟨"to do\\now.get.hl", by decide⟩],
      ⟨"desk/drawer/to do/now", .get⟩) = deskFile := by
    decide
  rw [← given]
  exact listable.lone_file_listed _ (by decide) (by decide)

theorem discover_desk : discover deskDisk deskSettings "/room" = .ok [deskEndpoint] :=
  Discovery.discover_lone desk_file_listed load_desk_script

/-- The file on the desk is inspected as it is listed, with slashes in its route. -/
theorem inspect_agrees_on_desk :
    deskDisk.canonical "/room" = .ok "/room" ∧ deskDisk.find "/room" = .ok deskTree ∧
    deskTree.IsLinkFree ∧
    discover deskDisk deskSettings "/room" = .ok [deskEndpoint] ∧
    InspectedAs deskDisk deskSettings "/room" deskFile deskEndpoint := by
  refine ⟨canonical_desk_root, find_desk_tree, desk_is_link_free, discover_desk, ?_⟩
  have ordinary : ∀ part ∈ ["desk"], Path.isOrdinary part = true := by decide
  obtain ⟨files, listed, inspected⟩ := inspect_agrees_with_list deskDisk deskSettings
    canonical_desk_root find_desk_tree desk_is_link_free ordinary rfl discover_desk
  have same := desk_file_listed.symm.trans listed
  obtain rfl : [deskFile] = files := by
    apply (List.map_inj_right _).mp same
    intro file other given
    exact Except.ok.inj given
  exact (List.forall₂_cons.mp inspected).1

end Command

end RouteManifest
