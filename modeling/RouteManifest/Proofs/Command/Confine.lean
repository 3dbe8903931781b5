import RouteManifest.Proofs.Command.Inspect

/-!
What an inspection can get at. A file is inspected by its canonical path, which has to go on from
that of the root, so it prints what lies below the root and fails on everything else, whatever
double dots and links the argument goes through. This holds as long as the argument stays in
reach. A link can lead through folders that lie too deep for a canonical path to be found; then
the path is taken as it stands, the root still seems to stand in front of it, and a script
outside of the root is shown.
-/

namespace RouteManifest

namespace Disk

variable {disk : Disk} {path : String}

/-- The location that a path of any length leads to when all links are followed. -/
def Leads (disk : Disk) (path : String) (location : Location) : Prop :=
  ∃ pieces links, anyPiecesOf path = .ok pieces ∧
    disk.walk (disk.startOf path) linkLimit pieces = .ok ⟨location, links⟩

/-- A path stays in reach on its way. -/
def StaysInReach (disk : Disk) (path : String) : Prop :=
  disk.inReach (disk.startOf path) linkLimit (Path.pieces path) = true

theorem find_top {entries : List (FileName × Entry)} (top : disk.top = .folder entries) :
    disk.find "/" = .ok (.folder entries) := by
  have here : disk.at? [] = some (.folder entries) := congrArg some top
  have start : disk.startOf "/" = [] := start_of_absolute rfl
  refine find_eq_ok_iff.mpr ⟨["", ""], ⟨[], linkLimit⟩, rfl, ?_, here⟩
  rw [start, walk_idle here rfl, walk_idle here rfl, walk]

theorem leads_of_canonical {text : String} (canonical : disk.canonical path = .ok text) :
    ∃ location, disk.Leads path location ∧ text = location.toText := by
  obtain ⟨pieces, ⟨location, links⟩, cut, walked, -, same⟩ := canonical_eq_ok_iff.mp canonical
  exact ⟨location, ⟨pieces, links, cut, walked⟩, same.symm⟩

theorem Leads.canonical {location : Location} (leads : disk.Leads path location)
    (reach : disk.StaysInReach path) : disk.canonical path = .ok location.toText := by
  obtain ⟨pieces, links, cut, walked⟩ := leads
  obtain rfl := pieces_of_any cut
  exact canonical_eq_ok_iff.mpr ⟨_, _, cut, walked, reach, rfl⟩

theorem Leads.unique {one two : Location} (first : disk.Leads path one)
    (second : disk.Leads path two) : one = two := by
  obtain ⟨pieces, links, cut, walked⟩ := first
  obtain ⟨others, more, again, alsoWalked⟩ := second
  obtain rfl := Except.ok.inj (cut.symm.trans again)
  exact (Walker.mk.inj (Except.ok.inj (walked.symm.trans alsoWalked))).1

theorem leads_of_load_script {script : Script.Node} (loads : disk.loadScript path = .ok script) :
    ∃ location, disk.Leads path location := by
  cases found : disk.find path with
  | error fault =>
      have unread : disk.readText path = .error (.disk fault) := by
        simp [readText, read, found, bind, Except.bind]
      simp [loadScript, unread] at loads
  | ok entry =>
      obtain ⟨pieces, walker, cut, walked, -⟩ := find_eq_ok_iff.mp found
      exact ⟨walker.location, pieces, walker.links, any_of_pieces_of cut, walked⟩

/-- A path that does not stay in reach is taken as it is. -/
theorem canonical_or_same_out_of_reach (far : ¬ disk.StaysInReach path) :
    disk.canonicalOrSame path = path := by
  rw [canonicalOrSame]
  cases result : disk.canonical path with
  | error fault => rfl
  | ok text =>
      obtain ⟨pieces, walker, cut, -, reach, -⟩ := canonical_eq_ok_iff.mp result
      obtain rfl := pieces_of_any cut
      exact absurd reach far

theorem canonical_or_same_of_loads (reach : disk.StaysInReach path) {script : Script.Node}
    (loads : disk.loadScript (disk.canonicalOrSame path) = .ok script) :
    ∃ location, disk.Leads path location ∧ disk.canonicalOrSame path = location.toText := by
  rw [canonicalOrSame] at loads ⊢
  cases result : disk.canonical path with
  | ok text => exact leads_of_canonical result
  | error fault =>
      rw [result] at loads
      obtain ⟨location, leads⟩ := leads_of_load_script loads
      exact absurd (result.symm.trans (leads.canonical reach)) (by simp)

/-- An absolute path that stays in reach leads to a place. -/
theorem Leads.is_place {location : Location} (leads : disk.Leads path location)
    (absolute : Path.isAbsolute path = true) (reach : disk.StaysInReach path) :
    disk.IsPlace location := by
  obtain ⟨pieces, links, cut, walked⟩ := leads
  obtain rfl := pieces_of_any cut
  rw [StaysInReach] at reach
  rw [start_of_absolute absolute] at walked reach
  have top : disk.IsPlace [] := by
    obtain ⟨piece, rest, shape⟩ := List.exists_cons_of_ne_nil (Path.pieces_ne_nil path)
    rw [shape] at walked
    obtain ⟨entries, here⟩ := folder_of_walk_cons walked
    exact .of_folder here (by decide)
  exact is_place_of_walk top walked reach

end Disk

namespace Command

open RouteManifest.Script (Node)

/-- An argument leads to a script below the root. The names that lead there from the root give
its route and its verb, and it is loaded by its own path, which is canonical. -/
structure LeadsToScript (disk : Disk) (settings : Settings) (root : Location) (file : String)
    (names : Location) (routed : RoutedName) (script : Node) : Prop where
  leads : disk.Leads (Path.join root.toText file) (root ++ names)
  canonical : disk.canonical (Location.toText (root ++ names)) = .ok (Location.toText (root ++ names))
  named : RoutedName.ofPath? (normalizePath (Path.ofPieces (names.map FileName.text)))
    settings.extension = some routed
  loads : disk.loadScript (Location.toText (root ++ names)) = .ok script

def endpointOf (settings : Settings) (routed : RoutedName) (script : Node) : Endpoint :=
  describe script (endpointPath settings.routeSpace routed.route) routed.verb settings.vocabulary

section Confined

variable {disk : Disk} {settings : Settings} {root : Location} {file : String}

theorem named_ne_nil {names : Location} {routed : RoutedName} {extension : String}
    (named : RoutedName.ofPath? (normalizePath (Path.ofPieces (names.map FileName.text)))
      extension = some routed) : names ≠ [] := by
  rintro rfl
  simp [RoutedName.ofPath?, normalizePath, Path.ofPieces] at named

theorem inspect_file_of_named {root path relative : String} {routed : RoutedName} {script : Node}
    (same : disk.canonicalOrSame (Path.join root file) = path)
    (below : Path.stripBase? root path = some relative)
    (named : RoutedName.ofPath? (normalizePath relative) settings.extension = some routed)
    (loads : disk.loadScript path = .ok script) :
    inspectFile disk settings root file = .ok [endpointOf settings routed script] := by
  simp only [inspectFile, scriptFile, same, below, named, loads]
  rfl

theorem inspect_file_eq_ok {root : String} {endpoints : List Endpoint}
    (inspected : inspectFile disk settings root file = .ok endpoints) :
    ∃ found script, scriptFile disk root file settings.extension = .ok found ∧
      disk.loadScript found.path = .ok script ∧
      endpoints = [Discovery.describeFile settings found script] := by
  rw [inspectFile] at inspected
  split at inspected
  · cases inspected
  · next found taken =>
      split at inspected
      · cases inspected
      · next script loads => exact ⟨found, script, taken, loads, (Except.ok.inj inspected).symm⟩

theorem script_file_eq_ok {root extension : String} {found : ScriptFile}
    (taken : scriptFile disk root file extension = .ok found) :
    ∃ relative name, found = ⟨disk.canonicalOrSame (Path.join root file), name.route, name.verb⟩ ∧
      Path.stripBase? root found.path = some relative ∧
      RoutedName.ofPath? (normalizePath relative) extension = some name := by
  rw [scriptFile] at taken
  split at taken
  · cases taken
  · next relative below =>
      split at taken
      · cases taken
      · next name named =>
          obtain rfl := Except.ok.inj taken
          exact ⟨relative, name, rfl, below, named⟩

/-- An inspection within reach gives the endpoint of a script below the root, and nothing else. -/
theorem inspect_file_ok_iff (reach : disk.StaysInReach (Path.join root.toText file))
    {endpoints : List Endpoint} :
    inspectFile disk settings root.toText file = .ok endpoints ↔
      ∃ names routed script, LeadsToScript disk settings root file names routed script ∧
        endpoints = [endpointOf settings routed script] := by
  have absolute : Path.isAbsolute (Path.join root.toText file) = true :=
    Path.is_absolute_join root.is_absolute_to_text file
  constructor
  · intro inspected
    obtain ⟨found, script, taken, loads, rfl⟩ := inspect_file_eq_ok inspected
    obtain ⟨relative, routed, rfl, below, named⟩ := script_file_eq_ok taken
    obtain ⟨location, leads, same⟩ := Disk.canonical_or_same_of_loads reach loads
    rw [same] at below loads
    obtain ⟨names, rfl, rfl⟩ := Location.of_strip_base below
    have place := leads.is_place absolute reach
    have deep : root ++ names ≠ [] := List.append_ne_nil_of_right_ne_nil _ (named_ne_nil named)
    exact ⟨names, routed, script, ⟨leads, place.canonical_to_text deep, named, loads⟩, rfl⟩
  · rintro ⟨names, routed, script, shown, rfl⟩
    have same : disk.canonicalOrSame (Path.join root.toText file) =
        Location.toText (root ++ names) := by
      rw [Disk.canonicalOrSame, shown.leads.canonical reach]
    exact inspect_file_of_named same (Location.strip_base_append root names) shown.named shown.loads

end Confined

/-- An inspection prints the endpoint of a script below the root if the argument leads to one, and
otherwise it fails and prints nothing. -/
def StaysBelow (disk : Disk) (invocation : Invocation) (root : Location) (file : String)
    (format : OutputFormat) : Prop :=
  let settings := invocation.settings disk
  (∃ names routed script, LeadsToScript disk settings root file names routed script ∧
    invocation.run disk =
      { code := 0, output := render [endpointOf settings routed script] format }) ∨
  (¬ (∃ names routed script, LeadsToScript disk settings root file names routed script) ∧
    ∃ errors, invocation.run disk = { code := 1, output := "", errors })

theorem run_inspect {disk : Disk} {invocation : Invocation} {root file : String}
    {format : OutputFormat} (command : invocation.command = .inspect file format)
    (canonical : disk.canonical invocation.root = .ok root) :
    invocation.run disk =
      match inspectFile disk (invocation.settings disk) root file with
      | .ok endpoints => { code := 0, output := render endpoints format }
      | .error fault => { code := 1, errors := "Error: " ++ ": ".intercalate fault.chain ++ "\n" } := by
  have sameRoot : invocation.canonicalRoot disk = root := by
    rw [Invocation.canonicalRoot, Disk.canonicalOrSame, canonical]
  rw [Invocation.run, sameRoot, command, run]
  cases inspectFile disk (invocation.settings disk) root file <;> rfl

/-- An inspection whose argument stays in reach never leaves the root. -/
theorem inspect_stays_below_root (disk : Disk) (invocation : Invocation) {file : String}
    {format : OutputFormat} {root : Location} (command : invocation.command = .inspect file format)
    (canonical : disk.canonical invocation.root = .ok root.toText)
    (reach : disk.StaysInReach (Path.join root.toText file)) :
    StaysBelow disk invocation root file format := by
  have results (endpoints : List Endpoint) :
      inspectFile disk (invocation.settings disk) root.toText file = .ok endpoints ↔ _ :=
    inspect_file_ok_iff reach
  rw [StaysBelow, run_inspect command canonical]
  cases inspected : inspectFile disk (invocation.settings disk) root.toText file with
  | ok endpoints =>
      obtain ⟨names, routed, script, shown, rfl⟩ := (results endpoints).mp inspected
      exact .inl ⟨names, routed, script, shown, rfl⟩
  | error fault =>
      refine .inr ⟨?_, _, rfl⟩
      rintro ⟨names, routed, script, shown⟩
      have printed := (results _).mpr ⟨names, routed, script, shown, rfl⟩
      exact absurd (inspected.symm.trans printed) (by simp)

/-- The file on the desk, by a way that leaves the room and comes back. -/
def roundabout : String := "../room/desk/drawer/to do\\now.get.hl"

def roundaboutInvocation : Invocation := { root := "/room", command := .inspect roundabout .json }

theorem roundabout_stays_in_reach : deskDisk.StaysInReach (Path.join "/room" roundabout) := by
  have top : deskDisk.at? [] = some deskDisk.top := rfl
  let name : FileName := ⟨"room", by decide⟩
  have room : deskDisk.at? [name] = some deskTree := rfl
  let names : Location := [⟨"room", by decide⟩, ⟨"desk", by decide⟩, ⟨"drawer", by decide⟩,
    ⟨"to do\\now.get.hl", by decide⟩]
  have file : deskDisk.IsPlace names := ⟨⟨.file .empty, rfl, by decide⟩, by decide⟩
  have below : names ≠ [] := List.cons_ne_nil _ _
  have back := (file.walk_to_text below).2
  rw [Location.pieces_to_text below, Disk.in_reach_idle top rfl] at back
  have cut : Path.pieces (Path.join "/room" roundabout) =
      "" :: "room" :: ".." :: names.map FileName.text := by decide
  rw [Disk.StaysInReach, cut, Disk.start_of_absolute (by decide), Disk.in_reach_idle top rfl]
  have there : deskDisk.inReach [name] Disk.linkLimit (".." :: names.map FileName.text) = true :=
    (Disk.in_reach_up room).trans back
  exact (Disk.in_reach_names_iff top room (by decide)).mpr ⟨fun _ => by decide, there⟩

theorem inspect_stays_below_room :
    deskDisk.canonical "/room" = .ok "/room" ∧
    deskDisk.StaysInReach (Path.join "/room" roundabout) ∧
    StaysBelow deskDisk roundaboutInvocation [⟨"room", by decide⟩] roundabout .json :=
  ⟨canonical_desk_root, roundabout_stays_in_reach,
    inspect_stays_below_root deskDisk roundaboutInvocation rfl canonical_desk_root
      roundabout_stays_in_reach⟩

theorem settings_of_folder {disk : Disk} {invocation : Invocation} {path : String}
    {entries : List (FileName × Entry)} (config : invocation.config = some path)
    (folder : disk.find path = .ok (.folder entries)) : invocation.settings disk = {} := by
  have unread : disk.readText path = .error (.disk .isFolder) := by
    simp [Disk.readText, Disk.read, folder, bind, Except.bind]
  simp [Invocation.settings, Invocation.settingsPath, config, Settings.loadOrDefault,
    Settings.load, unread]

theorem size_letters (count : Nat) :
    (String.ofList (List.replicate count 'a')).utf8ByteSize = count := by
  induction count with
  | zero => rfl
  | succ count induction =>
      have first : String.ofList (List.replicate (count + 1) 'a') =
          "a" ++ String.ofList (List.replicate count 'a') := by
        apply String.toList_injective
        simp [List.replicate_succ]
      rw [first, String.utf8ByteSize_append, induction]
      exact Nat.add_comm 1 count

theorem ne_letters {count : Nat} (positive : 0 < count) {text : String}
    (other : text.toList.head? ≠ some 'a') : text ≠ String.ofList (List.replicate count 'a') := by
  obtain ⟨more, rfl⟩ := Nat.exists_eq_add_one_of_ne_zero (Nat.ne_of_gt positive)
  rintro rfl
  exact other (by simp [List.replicate_succ])

theorem is_file_name_letters {count : Nat} (positive : 0 < count) (short : count ≤ 255) :
    isFileName (String.ofList (List.replicate count 'a')) = true := by
  have busy : "." ≠ String.ofList (List.replicate count 'a') := ne_letters positive (by decide)
  have notParent : ".." ≠ String.ofList (List.replicate count 'a') :=
    ne_letters positive (by decide)
  have size := size_letters count
  simp [isFileName, busy.symm, notParent.symm, size, short, Nat.ne_of_gt positive]

def levelName : FileName :=
  ⟨String.ofList (List.replicate 250 'a'), is_file_name_letters (by decide) (by decide)⟩

def levels (depth : Nat) : Location := List.replicate depth levelName

def shaft (inner : Entry) : Nat → Entry
  | 0 => inner
  | depth + 1 => .folder [(levelName, shaft inner depth)]

def secretName : FileName := ⟨"secret", by decide⟩

def wayOutName : FileName := ⟨"e.get.hl", by decide⟩

/-- Down to the bottom, then up again and past the root. -/
def wayOut : String :=
  Path.ofPieces ((levels 9).map FileName.text ++ List.replicate 18 ".." ++ [secretName.text])

def shaftRoot : Entry := .folder [(wayOutName, .link wayOut), (levelName, shaft (.folder []) 8)]

def secretScript : Entry := .file ".description:x\n".toUTF8

def shaftDisk : Disk where
  top := .folder [(secretName, secretScript), (levelName, shaft shaftRoot 8)]

def shaftInvocation (format : OutputFormat) : Invocation where
  root := Location.toText (levels 9)
  config := some "/"
  command := .inspect wayOutName.text format

theorem find_level {name : FileName} {first inner : Entry} (other : name.text ≠ levelName.text) :
    Folder.find? [(name, first), (levelName, inner)] levelName.text = some (levelName, inner) := by
  simp [Folder.find?, other]

theorem ne_level_name {text : String} (other : text.toList.head? ≠ some 'a') :
    text ≠ levelName.text := ne_letters (by decide) other

theorem at_shaft (inner : Entry) (depth : Nat) :
    (shaft inner depth).at? (levels depth) = some inner := by
  induction depth with
  | zero => rfl
  | succ depth induction =>
      simpa [shaft, levels, List.replicate_succ, Entry.at?, Folder.find?] using induction

theorem at_levels {name : FileName} {first inner : Entry} (other : name.text ≠ levelName.text) :
    (Entry.folder [(name, first), (levelName, shaft inner 8)]).at? (levels 9) = some inner := by
  have split : levels 9 = levelName :: levels 8 := List.replicate_succ
  rw [split, Entry.at?, find_level other]
  exact at_shaft inner 8

theorem at_shaft_root : shaftDisk.at? (levels 9) = some shaftRoot :=
  at_levels (ne_level_name (by decide))

theorem at_shaft_bottom : shaftRoot.at? (levels 9) = some (.folder []) :=
  at_levels (ne_level_name (by decide))

theorem levels_size (depth : Nat) :
    (levels (depth + 1)).toText.utf8ByteSize = 251 * (depth + 1) := by
  have slash : "/".utf8ByteSize = 1 := rfl
  have letters : levelName.text.utf8ByteSize = 250 := size_letters 250
  induction depth with
  | zero => simp [levels, Location.to_text_cons, String.utf8ByteSize_append, slash, letters]
  | succ depth induction =>
      rw [levels, List.replicate_succ, Location.to_text_cons, ← levels]
      simp only [String.utf8ByteSize_append, slash, letters]
      simp [levels] at induction ⊢
      omega

theorem root_is_place : shaftDisk.IsPlace (levels 9) where
  holds := ⟨shaftRoot, at_shaft_root, by simp [shaftRoot, Entry.kind]⟩
  short := by
    rw [levels_size 8]
    decide

theorem canonical_shaft_root :
    shaftDisk.canonical (levels 9).toText = .ok (levels 9).toText :=
  root_is_place.canonical_to_text (List.cons_ne_nil _ _)

def wayOutPath : String := Path.join (levels 9).toText wayOutName.text

theorem way_out_path_eq : wayOutPath = Location.toText (levels 9 ++ [wayOutName]) :=
  (Location.to_text_concat (levels 9) wayOutName).symm

theorem pieces_way_out_path :
    Path.pieces wayOutPath = "" :: (levels 9).map FileName.text ++ [wayOutName.text] := by
  rw [way_out_path_eq, Location.pieces_to_text (by simp), List.map_append]
  rfl

theorem pieces_way_out : Path.pieces wayOut =
    (levels 9).map FileName.text ++ List.replicate 18 ".." ++ [secretName.text] := by
  apply Path.pieces_of_pieces (by simp)
  intro part member
  simp only [List.mem_append, List.mem_singleton] at member
  rcases member with (name | up) | rfl
  · exact Path.not_slash_of_ordinary (FileName.texts_ordinary _ part name)
  · rw [List.eq_of_mem_replicate up]
    decide
  · decide

theorem way_out_relative : Path.isAbsolute wayOut = false := by
  have front : levels 9 = levelName :: levels 8 := List.replicate_succ
  rw [wayOut, front, List.map_cons, List.cons_append, List.cons_append]
  exact Path.not_absolute_of_pieces_cons _ levelName.ordinary

theorem find_way_out :
    Folder.find? [(wayOutName, .link wayOut), (levelName, shaft (.folder []) 8)] wayOutName.text =
      some (wayOutName, .link wayOut) := by
  simp [Folder.find?]

theorem walk_way_out :
    shaftDisk.walk (levels 9) Disk.linkLimit [wayOutName.text] = .ok ⟨[secretName], 39⟩ := by
  obtain ⟨busy, notParent, short⟩ := Disk.file_name_walked wayOutName
  have down : shaftDisk.walk (levels 9) 39 ((levels 9).map FileName.text) =
      .ok ⟨levels 9 ++ levels 9, 39⟩ :=
    Disk.walk_names at_shaft_root at_shaft_bottom (by simp [Entry.kind])
  have bottom : shaftDisk.at? ([] ++ (levels 9 ++ levels 9)) = some (.folder []) :=
    (Disk.at_behind at_shaft_root _).trans at_shaft_bottom
  have up (rest : List String) : shaftDisk.walk ([] ++ (levels 9 ++ levels 9)) 39
      (List.replicate (levels 9 ++ levels 9).length ".." ++ rest) = shaftDisk.walk [] 39 rest :=
    Disk.walk_up bottom
  have top : shaftDisk.at? [] = some shaftDisk.top := rfl
  have leads : shaftDisk.top.at? [secretName] = some secretScript := rfl
  have secret : shaftDisk.walk [] 39 ([secretName].map FileName.text) = .ok ⟨[secretName], 39⟩ :=
    Disk.walk_names top leads (by simp [secretScript, Entry.kind])
  have count : (levels 9 ++ levels 9).length = 18 := by simp [levels]
  rw [List.nil_append, count] at up
  have limit : Disk.linkLimit = 39 + 1 := rfl
  rw [limit, Disk.walk.eq_def]
  simp only [at_shaft_root, shaftRoot, busy, notParent, Nat.not_lt.mpr short, find_way_out,
    way_out_relative, pieces_way_out, Bool.false_eq_true, if_false, List.append_nil]
  rw [List.append_assoc, Disk.walk_append, down]
  exact (up _).trans secret

theorem way_out_of_reach :
    shaftDisk.inReach (levels 9) Disk.linkLimit [wayOutName.text] = false := by
  apply Bool.eq_false_iff.mpr
  intro reach
  obtain ⟨busy, notParent, -⟩ := Disk.file_name_walked wayOutName
  have limit : Disk.linkLimit = 39 + 1 := rfl
  rw [limit, Disk.inReach.eq_def] at reach
  simp only [at_shaft_root, shaftRoot, busy, notParent, find_way_out, way_out_relative,
    pieces_way_out, Bool.false_eq_true, if_false, List.append_nil, Bool.and_eq_true,
    List.append_assoc] at reach
  have deep := ((Disk.in_reach_names_iff at_shaft_root at_shaft_bottom (by simp [Entry.kind])).mp
    reach.2).1 (List.cons_ne_nil _ _)
  have both : levels 9 ++ levels 9 = levels (17 + 1) := by simp [levels]
  have size : (Location.toText (levels 9 ++ levels 9)).utf8ByteSize = 251 * (17 + 1) :=
    both ▸ levels_size 17
  have limit : Disk.pathLimit = 4095 := rfl
  omega

theorem way_out_path_short : wayOutPath.utf8ByteSize ≤ Disk.pathLimit := by
  have parts := Path.join_size_le (levels 9).toText wayOutName.text
  have name : wayOutName.text.utf8ByteSize = 8 := by decide
  have base : (levels 9).toText.utf8ByteSize = 251 * (8 + 1) := levels_size 8
  have limit : Disk.pathLimit = 4095 := rfl
  rw [← wayOutPath] at parts
  omega

theorem start_of_way_out_path : shaftDisk.startOf wayOutPath = [] := by
  rw [way_out_path_eq]
  exact Disk.start_of_absolute (Location.is_absolute_to_text _)

theorem cut_way_out_path : Disk.piecesOf wayOutPath = .ok (Path.pieces wayOutPath) := by
  have short := way_out_path_short
  rw [way_out_path_eq] at short ⊢
  exact Disk.pieces_of_to_text short

theorem walk_way_out_path :
    shaftDisk.walk (shaftDisk.startOf wayOutPath) Disk.linkLimit (Path.pieces wayOutPath) =
      .ok ⟨[secretName], 39⟩ := by
  have top : shaftDisk.at? [] = some shaftDisk.top := rfl
  rw [start_of_way_out_path, pieces_way_out_path, List.cons_append, Disk.walk_idle top rfl,
    Disk.walk_append, Disk.walk_names top at_shaft_root (by simp [shaftRoot, Entry.kind])]
  exact walk_way_out

theorem leads_way_out : shaftDisk.Leads wayOutPath [secretName] :=
  ⟨_, 39, Disk.any_of_pieces_of cut_way_out_path, walk_way_out_path⟩

theorem leaves_reach_way_out : ¬ shaftDisk.StaysInReach wayOutPath := by
  intro reach
  have top : shaftDisk.at? [] = some shaftDisk.top := rfl
  rw [Disk.StaysInReach, start_of_way_out_path, pieces_way_out_path, List.cons_append,
    Disk.in_reach_idle top rfl] at reach
  have later := ((Disk.in_reach_names_iff top at_shaft_root
    (by simp [shaftRoot, Entry.kind])).mp reach).2
  exact absurd (later.symm.trans way_out_of_reach) (by decide)

def secretNode : Node := { name := "", children := [Node.ofText ".description" "x"] }

theorem load_way_out : shaftDisk.loadScript wayOutPath = .ok secretNode :=
  Discovery.load_written_script ".description:x\n"
    (Disk.find_eq_ok_iff.mpr ⟨_, _, cut_way_out_path, walk_way_out_path, rfl⟩) rfl

theorem inspect_way_out : inspectFile shaftDisk {} (levels 9).toText wayOutName.text =
    .ok [endpointOf {} ⟨"e", .get⟩ secretNode] := by
  have below : Path.stripBase? (levels 9).toText wayOutPath = some "e.get.hl" := by
    rw [way_out_path_eq]
    exact Location.strip_base_append (levels 9) [wayOutName]
  have named : RoutedName.ofPath? (normalizePath "e.get.hl") "hl" = some ⟨"e", .get⟩ := by decide
  have same := Disk.canonical_or_same_out_of_reach leaves_reach_way_out
  exact inspect_file_of_named same below named load_way_out

theorem shaft_settings (format : OutputFormat) :
    (shaftInvocation format).settings shaftDisk = {} :=
  settings_of_folder rfl (Disk.find_top rfl)

/-- A link below the root goes down further than canonical paths reach, and up again out of the
root, where a script is found and shown. -/
theorem not_every_inspection_stays_below :
    ¬ ∀ (disk : Disk) (invocation : Invocation) (file : String) (format : OutputFormat)
      (root : Location), invocation.command = .inspect file format →
        disk.canonical invocation.root = .ok root.toText →
        StaysBelow disk invocation root file format := by
  intro stays
  have printed : (shaftInvocation .json).run shaftDisk =
      { code := 0, output := render [endpointOf {} ⟨"e", .get⟩ secretNode] .json } := by
    have command : (shaftInvocation .json).command = .inspect wayOutName.text .json := rfl
    have canonical : shaftDisk.canonical (shaftInvocation .json).root = .ok (levels 9).toText :=
      canonical_shaft_root
    rw [run_inspect command canonical, shaft_settings, inspect_way_out]
  rcases stays shaftDisk (shaftInvocation .json) wayOutName.text .json (levels 9) rfl
    canonical_shaft_root with ⟨names, routed, script, shown, -⟩ | ⟨-, errors, failed⟩
  · have same := congrArg List.length (shown.leads.unique leads_way_out)
    simp [levels] at same
  · rw [printed] at failed
    exact absurd (congrArg Report.code failed) (by simp)

end Command

end RouteManifest
