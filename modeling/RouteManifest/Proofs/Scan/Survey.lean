import RouteManifest.Proofs.Disk.Entry
import RouteManifest.Proofs.Disk.Path
import RouteManifest.Proofs.Scan.Order
import RouteManifest.Proofs.Scan.Steps

/-!
What a scan shows of a file system that stands still. The visits of an agenda lead to entries
that are really there, each visit either shows a file or is followed by visits to all files
that it leads to, and so the files of an agenda are those that its visits lead to, in their
order. Seen from the root, the path of a file is the folder of modules and its names.
-/

namespace RouteManifest

namespace ScanPlan

/-- The path of all folders on a way may be a part of a route. -/
def Admits (plan : ScanPlan) (names : List FileName) : Prop :=
  ∀ front rest, names = front ++ rest → front ≠ [] →
    plan.legal (plan.relative (plan.pathOf front)) = true

/-- A file that a scan has to show, and its name by the convention. -/
structure Shows (plan : ScanPlan) (top : Entry) (names : List FileName) (routed : RoutedName) :
    Prop where
  deep : 2 ≤ names.length
  isFile : ∃ content, top.at? names = some (.file content)
  admitted : plan.Admits names.dropLast
  named : RoutedName.ofPath? (plan.relative (plan.pathOf names)) plan.extension = some routed

theorem Shows.routed_eq {plan : ScanPlan} {top : Entry} {names : List FileName}
    {first second : RoutedName} (one : plan.Shows top names first)
    (two : plan.Shows top names second) : first = second :=
  Option.some.inj (one.named.symm.trans two.named)

def fileOf (plan : ScanPlan) (file : List FileName × RoutedName) : ScriptFile :=
  ⟨plan.pathOf file.1, file.2.route, file.2.verb⟩

/-- The base is a folder, and all folders that a scan enters can be listed. -/
structure Listable (plan : ScanPlan) (disk : Disk) (top : Entry) : Prop where
  found : disk.find plan.base = .ok top
  folder : ∃ entries, top = .folder entries
  short : ∀ names entries, top.at? names = some (.folder entries) → plan.Admits names →
    (plan.pathOf names).utf8ByteSize ≤ Disk.pathLimit

variable {plan : ScanPlan} {disk : Disk} {top : Entry} {names : List FileName}

theorem admits_nil : plan.Admits [] := by
  intro front rest split nonempty
  exact absurd (List.append_eq_nil_iff.mp split.symm).1 nonempty

theorem admits_snoc {name : FileName} :
    plan.Admits (names ++ [name]) ↔
      plan.Admits names ∧ plan.legal (plan.relative (plan.pathOf (names ++ [name]))) = true := by
  constructor
  · intro admits
    refine ⟨?_, admits (names ++ [name]) [] (by simp) (by simp)⟩
    intro front rest split nonempty
    exact admits front (rest ++ [name]) (by simp [split]) nonempty
  · rintro ⟨admits, legal⟩ front rest split nonempty
    rcases List.eq_nil_or_concat rest with rfl | ⟨others, last, rfl⟩
    · rw [List.append_nil] at split
      rwa [← split]
    · rw [List.concat_eq_append, ← List.append_assoc] at split
      exact admits front others (List.append_inj_left' split rfl) nonempty

namespace Listable

theorem walk_to (listable : plan.Listable disk top) {entry : Entry}
    (leads : top.at? names = some entry) (noLink : entry.kind ≠ .link) :
    ∃ walker, plan.walkTo disk names = .ok walker ∧ disk.at? walker.location = some entry := by
  obtain ⟨pieces, walker, cut, walked, here⟩ := Disk.find_eq_ok_iff.mp listable.found
  refine ⟨⟨walker.location ++ names, walker.links⟩, ?_, ?_⟩
  · simp only [walkTo, cut, bind, Except.bind]
    rw [Disk.walk_append, walked]
    exact Disk.walk_names here leads noLink
  · rw [Disk.at?] at here ⊢
    rw [Entry.at_append, here]
    exact leads

theorem enter_eq (listable : plan.Listable disk top) {entries : List (FileName × Entry)}
    (leads : top.at? names = some (.folder entries)) (admits : plan.Admits names) :
    plan.enter disk names = .more (Visit.ofListing names
      ((Folder.distinct entries).map fun item => (item.1, item.2.kind))) := by
  have short := Nat.not_lt.mpr (listable.short names entries leads admits)
  obtain ⟨walker, walked, here⟩ := listable.walk_to leads (by simp [Entry.kind])
  rw [enter, listBelow, if_neg short, walked]
  simp only [Disk.listAt, here]

theorem visit_base_eq (listable : plan.Listable disk top) :
    plan.visitBase disk = plan.enter disk [] := by
  obtain ⟨entries, rfl⟩ := listable.folder
  rcases Disk.find_link_of_find_folder listable.found with seen | ⟨target, seen⟩
  · simp [visitBase, seen]
  · simp [visitBase, seen, listable.found]

theorem visit_base {entries : List (FileName × Entry)}
    (listable : plan.Listable disk (.folder entries)) :
    plan.visit disk .base = .more (Visit.ofListing []
      ((Folder.distinct entries).map fun item => (item.1, item.2.kind))) := by
  rw [visit, listable.visit_base_eq]
  exact listable.enter_eq rfl admits_nil

theorem visit_folder (listable : plan.Listable disk top) {entries : List (FileName × Entry)}
    (leads : top.at? names = some (.folder entries)) (admits : plan.Admits names)
    (nonempty : names ≠ []) :
    plan.visit disk (.entry names .folder) = .more (Visit.ofListing names
      ((Folder.distinct entries).map fun item => (item.1, item.2.kind))) := by
  have legal := admits names [] (List.append_nil names).symm nonempty
  rw [visit, if_pos legal]
  exact listable.enter_eq leads admits

/-- It is enough to look at the paths of all folders of a tree. -/
theorem of_folders (found : disk.find plan.base = .ok top)
    (folder : ∃ entries, top = .folder entries)
    (short : ∀ names ∈ top.folders, (plan.pathOf names).utf8ByteSize ≤ Disk.pathLimit) :
    plan.Listable disk top :=
  ⟨found, folder, fun names _ leads _ => short names (Entry.mem_folders_of_at leads)⟩

end Listable

/-- What a visit is about is there, below folders that the scan admits. -/
def Real (plan : ScanPlan) (top : Entry) : Visit → Prop
  | .base => True
  | .entry path kind => ∃ names name entry, path = names ++ [name] ∧ plan.Admits names ∧
      top.at? path = some entry ∧ entry.kind = kind

/-- A visit that is followed by others passes on all files that it leads to. -/
structure Continues (plan : ScanPlan) (top : Entry) (visit : Visit) (visits : List Visit) :
    Prop where
  real : ∀ next ∈ visits, plan.Real top next
  covers : ∀ names routed, plan.Shows top names routed → visit.LeadsTo names →
    ∃ next ∈ visits, next.LeadsTo names

theorem continues_nil {visit : Visit}
    (nothing : ∀ names routed, plan.Shows top names routed → ¬ visit.LeadsTo names) :
    plan.Continues top visit [] where
  real _ member := by cases member
  covers names routed shows leads := absurd leads (nothing names routed shows)

theorem continues_listing {visit : Visit} {entries : List (FileName × Entry)}
    (leads : top.at? names = some (.folder entries)) (admits : plan.Admits names)
    (below : ∀ path, visit.LeadsTo path → ∃ rest, path = names ++ rest) :
    plan.Continues top visit (Visit.ofListing names
      ((Folder.distinct entries).map fun item => (item.1, item.2.kind))) where
  real next member := by
    obtain ⟨name, kind, listed, rfl⟩ := Visit.mem_of_listing.mp member
    obtain ⟨⟨other, entry⟩, inside, same⟩ := List.mem_map.mp listed
    obtain ⟨rfl, rfl⟩ := Prod.mk.inj same
    refine ⟨names, other, entry, rfl, admits, ?_, rfl⟩
    rw [Entry.at_append, leads]
    exact Entry.at_singleton.mpr inside
  covers path routed shows reached := by
    obtain ⟨rest, rfl⟩ := below path reached
    obtain ⟨content, isFile⟩ := shows.isFile
    rw [Entry.at_append, leads, Option.bind_some] at isFile
    cases rest with
    | nil => simp [Entry.at?] at isFile
    | cons name rest =>
        obtain ⟨inner, first, later⟩ := Entry.at_cons isFile
        -- The first name below this folder tells which of its entries leads on.
        refine ⟨.entry (names ++ [name]) inner.kind, ?_, ?_⟩
        · exact Visit.mem_of_listing.mpr ⟨name, inner.kind,
            List.mem_map_of_mem (Entry.at_singleton.mp first), rfl⟩
        · cases rest with
          | nil =>
              rw [Entry.at?, Option.some.injEq] at later
              subst later
              rfl
          | cons other rest =>
              obtain ⟨inside, rfl⟩ := Entry.folder_of_at_cons later
              exact ⟨other :: rest, by simp, by simp⟩

theorem visit_file_real {name : FileName} {content : ByteArray} (admits : plan.Admits names)
    (leads : top.at? (names ++ [name]) = some (.file content)) :
    (∃ routed, plan.Shows top (names ++ [name]) routed ∧
      plan.visitFile (names ++ [name]) = .found (plan.fileOf (names ++ [name], routed))) ∨
    plan.visitFile (names ++ [name]) = .more [] ∧
      ∀ routed, ¬ plan.Shows top (names ++ [name]) routed := by
  rw [visitFile]
  by_cases shallow : (names ++ [name]).length < 2
  · rw [if_pos shallow]
    exact .inr ⟨rfl, fun routed shows => absurd shows.deep (Nat.not_le.mpr shallow)⟩
  · rw [if_neg shallow]
    cases named : RoutedName.ofPath? (plan.relative (plan.pathOf (names ++ [name])))
        plan.extension with
    | none => exact .inr ⟨rfl, fun routed shows => by simp [shows.named] at named⟩
    | some routed =>
        refine .inl ⟨routed, ?_, rfl⟩
        exact ⟨Nat.not_lt.mp shallow, ⟨content, leads⟩, by simpa using admits, named⟩

theorem visit_real (listable : plan.Listable disk top) {visit : Visit}
    (real : plan.Real top visit) :
    (∃ names routed, visit = .entry names .file ∧ plan.Shows top names routed ∧
      plan.visit disk visit = .found (plan.fileOf (names, routed))) ∨
    ∃ visits, plan.visit disk visit = .more visits ∧ plan.Continues top visit visits := by
  cases visit with
  | base =>
      obtain ⟨entries, rfl⟩ := listable.folder
      have here : (Entry.folder entries).at? [] = some (.folder entries) := rfl
      refine .inr ⟨_, listable.visit_base, continues_listing here admits_nil ?_⟩
      exact fun path _ => ⟨path, rfl⟩
  | entry path kind =>
      obtain ⟨names, name, entry, rfl, admits, leads, rfl⟩ := real
      cases entry with
      | file content =>
          rw [Entry.kind, ScanPlan.visit]
          rcases visit_file_real admits leads with ⟨routed, shows, found⟩ | ⟨nothing, hidden⟩
          · exact .inl ⟨_, routed, rfl, shows, found⟩
          · refine .inr ⟨[], nothing, continues_nil ?_⟩
            rintro path routed shows rfl
            exact hidden routed shows
      | link target =>
          refine .inr ⟨[], rfl, continues_nil ?_⟩
          intro _ _ _ reached
          exact reached
      | folder entries =>
          rw [Entry.kind]
          by_cases legal : plan.legal (plan.relative (plan.pathOf (names ++ [name]))) = true
          · have admitted := admits_snoc.mpr ⟨admits, legal⟩
            have visited := listable.visit_folder leads admitted (by simp)
            refine .inr ⟨_, visited, continues_listing leads admitted ?_⟩
            rintro path ⟨rest, -, rfl⟩
            exact ⟨rest, rfl⟩
          · rw [ScanPlan.visit, if_neg legal]
            refine .inr ⟨[], rfl, continues_nil ?_⟩
            rintro path routed shows ⟨rest, deeper, rfl⟩
            have way := shows.admitted
            rw [List.dropLast_append_of_ne_nil deeper] at way
            exact legal (way (names ++ [name]) rest.dropLast rfl (by simp))

/-- The files that a scan gives are those that an agenda leads to, in order. -/
structure Surveys (plan : ScanPlan) (top : Entry) (agenda : List Visit)
    (found : List (List FileName × RoutedName)) : Prop where
  members : ∀ names routed, (names, routed) ∈ found ↔
    plan.Shows top names routed ∧ ∃ visit ∈ agenda, visit.LeadsTo names
  ordered : (found.map Prod.fst).Pairwise WalksBefore

theorem surveys_nil : plan.Surveys top [] [] where
  members := by simp
  ordered := .nil

theorem Surveys.of_visit_found {agenda : List Visit} {routed : RoutedName}
    {found : List (List FileName × RoutedName)} (surveys : plan.Surveys top agenda found)
    (shows : plan.Shows top names routed)
    (ordered : (.entry names .file :: agenda).Pairwise Visit.Precedes) :
    plan.Surveys top (.entry names .file :: agenda) ((names, routed) :: found) where
  members path name := by
    rw [List.mem_cons, surveys.members]
    constructor
    · rintro (same | ⟨shown, visit, waiting, leads⟩)
      · obtain ⟨rfl, rfl⟩ := Prod.mk.inj same
        exact ⟨shows, _, List.mem_cons_self, rfl⟩
      · exact ⟨shown, visit, List.mem_cons_of_mem _ waiting, leads⟩
    · rintro ⟨shown, visit, member, leads⟩
      rcases List.mem_cons.mp member with rfl | waiting
      · obtain rfl : path = names := leads
        exact .inl (congrArg (path, ·) (shown.routed_eq shows))
      · exact .inr ⟨shown, visit, waiting, leads⟩
  ordered := by
    rw [List.map_cons, List.pairwise_cons]
    refine ⟨?_, surveys.ordered⟩
    intro path member
    obtain ⟨⟨other, name⟩, listed, rfl⟩ := List.mem_map.mp member
    obtain ⟨-, visit, waiting, leads⟩ := (surveys.members other name).mp listed
    exact (List.pairwise_cons.mp ordered).1 visit waiting names other rfl leads

theorem Surveys.of_visit_more {agenda visits : List Visit} {visit : Visit}
    {found : List (List FileName × RoutedName)}
    (surveys : plan.Surveys top (visits ++ agenda) found)
    (visited : plan.visit disk visit = .more visits)
    (continues : plan.Continues top visit visits) :
    plan.Surveys top (visit :: agenda) found where
  members path name := by
    rw [surveys.members]
    constructor
    · rintro ⟨shown, next, member, leads⟩
      rcases List.mem_append.mp member with inside | waiting
      · exact ⟨shown, visit, List.mem_cons_self, leads_to_of_visit_more visited inside leads⟩
      · exact ⟨shown, next, List.mem_cons_of_mem _ waiting, leads⟩
    · rintro ⟨shown, next, member, leads⟩
      rcases List.mem_cons.mp member with rfl | waiting
      · obtain ⟨follower, inside, reached⟩ := continues.covers path name shown leads
        exact ⟨shown, follower, List.mem_append_left _ inside, reached⟩
      · exact ⟨shown, next, List.mem_append_right _ waiting, leads⟩
  ordered := surveys.ordered

/-- A scan of an agenda in order gives files only, and those that its visits lead to. -/
theorem survey_agenda (listable : plan.Listable disk top) (agenda : List Visit)
    (real : ∀ visit ∈ agenda, plan.Real top visit)
    (ordered : agenda.Pairwise Visit.Precedes) :
    ∃ found, plan.Surveys top agenda found ∧
      (Scan.underway agenda).rest plan disk false = (found.map plan.fileOf).map .ok := by
  -- Every visit that is made leaves an agenda with less weight.
  induction size : plan.agendaWeight disk agenda using Nat.strongRecOn generalizing agenda with
  | ind weight induction =>
      subst size
      cases agenda with
      | nil => exact ⟨[], surveys_nil, Scan.rest_nil⟩
      | cons visit agenda =>
          have realVisit := real visit List.mem_cons_self
          have realRest : ∀ other ∈ agenda, plan.Real top other := fun other member =>
            real other (List.mem_cons_of_mem _ member)
          rcases visit_real listable realVisit with
            ⟨names, routed, rfl, shows, visited⟩ | ⟨visits, visited, continues⟩
          · have positive := plan.weight_pos disk (.entry names .file)
            obtain ⟨found, surveys, listed⟩ := induction _
              (by rw [agendaWeight]; omega) agenda realRest (List.pairwise_cons.mp ordered).2 rfl
            refine ⟨(names, routed) :: found, surveys.of_visit_found shows ordered, ?_⟩
            rw [Scan.rest_of_visit_found visited, listed, List.map_cons, List.map_cons]
          · have lighter := agenda_weight_visit_lt visited
            have realNext : ∀ other ∈ visits ++ agenda, plan.Real top other := by
              intro other member
              exact (List.mem_append.mp member).elim (continues.real other) (realRest other)
            obtain ⟨found, surveys, listed⟩ := induction _
              (by rw [agenda_weight_append, agendaWeight]; omega) (visits ++ agenda) realNext
              (agenda_ordered_visit ordered visited) rfl
            refine ⟨found, surveys.of_visit_more visited continues, ?_⟩
            rw [Scan.rest_of_visit_more visited, listed]

theorem Listable.lone_file_listed {folder name : FileName} {content : ByteArray}
    (routed : RoutedName)
    (listable : plan.Listable disk (.folder [(folder, .folder [(name, .file content)])]))
    (legal : plan.legal (plan.relative (plan.pathOf [folder])) = true)
    (named : RoutedName.ofPath? (plan.relative (plan.pathOf [folder, name])) plan.extension =
      some routed) :
    Scan.start.rest plan disk false = [.ok (plan.fileOf ([folder, name], routed))] := by
  have admitted : plan.Admits [folder] := admits_snoc.mpr ⟨admits_nil, legal⟩
  have leads : (Entry.folder [(folder, .folder [(name, .file content)])]).at? [folder] =
      some (.folder [(name, .file content)]) := by
    simp [Entry.at?, Folder.find?]
  have lone (names : List FileName) (item : FileName × EntryKind) :
      Visit.ofListing names [item] = [.entry (names ++ [item.1]) item.2] :=
    Visit.of_listing_of_sorted names (List.pairwise_singleton _ _)
  have base : plan.visit disk .base = .more [.entry [folder] .folder] := by
    rw [listable.visit_base]
    exact congrArg Sighting.more (lone [] (folder, .folder))
  have inner : plan.visit disk (.entry [folder] .folder) = .more [.entry [folder, name] .file] := by
    rw [listable.visit_folder leads admitted (by simp)]
    exact congrArg Sighting.more (lone [folder] (name, .file))
  have file : plan.visit disk (.entry [folder, name] .file) =
      .found (plan.fileOf ([folder, name], routed)) := by
    simp [ScanPlan.visit, visitFile, named, fileOf]
  rw [Scan.start, Scan.rest_of_visit_more base, List.append_nil, Scan.rest_of_visit_more inner,
    List.append_nil, Scan.rest_of_visit_found file, Scan.rest_nil]

end ScanPlan

def pathBelowRoot (parts : List String) (names : List FileName) : String :=
  normalizePath (Path.ofPieces (parts ++ names.map FileName.text))

/-- A file of a tree that is an endpoint: real folders with legal paths lead to a real file, not
directly in the folder of modules, whose path follows the naming convention. -/
structure IsEndpointFile (legal : String → Bool) (extension : String) (parts : List String)
    (top : Entry) (names : List FileName) (routed : RoutedName) : Prop where
  deep : 2 ≤ names.length
  isFile : ∃ content, top.at? names = some (.file content)
  legalWay : ∀ front rest, names = front ++ rest → front ≠ [] → rest ≠ [] →
    legal (pathBelowRoot parts front) = true
  named : RoutedName.ofPath? (pathBelowRoot parts names) extension = some routed

namespace ScanPlan

theorem relative_path_of {plan : ScanPlan} {parts : List String}
    (base : plan.base = Path.join plan.root (Path.ofPieces parts))
    (ordinary : ∀ part ∈ parts, Path.isOrdinary part = true) {names : List FileName}
    (nonempty : names ≠ []) : plan.relative (plan.pathOf names) = pathBelowRoot parts names := by
  rw [relative, pathOf, base,
    Path.strip_base_join_names plan.root ordinary (by simpa using nonempty)
      (FileName.texts_ordinary names),
    Option.getD_some, pathBelowRoot]

theorem shows_iff {plan : ScanPlan} {parts : List String}
    (base : plan.base = Path.join plan.root (Path.ofPieces parts))
    (ordinary : ∀ part ∈ parts, Path.isOrdinary part = true) {top : Entry}
    {names : List FileName} {routed : RoutedName} :
    plan.Shows top names routed ↔
      IsEndpointFile plan.legal plan.extension parts top names routed := by
  constructor
  · intro shows
    have nonempty : names ≠ [] := by
      rintro rfl
      exact absurd shows.deep (by decide)
    refine ⟨shows.deep, shows.isFile, ?_, ?_⟩
    · intro front rest split deeper further
      have way := shows.admitted
      rw [split, List.dropLast_append_of_ne_nil further] at way
      rw [← relative_path_of base ordinary deeper]
      exact way front rest.dropLast rfl deeper
    · rw [← relative_path_of base ordinary nonempty]
      exact shows.named
  · intro endpoint
    have nonempty : names ≠ [] := by
      rintro rfl
      exact absurd endpoint.deep (by decide)
    refine ⟨endpoint.deep, endpoint.isFile, ?_, ?_⟩
    · intro front rest split deeper
      rw [relative_path_of base ordinary deeper]
      apply endpoint.legalWay front (rest ++ [names.getLast nonempty]) _ deeper (by simp)
      rw [← List.append_assoc, ← split, List.dropLast_concat_getLast]
    · rw [relative_path_of base ordinary nonempty]
      exact endpoint.named

end ScanPlan

/-- A scan gives all files that are endpoints, each of them once and in their order, and then
nothing, in whatever order the folders hold their entries. -/
theorem scan_finds_endpoint_files (disk : Disk) (root : String) (settings : Settings)
    (legal : String → Bool) {parts : List String} {top : Entry}
    (ordinary : ∀ part ∈ parts, Path.isOrdinary part = true)
    (modules : settings.modulesFolder = Path.ofPieces parts)
    (found : disk.find (Path.join root settings.modulesFolder) = .ok top)
    (folder : ∃ entries, top = .folder entries)
    (short : ∀ names entries, top.at? names = some (.folder entries) →
      (∀ front rest, names = front ++ rest → front ≠ [] →
        legal (pathBelowRoot parts front) = true) →
      ((ScanPlan.ofSettings root settings).pathOf names).utf8ByteSize ≤ Disk.pathLimit) :
    let plan := { ScanPlan.ofSettings root settings with legal := legal }
    ∃ files : List (List FileName × RoutedName),
      (∀ names routed, (names, routed) ∈ files ↔
        IsEndpointFile legal settings.extension parts top names routed) ∧
      (files.map Prod.fst).Nodup ∧
      (files.map Prod.fst).Pairwise WalksBefore ∧
      ∀ steps, ((Scan.start.after plan disk steps).next plan disk false).1 =
        files[steps]?.map fun file => .ok ⟨plan.pathOf file.1, file.2.route, file.2.verb⟩ := by
  intro plan
  have base : plan.base = Path.join plan.root (Path.ofPieces parts) := by
    rw [← modules]
    rfl
  have listable : plan.Listable disk top := by
    refine ⟨found, folder, ?_⟩
    intro names entries leads admits
    apply short names entries leads
    intro front rest split nonempty
    rw [← ScanPlan.relative_path_of base ordinary nonempty]
    exact admits front rest split nonempty
  obtain ⟨files, surveys, listed⟩ := ScanPlan.survey_agenda listable [.base]
    (fun visit member => by rw [List.mem_singleton.mp member]; trivial)
    (List.pairwise_singleton _ _)
  refine ⟨files, ?_, ?_, surveys.ordered, ?_⟩
  · intro names routed
    rw [surveys.members, ScanPlan.shows_iff base ordinary]
    exact and_iff_left ⟨.base, List.mem_singleton_self _, trivial⟩
  · exact surveys.ordered.imp WalksBefore.ne
  · intro steps
    rw [Scan.start, Scan.next_after_of_listed listed, List.getElem?_map, Option.map_map]
    rfl

def shopModules : Entry :=
  .folder [(⟨"alias", by decide⟩, .link "shop"), (⟨"loose.get.hl", by decide⟩, .file .empty),
    (⟨"shop", by decide⟩, .folder [(⟨"cart.put.hl", by decide⟩, .file .empty),
      (⟨"items.get.hl", by decide⟩, .file .empty)])]

def shopDisk : Disk where
  top := .folder [(⟨"top", by decide⟩, .folder [(⟨"modules", by decide⟩, shopModules)])]

theorem find_in_shop (names : List FileName) {path : String} {entry : Entry}
    (pieces : Disk.piecesOf path = .ok (names.map FileName.text))
    (leads : shopDisk.at? names = some entry) (noLink : entry.kind ≠ .link) :
    shopDisk.find path = .ok entry :=
  Disk.find_of_leads names (ite_self []) pieces leads noLink

theorem find_shop_modules : shopDisk.find "top/modules" = .ok shopModules :=
  find_in_shop [⟨"top", by decide⟩, ⟨"modules", by decide⟩] rfl rfl (by decide)

theorem shop_paths_short : ∀ names ∈ shopModules.folders,
    ((ScanPlan.ofSettings "top" {}).pathOf names).utf8ByteSize ≤ Disk.pathLimit := by
  decide

theorem scan_finds_shop_files :
    shopDisk.find (Path.join "top" "modules") = .ok shopModules ∧
    ∃ files : List (List FileName × RoutedName),
      (∀ names routed, (names, routed) ∈ files ↔
        IsEndpointFile isLegalRoute "hl" ["modules"] shopModules names routed) ∧
      (files.map Prod.fst).Nodup ∧
      (files.map Prod.fst).Pairwise WalksBefore ∧
      ∀ steps, ((Scan.start.after (ScanPlan.ofSettings "top" {}) shopDisk steps).next
          (ScanPlan.ofSettings "top" {}) shopDisk false).1 =
        files[steps]?.map fun file =>
          .ok ⟨(ScanPlan.ofSettings "top" {}).pathOf file.1, file.2.route, file.2.verb⟩ := by
  constructor
  · exact find_shop_modules
  · apply scan_finds_endpoint_files shopDisk "top" {} isLegalRoute (by decide) rfl
      find_shop_modules ⟨_, rfl⟩
    intro names entries leads _
    exact shop_paths_short names (Entry.mem_folders_of_at leads)

section LoneFiles

variable (folder name : FileName) (content : ByteArray)

def loneModules : Entry := .folder [(folder, .folder [(name, .file content)])]

def loneDisk : Disk where
  top := .folder [(⟨"top", by decide⟩,
    .folder [(⟨"modules", by decide⟩, loneModules folder name content)])]

theorem find_lone_modules :
    (loneDisk folder name content).find "top/modules" = .ok (loneModules folder name content) :=
  Disk.find_of_leads [⟨"top", by decide⟩, ⟨"modules", by decide⟩] rfl rfl rfl nofun

theorem lone_disk_listed {routed : RoutedName} {plan : ScanPlan}
    (base : plan.base = "top/modules")
    (short : ∀ names ∈ (loneModules folder name content).folders,
      (plan.pathOf names).utf8ByteSize ≤ Disk.pathLimit)
    (legal : plan.legal (plan.relative (plan.pathOf [folder])) = true)
    (named : RoutedName.ofPath? (plan.relative (plan.pathOf [folder, name])) plan.extension =
      some routed) :
    Scan.start.rest plan (loneDisk folder name content) false =
      [.ok (plan.fileOf ([folder, name], routed))] := by
  have found : (loneDisk folder name content).find plan.base =
      .ok (loneModules folder name content) := by
    rw [base]
    exact find_lone_modules folder name content
  have listable : plan.Listable (loneDisk folder name content) (loneModules folder name content) :=
    .of_folders found ⟨_, rfl⟩ short
  exact listable.lone_file_listed routed legal named

end LoneFiles

end RouteManifest
