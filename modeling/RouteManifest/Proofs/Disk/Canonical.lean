import RouteManifest.Proofs.Disk.Entry

/-!
Canonical paths. The canonical path of an entry tells the folders that lead to it, so a canonical
path leads where it says. Below it a walk through names comes across no links where there are
none, and a path that is continued by such names stays canonical.
-/

namespace RouteManifest

namespace Entry

/-- Neither an entry nor anything below it is a link. -/
def IsLinkFree (entry : Entry) : Prop := ∀ names target, entry.at? names ≠ some (.link target)

theorem IsLinkFree.of_at {entry inner : Entry} {names : Location} (free : entry.IsLinkFree)
    (leads : entry.at? names = some inner) : inner.IsLinkFree := by
  intro rest target reached
  apply free (names ++ rest) target
  rw [at_append, leads]
  exact reached

theorem is_link_free_file (content : ByteArray) : (file content).IsLinkFree := by
  intro names target reached
  cases names <;> simp [at?] at reached

theorem is_link_free_folder_iff {entries : List (FileName × Entry)} :
    (folder entries).IsLinkFree ↔
      ∀ name inner, (name, inner) ∈ Folder.distinct entries → inner.IsLinkFree := by
  constructor
  · intro free name inner member
    exact free.of_at (at_singleton.mpr member)
  · intro inside names target reached
    cases names with
    | nil => simp [at?] at reached
    | cons name rest =>
        obtain ⟨inner, first, later⟩ := at_cons reached
        exact inside name inner (at_singleton.mp first) rest target later

end Entry

namespace Location

theorem stem_to_text (location : Location) :
    Path.stem location.toText = "" :: location.map FileName.text := by
  have relative := Path.not_absolute_of_pieces (FileName.texts_ordinary location)
  have joined : location.toText = Path.join "/" (Path.ofPieces (location.map FileName.text)) := by
    rw [toText, Path.join, relative]
    rfl
  rw [joined, Path.stem_join "/" relative, Path.stem_of_pieces (FileName.texts_ordinary location)]
  rfl

theorem pieces_to_text {location : Location} (below : location ≠ []) :
    Path.pieces location.toText = "" :: location.map FileName.text := by
  have cut := Path.pieces_append_slash "" (Path.ofPieces (location.map FileName.text))
  rw [String.empty_append] at cut
  rw [toText, cut, Path.pieces_of_pieces (by simpa using below)
    fun text member => Path.not_slash_of_ordinary (FileName.texts_ordinary location text member)]
  rfl

theorem is_absolute_to_text (location : Location) : Path.isAbsolute location.toText = true := by
  simp [toText, Path.isAbsolute]

end Location

namespace Disk

variable {disk : Disk}

theorem walk_idle {location : Location} {links : Nat} {piece : String} {rest : List String}
    {entries : List (FileName × Entry)} (here : disk.at? location = some (.folder entries))
    (idle : Path.isIdle piece = true) :
    disk.walk location links (piece :: rest) = disk.walk location links rest := by
  rw [walk.eq_def]
  simp [here, idle]

theorem walk_idle_eq_ok {location : Location} {links : Nat} {piece : String} {walker : Walker}
    (idle : Path.isIdle piece = true) (walked : disk.walk location links [piece] = .ok walker) :
    walker = ⟨location, links⟩ := by
  rw [walk.eq_def] at walked
  cases here : disk.at? location with
  | none => simp [here] at walked
  | some entry =>
      cases entry with
      | folder entries => simpa [here, idle, walk] using walked.symm
      | _ => simp [here] at walked

/-- Where there are no links, a walk through ordinary pieces goes down by these names. -/
theorem walk_of_link_free {location : Location} {links : Nat} {pieces : List String}
    {entry : Entry} {walker : Walker} (here : disk.at? location = some entry)
    (free : entry.IsLinkFree) (ordinary : ∀ piece ∈ pieces, Path.isOrdinary piece = true)
    (walked : disk.walk location links pieces = .ok walker) :
    walker.location.map FileName.text = location.map FileName.text ++ pieces := by
  induction pieces generalizing location links entry with
  | nil =>
      rw [walk, Except.ok.injEq] at walked
      rw [← walked, List.append_nil]
  | cons piece rest induction =>
      have isOrdinary := ordinary piece List.mem_cons_self
      obtain ⟨busy, notParent, -⟩ := Path.is_ordinary_iff.mp isOrdinary
      rw [← List.singleton_append, walk_append] at walked
      cases first : disk.walk location links [piece] with
      | error fault => simp [first] at walked
      | ok reached =>
          simp only [first] at walked
          obtain ⟨entries, name, inner, folder, -, finds, ends⟩ :=
            walk_name_eq_ok busy notParent first
          obtain rfl : name.text = piece := Folder.find_text finds
          obtain rfl : entry = .folder entries := Option.some.inj (here.symm.trans folder)
          have below : (Entry.folder entries).at? [name] = some inner :=
            Entry.at_singleton.mpr (Folder.mem_distinct_iff.mpr finds)
          have there : disk.at? (location ++ [name]) = some inner :=
            (at_behind here [name]).trans below
          rcases ends with ⟨target, rfl⟩ | ends
          · exact absurd below (free [name] target)
          · rw [ends] at walked
            have later := induction there (free.of_at below)
              (fun other member => ordinary other (List.mem_cons_of_mem _ member)) walked
            rw [later, List.map_append, List.map_singleton, List.append_assoc,
              List.singleton_append]

theorem walk_absolute {links : Nat} {names : List FileName} {entry : Entry}
    (top : ∃ entries, disk.top = .folder entries) (leads : disk.at? names = some entry)
    (noLink : entry.kind ≠ .link) :
    disk.walk [] links ("" :: names.map FileName.text) = .ok ⟨names, links⟩ := by
  obtain ⟨entries, folder⟩ := top
  have here : disk.at? [] = some (.folder entries) := by
    rw [Disk.at?, folder]
    rfl
  rw [walk_idle here rfl]
  exact walk_names rfl leads noLink

theorem pieces_of_any {path : String} {pieces : List String}
    (cut : anyPiecesOf path = .ok pieces) : pieces = Path.pieces path := by
  unfold anyPiecesOf at cut
  split at cut
  · cases cut
  · split at cut
    · cases cut
    · exact (Except.ok.inj cut).symm

theorem any_of_pieces_of {path : String} {pieces : List String}
    (cut : piecesOf path = .ok pieces) : anyPiecesOf path = .ok pieces := by
  unfold piecesOf at cut
  cases whole : anyPiecesOf path with
  | error fault => simp [whole, bind, Except.bind] at cut
  | ok others =>
      simp only [whole, bind, Except.bind] at cut
      split at cut
      · cases cut
      · exact cut

theorem canonical_eq_ok_iff {path text : String} :
    disk.canonical path = .ok text ↔
      ∃ pieces walker, anyPiecesOf path = .ok pieces ∧
        disk.walk (disk.startOf path) linkLimit pieces = .ok walker ∧
        disk.inReach (disk.startOf path) linkLimit pieces = true ∧
        walker.location.toText = text := by
  rw [canonical]
  cases cut : anyPiecesOf path with
  | error fault => simp [bind, Except.bind]
  | ok pieces =>
      cases walked : disk.walk (disk.startOf path) linkLimit pieces with
      | error fault => simp [walked, bind, Except.bind]
      | ok walker =>
          cases reach : disk.inReach (disk.startOf path) linkLimit pieces <;>
            simp [walked, reach, bind, Except.bind]

theorem start_of_absolute {path : String} (absolute : Path.isAbsolute path = true) :
    disk.startOf path = [] := by
  simp [startOf, absolute]

theorem is_absolute_of_canonical {path text : String} (canonical : disk.canonical path = .ok text) :
    Path.isAbsolute text = true := by
  obtain ⟨-, walker, -, -, -, rfl⟩ := canonical_eq_ok_iff.mp canonical
  exact walker.location.is_absolute_to_text

/-- The pieces of a canonical path name the folders that lead to what is found there. -/
theorem walk_stem_of_canonical {root : String} {tree : Entry}
    (canonical : disk.canonical root = .ok root) (found : disk.find root = .ok tree) :
    ∃ location links, Path.stem root = "" :: location.map FileName.text ∧
      disk.walk [] linkLimit (Path.stem root) = .ok ⟨location, links⟩ ∧
      disk.at? location = some tree := by
  have start : disk.startOf root = [] := start_of_absolute (is_absolute_of_canonical canonical)
  obtain ⟨pieces, walker, cut, walked, here⟩ := find_eq_ok_iff.mp found
  obtain ⟨others, reached, whole, walkedAgain, -, same⟩ := canonical_eq_ok_iff.mp canonical
  obtain rfl : others = pieces := Except.ok.inj (whole.symm.trans (any_of_pieces_of cut))
  obtain rfl : reached = walker := Except.ok.inj (walkedAgain.symm.trans walked)
  have names : Path.stem root = "" :: reached.location.map FileName.text := by
    rw [← same]
    exact reached.location.stem_to_text
  obtain rfl := pieces_of_any whole
  rw [start] at walked
  rcases Path.pieces_eq_stem root with blank | ⟨kept, -⟩
  · rw [blank, walk_append] at walked
    cases before : disk.walk [] linkLimit (Path.stem root) with
    | error fault => simp [before] at walked
    | ok walker =>
        rw [before] at walked
        obtain rfl := walk_idle_eq_ok rfl walked
        exact ⟨walker.location, walker.links, names, rfl, here⟩
  · rw [kept] at walked
    exact ⟨reached.location, reached.links, names, walked, here⟩

/-- A path that names something below a canonical root stays as it is where there are no links,
whether or not it leads to anything. -/
theorem canonical_or_same_below {root path : String} {tree : Entry} {names : List String}
    (canonical : disk.canonical root = .ok root) (found : disk.find root = .ok tree)
    (free : tree.IsLinkFree) (absolute : Path.isAbsolute path = true)
    (cut : Path.pieces path = Path.stem root ++ names) (nonempty : names ≠ [])
    (ordinary : ∀ name ∈ names, Path.isOrdinary name = true) :
    disk.canonicalOrSame path = path := by
  obtain ⟨location, links, stem, walked, here⟩ := walk_stem_of_canonical canonical found
  cases result : disk.canonical path with
  | error fault => rw [canonicalOrSame, result]
  | ok text =>
      obtain ⟨pieces, walker, whole, reached, -, rfl⟩ := canonical_eq_ok_iff.mp result
      obtain rfl := pieces_of_any whole
      rw [start_of_absolute absolute, cut, walk_append, walked] at reached
      have ends := walk_of_link_free here free ordinary reached
      have below : walker.location ≠ [] := by
        intro none
        rw [none, List.map_nil, eq_comm, List.append_eq_nil_iff] at ends
        exact nonempty ends.2
      have same : Path.pieces walker.location.toText = Path.pieces path := by
        rw [Location.pieces_to_text below, ends, cut, stem, List.cons_append]
      rw [canonicalOrSame, result]
      calc walker.location.toText
          = Path.ofPieces (Path.pieces walker.location.toText) := (Path.of_pieces_pieces _).symm
        _ = path := by rw [same, Path.of_pieces_pieces]

end Disk

end RouteManifest
