import Mathlib.Data.List.Induction
import Mathlib.Data.List.Infix
import RouteManifest.Proofs.Disk.Canonical

/-!
Places in reach. A walk stays in reach when every place on its way has a path that is short
enough to be looked up. Then the place at its end has such a path too, which is canonical: it
leads back to that place. A canonical path is removed from another one exactly when it names a
folder on the way to it.
-/

namespace RouteManifest

namespace Location

theorem to_text_cons (name : FileName) (rest : Location) :
    toText (name :: rest) = "/" ++ name.text ++ if rest.isEmpty then "" else toText rest := by
  cases rest with
  | nil => simp [toText, Path.ofPieces]
  | cons next rest => simp [toText, Path.ofPieces, String.intercalate_cons_cons, String.append_assoc]

theorem to_text_concat (location : Location) (name : FileName) :
    toText (location ++ [name]) = Path.join location.toText name.text := by
  have below : location ++ [name] ≠ [] := by simp
  have relative := Path.not_absolute_of_ordinary name.ordinary
  rw [← Path.of_pieces_pieces (toText _), pieces_to_text below,
    ← Path.of_pieces_pieces (Path.join _ _), Path.pieces_join _ relative, stem_to_text,
    Path.pieces_of_ordinary name.ordinary, List.map_append, List.map_singleton, List.cons_append]

theorem to_text_size_mono {front location : Location} (starts : front <+: location) :
    front.toText.utf8ByteSize ≤ location.toText.utf8ByteSize := by
  induction front generalizing location with
  | nil => simp [toText, Path.ofPieces, String.utf8ByteSize_append]
  | cons name front induction =>
      obtain ⟨rest, rfl, later⟩ := List.cons_prefix_iff.mp starts
      have inner := induction later
      rw [to_text_cons, to_text_cons]
      simp only [String.utf8ByteSize_append]
      cases front with
      | nil => simp
      | cons next front =>
          obtain ⟨others, rfl, -⟩ := List.cons_prefix_iff.mp later
          simpa using inner

theorem components_to_text (location : Location) :
    Path.components location.toText = .root :: location.map fun name => .normal name.text := by
  rw [Path.components_eq, stem_to_text, List.filterMap_cons_none rfl,
    Path.steps_of_ordinary (FileName.texts_ordinary location), List.map_map]
  rfl

theorem strip_base_append (root names : Location) :
    Path.stripBase? root.toText (toText (root ++ names)) =
      some (Path.ofPieces (names.map FileName.text)) := by
  by_cases top : root ++ names = []
  · obtain ⟨rfl, rfl⟩ := List.append_eq_nil_iff.mp top
    decide
  · have cut := pieces_to_text top
    apply Path.strip_base_of_pieces (FileName.texts_ordinary names)
    · rw [cut, stem_to_text, List.map_append, List.cons_append]
    · rw [cut, stem_to_text]

theorem of_strip_base {root location : Location} {relative : String}
    (below : Path.stripBase? root.toText location.toText = some relative) :
    ∃ names, location = root ++ names ∧ relative = Path.ofPieces (names.map FileName.text) := by
  obtain ⟨names, rfl⟩ : root <+: location := by
    rw [Path.stripBase?] at below
    split at below
    · next starts =>
        rw [List.isPrefixOf_iff_prefix, components_to_text, components_to_text,
          List.prefix_cons_inj] at starts
        apply (List.prefix_map_iff_of_injective _).mp starts
        intro name other same
        exact FileName.text_inj (Path.Component.normal.inj same)
    · cases below
  exact ⟨names, rfl, Option.some.inj (below.symm.trans (strip_base_append root names))⟩

end Location

namespace Disk

variable {disk : Disk}

theorem folder_above {front : Location} {name : FileName} {entry : Entry}
    (here : disk.at? (front ++ [name]) = some entry) :
    ∃ entries, disk.at? front = some (.folder entries) := by
  rw [Disk.at?, Entry.at_append] at here
  obtain ⟨folder, above, first⟩ := Option.bind_eq_some_iff.mp here
  obtain ⟨entries, rfl⟩ := Entry.folder_of_at_cons first
  exact ⟨entries, above⟩

theorem walk_up {location names : Location} {links : Nat} {entries : List (FileName × Entry)}
    {rest : List String} (here : disk.at? (location ++ names) = some (.folder entries)) :
    disk.walk (location ++ names) links (List.replicate names.length ".." ++ rest) =
      disk.walk location links rest := by
  induction names using List.reverseRecOn generalizing entries with
  | nil => simp
  | append_singleton front name induction =>
      have busy : Path.isIdle ".." = false := by decide
      rw [← List.append_assoc] at here ⊢
      obtain ⟨inner, above⟩ := folder_above here
      rw [List.length_append, List.length_singleton, List.replicate_succ, List.cons_append,
        walk.eq_def]
      simp only [here, busy, Bool.false_eq_true, if_false, if_true, List.dropLast_concat]
      exact induction above

theorem in_reach_idle {location : Location} {links : Nat} {piece : String} {rest : List String}
    {entries : List (FileName × Entry)} (here : disk.at? location = some (.folder entries))
    (idle : Path.isIdle piece = true) :
    disk.inReach location links (piece :: rest) = disk.inReach location links rest := by
  rw [inReach.eq_def]
  simp [here, idle]

theorem in_reach_up {location : Location} {links : Nat} {rest : List String}
    {entries : List (FileName × Entry)} (here : disk.at? location = some (.folder entries)) :
    disk.inReach location links (".." :: rest) = disk.inReach location.dropLast links rest := by
  have busy : Path.isIdle ".." = false := by decide
  rw [inReach.eq_def]
  simp [here, busy]

theorem asks_for_folder_name (name : FileName) (rest : List String) :
    asksForFolder (name.text :: rest) = false := by
  obtain ⟨busy, notParent, -⟩ := file_name_walked name
  simp [asksForFolder, busy, notParent]

/-- Names that lead through folders to something that is no link are in reach when the path to
the last of them is. -/
theorem in_reach_names_iff {location : Location} {links : Nat} {names : List FileName}
    {start entry : Entry} {rest : List String} (here : disk.at? location = some start)
    (leads : start.at? names = some entry) (noLink : entry.kind ≠ .link) :
    disk.inReach location links (names.map FileName.text ++ rest) = true ↔
      (names ≠ [] →
        (location ++ names).toText.utf8ByteSize + (asksForFolder rest).toNat ≤ pathLimit) ∧
      disk.inReach (location ++ names) links rest = true := by
  induction names generalizing location start with
  | nil => simp
  | cons name others induction =>
      obtain ⟨entries, rfl⟩ := Entry.folder_of_at_cons leads
      obtain ⟨inner, first, later⟩ := Entry.at_cons leads
      have member := Entry.at_singleton.mp first
      have behind := induction ((at_behind here [name]).trans first) later
      obtain ⟨busy, notParent, -⟩ := file_name_walked name
      rw [List.append_cons location, List.map_cons, List.cons_append, inReach.eq_def]
      simp only [here, busy, notParent, Folder.find_of_mem_distinct member]
      cases inner with
      | link target =>
          cases others with
          | nil =>
              rw [Entry.at?, Option.some.injEq] at later
              exact absurd (later ▸ rfl) noLink
          | cons other others => simp [Entry.at?] at later
      | _ =>
          simp only [Bool.false_eq_true, if_false, Bool.and_eq_true, decide_eq_true_eq, behind]
          cases others with
          | nil => simp
          | cons other others =>
              -- The paths of the folders on the way are shorter than the last one.
              have shorter := Location.to_text_size_mono
                (List.prefix_append (location ++ [name]) (other :: others))
              rw [List.map_cons, List.cons_append, asks_for_folder_name, Bool.toNat_false]
              simp only [ne_eq, reduceCtorEq, not_false_eq_true, forall_const]
              exact ⟨And.right, fun reach => ⟨by omega, reach⟩⟩

/-- A location at which there is something other than a link, with a path short enough to be
looked up. -/
structure IsPlace (disk : Disk) (location : Location) : Prop where
  holds : ∃ entry, disk.at? location = some entry ∧ entry.kind ≠ .link
  short : location.toText.utf8ByteSize ≤ pathLimit

namespace IsPlace

theorem of_folder {location : Location} {entries : List (FileName × Entry)}
    (here : disk.at? location = some (.folder entries))
    (short : location.toText.utf8ByteSize ≤ pathLimit) : disk.IsPlace location :=
  ⟨⟨_, here, by simp [Entry.kind]⟩, short⟩

theorem up {location : Location} (place : disk.IsPlace location) :
    disk.IsPlace location.dropLast := by
  obtain ⟨⟨entry, here, -⟩, short⟩ := id place
  rcases List.eq_nil_or_concat location with rfl | ⟨front, name, rfl⟩
  · exact place
  · rw [List.concat_eq_append] at here short ⊢
    rw [List.dropLast_concat]
    obtain ⟨entries, above⟩ := folder_above here
    exact .of_folder above
      (Nat.le_trans (Location.to_text_size_mono (List.prefix_append _ _)) short)

theorem top {location : Location} (place : disk.IsPlace location) : disk.IsPlace [] := by
  cases location with
  | nil => exact place
  | cons name rest =>
      obtain ⟨⟨entry, here, -⟩, -⟩ := place
      obtain ⟨entries, folder⟩ := Entry.folder_of_at_cons here
      exact .of_folder (congrArg some folder) (by decide)

end IsPlace

theorem folder_of_walk_cons {location : Location} {links : Nat} {piece : String}
    {rest : List String} {walker : Walker}
    (walked : disk.walk location links (piece :: rest) = .ok walker) :
    ∃ entries, disk.at? location = some (.folder entries) := by
  rw [walk.eq_def] at walked
  cases here : disk.at? location with
  | none => simp [here] at walked
  | some entry =>
      cases entry with
      | folder entries => exact ⟨entries, rfl⟩
      | _ => simp [here] at walked

/-- A walk that stays in reach leads from place to place. -/
theorem is_place_of_walk {location : Location} {links : Nat} {pieces : List String}
    {walker : Walker} (start : disk.IsPlace location)
    (walked : disk.walk location links pieces = .ok walker)
    (reach : disk.inReach location links pieces = true) : disk.IsPlace walker.location := by
  fun_induction walk disk location links pieces with
  | case1 location links =>
      obtain rfl := Except.ok.inj walked
      exact start
  | case2 location links piece rest entries here idle induction =>
      rw [in_reach_idle here idle] at reach
      exact induction start walked reach
  | case3 location links rest entries here busy induction =>
      rw [in_reach_up here] at reach
      exact induction start.up walked reach
  | case7 location piece rest entries here busy notParent _ name target finds links base induction =>
      rw [inReach.eq_def] at reach
      simp only [here, busy, notParent, finds, Bool.false_eq_true, if_false, Bool.and_eq_true] at reach
      have isBase : disk.IsPlace base := by
        unfold base
        split
        · exact start.top
        · exact start
      exact induction isBase walked reach.2
  | case8 location links piece rest entries here busy notParent _ name entry noLink finds induction =>
      rw [inReach.eq_def] at reach
      simp only [here, busy, notParent, finds, Bool.false_eq_true, if_false, Bool.and_eq_true,
        decide_eq_true_eq] at reach
      have there : disk.at? (location ++ [name]) = some entry := by
        rw [Disk.at?] at here ⊢
        rw [Entry.at_snoc, here, Folder.find_text finds]
        simp [finds]
      have solid : entry.kind ≠ .link := by
        cases entry with
        | link target => exact (noLink target rfl).elim
        | _ => simp [Entry.kind]
      exact induction ⟨⟨entry, there, solid⟩, by omega⟩ walked reach.2
  | _ => cases walked

theorem nul_not_mem_to_text (location : Location) : '\x00' ∉ location.toText.toList := by
  induction location with
  | nil => decide
  | cons name rest induction =>
      have valid := name.valid
      simp only [isFileName, Bool.and_eq_true, Bool.not_eq_true', List.contains_eq_mem,
        decide_eq_false_iff_not] at valid
      rw [Location.to_text_cons]
      cases rest <;> simp_all

theorem pieces_of_to_text {location : Location} (short : location.toText.utf8ByteSize ≤ pathLimit) :
    piecesOf location.toText = .ok (Path.pieces location.toText) := by
  have nonempty : location.toText.isEmpty = false := by simp [Location.toText]
  simp [piecesOf, anyPiecesOf, nul_not_mem_to_text, nonempty, bind, Except.bind, Nat.not_lt.mpr short]

namespace IsPlace

variable {location : Location} (place : disk.IsPlace location)
include place

/-- The canonical path of a place leads to it, in reach. -/
theorem walk_to_text (below : location ≠ []) :
    disk.walk [] linkLimit (Path.pieces location.toText) = .ok ⟨location, linkLimit⟩ ∧
      disk.inReach [] linkLimit (Path.pieces location.toText) = true := by
  obtain ⟨⟨entry, here, noLink⟩, short⟩ := place
  obtain ⟨name, rest, rfl⟩ := List.exists_cons_of_ne_nil below
  obtain ⟨entries, folder⟩ := Entry.folder_of_at_cons here
  have top : disk.at? [] = some (.folder entries) := congrArg some folder
  have leads : (Entry.folder entries).at? (name :: rest) = some entry := folder ▸ here
  have reach : disk.inReach [] linkLimit ((name :: rest).map FileName.text ++ []) = true :=
    (in_reach_names_iff top leads noLink).mpr ⟨fun _ => short, by rw [inReach]⟩
  rw [List.append_nil] at reach
  rw [Location.pieces_to_text below, walk_idle top rfl, in_reach_idle top rfl]
  exact ⟨walk_names top leads noLink, reach⟩

theorem canonical_to_text (below : location ≠ []) :
    disk.canonical location.toText = .ok location.toText := by
  obtain ⟨walked, reach⟩ := place.walk_to_text below
  have start : disk.startOf location.toText = [] := start_of_absolute location.is_absolute_to_text
  have cut := any_of_pieces_of (pieces_of_to_text place.short)
  exact canonical_eq_ok_iff.mpr ⟨_, _, cut, by rwa [start], by rwa [start], rfl⟩

end IsPlace

end Disk

end RouteManifest
