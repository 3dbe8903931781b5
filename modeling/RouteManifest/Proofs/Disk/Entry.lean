import RouteManifest.Disk.Access
import RouteManifest.Proofs.Disk.Path

/-!
Entries and what is listed of them. The entries of a folder that count are the ones that
their names find, a way through folders can be cut in two, and all ways to folders can be
listed. A path that is found leads to the folder that a walk through its pieces ends in.
-/

namespace RouteManifest

namespace Folder

theorem find_text {entries : List (FileName × Entry)} {text : String} {found : FileName × Entry}
    (finds : find? entries text = some found) : found.1.text = text := by
  simpa using List.find?_some finds

theorem find_name {entries : List (FileName × Entry)} {name : FileName} {found : FileName × Entry}
    (finds : find? entries name.text = some found) : found.1 = name := by
  have same := find_text finds
  obtain ⟨⟨text, valid⟩, entry⟩ := found
  cases name
  simp_all

theorem mem_distinct_iff {entries : List (FileName × Entry)} {name : FileName} {entry : Entry} :
    (name, entry) ∈ distinct entries ↔ find? entries name.text = some (name, entry) := by
  constructor
  · exact find_of_mem_distinct
  · intro finds
    induction entries with
    | nil => simp [find?] at finds
    | cons first rest induction =>
        obtain ⟨other, inner⟩ := first
        rw [distinct, List.mem_cons, List.mem_filter]
        by_cases same : other.text == name.text
        · have first_found : find? ((other, inner) :: rest) name.text = some (other, inner) := by
            simp [find?, same]
          rw [first_found] at finds
          exact .inl (Option.some.inj finds).symm
        · have later : find? rest name.text = some (name, entry) := by
            simpa [find?, List.find?_cons, same] using finds
          refine .inr ⟨induction later, ?_⟩
          simp only [decide_eq_true_eq]
          rintro rfl
          simp at same

theorem distinct_nodup (entries : List (FileName × Entry)) :
    ((distinct entries).map Prod.fst).Nodup := by
  induction entries with
  | nil => exact List.nodup_nil
  | cons first rest induction =>
      obtain ⟨name, entry⟩ := first
      rw [distinct, List.map_cons, List.nodup_cons]
      constructor
      · simp
      · exact induction.sublist (List.filter_sublist.map Prod.fst)

end Folder

namespace Entry

theorem at_append (entry : Entry) (front back : Location) :
    entry.at? (front ++ back) = (entry.at? front).bind fun inner => inner.at? back := by
  fun_induction at? entry front with
  | case1 entry => rfl
  | case2 entries step rest _ inner found induction =>
      simp [at?, found, induction]
  | case3 entries step rest missing => simp [at?, missing]
  | case4 entry step rest other => cases entry <;> simp_all [at?]

theorem folder_of_at_cons {entry found : Entry} {name : FileName} {rest : Location}
    (leads : entry.at? (name :: rest) = some found) : ∃ entries, entry = .folder entries := by
  cases entry with
  | folder entries => exact ⟨entries, rfl⟩
  | _ => simp [at?] at leads

theorem at_cons {entry found : Entry} {name : FileName} {rest : Location}
    (leads : entry.at? (name :: rest) = some found) :
    ∃ inner, entry.at? [name] = some inner ∧ inner.at? rest = some found := by
  rw [← List.singleton_append, at_append] at leads
  exact Option.bind_eq_some_iff.mp leads

theorem at_singleton {entries : List (FileName × Entry)} {name : FileName} {entry : Entry} :
    (folder entries).at? [name] = some entry ↔ (name, entry) ∈ Folder.distinct entries := by
  rw [Folder.mem_distinct_iff, at?]
  cases finds : Folder.find? entries name.text with
  | none => simp
  | some found =>
      have same := Folder.find_name finds
      obtain ⟨other, inner⟩ := found
      subst same
      simp [at?]

mutual
def folders : Entry → List Location
  | folder entries => [] :: foldersBelow entries
  | _ => []
def foldersBelow : List (FileName × Entry) → List Location
  | [] => []
  | (name, entry) :: rest => entry.folders.map (name :: ·) ++ foldersBelow rest
end

theorem cons_mem_folders_below {entries : List (FileName × Entry)} {name : FileName}
    {inner : Entry} {rest : Location} (member : (name, inner) ∈ entries)
    (below : rest ∈ inner.folders) : name :: rest ∈ foldersBelow entries := by
  induction entries with
  | nil => cases member
  | cons first others induction =>
      obtain ⟨other, entry⟩ := first
      rw [foldersBelow, List.mem_append]
      rcases List.mem_cons.mp member with same | later
      · obtain ⟨rfl, rfl⟩ := Prod.mk.inj same
        exact .inl (List.mem_map_of_mem below)
      · exact .inr (induction later)

theorem mem_folders_of_at {entry : Entry} {names : Location}
    {entries : List (FileName × Entry)} (leads : entry.at? names = some (.folder entries)) :
    names ∈ entry.folders := by
  induction names generalizing entry with
  | nil =>
      rw [at?, Option.some.injEq] at leads
      rw [leads, folders]
      exact List.mem_cons_self
  | cons name rest induction =>
      obtain ⟨own, rfl⟩ := folder_of_at_cons leads
      obtain ⟨inner, first, later⟩ := at_cons leads
      have finds := Folder.mem_distinct_iff.mp (at_singleton.mp first)
      rw [folders]
      apply List.mem_cons_of_mem
      exact cons_mem_folders_below (List.mem_of_find?_eq_some finds) (induction later)

end Entry

namespace Disk

variable {disk : Disk}

theorem at_behind {location : Location} {start : Entry} (here : disk.at? location = some start)
    (names : Location) : disk.at? (location ++ names) = start.at? names := by
  rw [Disk.at?] at here ⊢
  rw [Entry.at_append, here]
  rfl

theorem find_eq_ok_iff {path : String} {entry : Entry} :
    disk.find path = .ok entry ↔
      ∃ pieces walker, piecesOf path = .ok pieces ∧
        disk.walk (disk.startOf path) linkLimit pieces = .ok walker ∧
        disk.at? walker.location = some entry := by
  rw [find, locate]
  cases cut : piecesOf path with
  | error fault => simp [bind, Except.bind]
  | ok pieces =>
      cases walked : disk.walk (disk.startOf path) linkLimit pieces with
      | error fault => simp [walked, bind, Except.bind]
      | ok walker =>
          cases here : disk.at? walker.location <;>
            simp [walked, here, bind, Except.bind, pure, Except.pure]

theorem walk_name_eq_ok {location : Location} {links : Nat} {name : String} {walker : Walker}
    (busy : Path.isIdle name = false) (notParent : name ≠ "..")
    (walked : disk.walk location links [name] = .ok walker) :
    ∃ entries found entry, disk.at? location = some (.folder entries) ∧
      ¬ nameLimit < name.utf8ByteSize ∧ Folder.find? entries name = some (found, entry) ∧
      ((∃ target, entry = .link target) ∨ walker.location = location ++ [found]) := by
  rw [walk.eq_def] at walked
  cases here : disk.at? location with
  | none => simp [here] at walked
  | some entry =>
      cases entry with
      | folder entries =>
          simp only [here, busy, notParent, Bool.false_eq_true, if_false] at walked
          split at walked
          · cases walked
          · next short =>
              cases finds : Folder.find? entries name with
              | none => simp [finds] at walked
              | some found =>
                  obtain ⟨found, inner⟩ := found
                  refine ⟨entries, found, inner, rfl, short, finds, ?_⟩
                  cases inner with
                  | link target => exact .inl ⟨target, rfl⟩
                  | file content =>
                      simp only [finds, walk, Except.ok.injEq] at walked
                      exact .inr (by rw [← walked])
                  | folder inner =>
                      simp only [finds, walk, Except.ok.injEq] at walked
                      exact .inr (by rw [← walked])
      | _ => simp [here] at walked

theorem walk_names {location : Location} {links : Nat} {names : List FileName}
    {start entry : Entry} (here : disk.at? location = some start)
    (leads : start.at? names = some entry) (noLink : entry.kind ≠ .link) :
    disk.walk location links (names.map FileName.text) = .ok ⟨location ++ names, links⟩ := by
  induction names generalizing location start with
  | nil => simp [walk]
  | cons name rest induction =>
      obtain ⟨entries, rfl⟩ := Entry.folder_of_at_cons leads
      obtain ⟨inner, first, later⟩ := Entry.at_cons leads
      have member := Entry.at_singleton.mp first
      have there : disk.at? (location ++ [name]) = some inner := (at_behind here [name]).trans first
      have walked := induction there later
      rw [List.append_assoc, List.singleton_append] at walked
      obtain ⟨busy, notParent, short⟩ := file_name_walked name
      rw [List.map_cons, walk.eq_def]
      simp only [here, busy, notParent, Nat.not_lt.mpr short, Folder.find_of_mem_distinct member]
      cases inner with
      | link target =>
          cases rest with
          | nil =>
              rw [Entry.at?, Option.some.injEq] at later
              exact absurd (later ▸ rfl) noLink
          | cons other rest => simp [Entry.at?] at later
      | _ => simpa using walked

/-- From the top, a path that spells names is found where the names lead to. -/
theorem find_of_leads (names : List FileName) {path : String} {entry : Entry}
    (top : disk.startOf path = []) (pieces : piecesOf path = .ok (names.map FileName.text))
    (leads : disk.at? names = some entry) (noLink : entry.kind ≠ .link) :
    disk.find path = .ok entry := by
  apply find_eq_ok_iff.mpr
  refine ⟨_, ⟨names, linkLimit⟩, pieces, ?_, leads⟩
  rw [top]
  exact walk_names rfl leads noLink

theorem find_link_of_find_folder {path : String} {entries : List (FileName × Entry)}
    (found : disk.find path = .ok (.folder entries)) :
    disk.findLink path = .ok (.folder entries) ∨
      ∃ target, disk.findLink path = .ok (.link target) := by
  obtain ⟨pieces, walker, cut, walked, here⟩ := find_eq_ok_iff.mp found
  by_cases special :
      (Path.isIdle (pieces.getLast?.getD "") || pieces.getLast?.getD "" = "..") = true
  · left
    simp [findLink, cut, bind, Except.bind, special, found]
  · have solid : pieces ≠ [] := by
      rintro rfl
      exact special (by decide)
    obtain ⟨front, last, rfl⟩ := List.eq_nil_or_concat pieces |>.resolve_left solid
    rw [List.concat_eq_append] at cut walked special
    simp only [List.getLast?_append, List.getLast?_singleton, Option.some_or, Option.getD_some,
      Bool.or_eq_true, decide_eq_true_eq, not_or, Bool.not_eq_true] at special
    rw [walk_append] at walked
    cases before : disk.walk (disk.startOf path) linkLimit front with
    | error fault => simp [before] at walked
    | ok reached =>
        simp only [before] at walked
        obtain ⟨inner, name, entry, folder, short, finds, ends⟩ :=
          walk_name_eq_ok special.1 special.2 walked
        have seen : disk.findLink path = .ok entry := by
          simp [findLink, cut, bind, Except.bind, special, before, folder, short, finds]
        rcases ends with ⟨target, rfl⟩ | ends
        · exact .inr ⟨target, seen⟩
        · have there : disk.at? walker.location = some entry := by
            rw [Disk.at?] at folder ⊢
            rw [ends, Entry.at_snoc, folder, Folder.find_text finds]
            simp [finds]
          rw [here] at there
          exact .inl (Option.some.inj there ▸ seen)

end Disk

end RouteManifest
