import RouteManifest.Proofs.Disk.Entry
import RouteManifest.Proofs.Text.Octets
import RouteManifest.Scan.Basic

/-!
The order of a scan. A visit leads to files, given by the names that lead to them from the
topmost folder. The visits that follow a visit lead to some of its files, and each of them
leads to files before those of the next one. That needs distinct names in the listing of a
folder, and nothing of the file system that is found later.
-/

namespace RouteManifest

/-- The order of files. Where two ways part, a file comes before a folder, two files or two
folders stand in the order of the octets of their names. -/
inductive WalksBefore : List FileName → List FileName → Prop
  | fileFirst {common rest : List FileName} {first second : FileName}
      (different : first ≠ second) (deeper : rest ≠ []) :
      WalksBefore (common ++ [first]) (common ++ second :: rest)
  | files {common : List FileName} {first second : FileName}
      (less : Text.octets first.text < Text.octets second.text) :
      WalksBefore (common ++ [first]) (common ++ [second])
  | folders {common left right : List FileName} {first second : FileName}
      (less : Text.octets first.text < Text.octets second.text)
      (deeperLeft : left ≠ []) (deeperRight : right ≠ []) :
      WalksBefore (common ++ first :: left) (common ++ second :: right)

theorem WalksBefore.ne {left right : List FileName} (before : WalksBefore left right) :
    left ≠ right := by
  cases before with
  | fileFirst different deeper =>
      intro same
      exact different (List.cons.inj (List.append_cancel_left same)).1
  | files less =>
      intro same
      obtain ⟨rfl, -⟩ := List.cons.inj (List.append_cancel_left same)
      exact List.lt_irrefl _ less
  | folders less =>
      intro same
      obtain ⟨rfl, -⟩ := List.cons.inj (List.append_cancel_left same)
      exact List.lt_irrefl _ less

namespace Visit

/-- The files that a visit can lead to, whatever is found. -/
def LeadsTo : Visit → List FileName → Prop
  | .base, _ => True
  | .entry names .file, path => path = names
  | .entry _ .link, _ => False
  | .entry names .folder, path => ∃ rest, rest ≠ [] ∧ path = names ++ rest

def Precedes (earlier later : Visit) : Prop :=
  ∀ left right, earlier.LeadsTo left → later.LeadsTo right → WalksBefore left right

theorem leads_to_snoc {names path : List FileName} {name : FileName} {kind : EntryKind}
    (leads : (Visit.entry (names ++ [name]) kind).LeadsTo path) :
    ∃ rest, path = names ++ name :: rest ∧
      (kind = .file ∧ rest = [] ∨ kind = .folder ∧ rest ≠ []) := by
  cases kind with
  | file => exact ⟨[], leads, .inl ⟨rfl, rfl⟩⟩
  | link => exact leads.elim
  | folder =>
      obtain ⟨rest, deeper, rfl⟩ := leads
      exact ⟨rest, by simp, .inr ⟨rfl, deeper⟩⟩

theorem octets_lt_of_le {first second : FileName} (le : first.text ≤ second.text)
    (different : first ≠ second) : Text.octets first.text < Text.octets second.text := by
  apply Text.octets_lt
  apply Std.lt_of_le_of_ne le
  intro same
  obtain ⟨text, valid⟩ := first
  exact different (by cases second; simp_all)

theorem precedes_of_listed_before {names : List FileName} {first second : FileName × EntryKind}
    (listed : listedBefore first second = true) (different : first.1 ≠ second.1) :
    Precedes (.entry (names ++ [first.1]) first.2) (.entry (names ++ [second.1]) second.2) := by
  intro left right leadsLeft leadsRight
  obtain ⟨leftRest, rfl, leftKind⟩ := leads_to_snoc leadsLeft
  obtain ⟨rightRest, rfl, rightKind⟩ := leads_to_snoc leadsRight
  obtain ⟨firstName, firstKind⟩ := first
  obtain ⟨secondName, secondKind⟩ := second
  rcases leftKind with ⟨rfl, rfl⟩ | ⟨rfl, deeperLeft⟩
  · rcases rightKind with ⟨rfl, rfl⟩ | ⟨rfl, deeperRight⟩
    · have le : firstName.text ≤ secondName.text := by simpa [listedBefore] using listed
      exact .files (octets_lt_of_le le different)
    · exact .fileFirst different deeperRight
  · rcases rightKind with ⟨rfl, rfl⟩ | ⟨rfl, deeperRight⟩
    · simp [listedBefore] at listed
    · have le : firstName.text ≤ secondName.text := by simpa [listedBefore] using listed
      exact .folders (octets_lt_of_le le different) deeperLeft deeperRight

theorem listed_before_trans (first second third : FileName × EntryKind)
    (one : listedBefore first second = true) (two : listedBefore second third = true) :
    listedBefore first third = true := by
  obtain ⟨firstName, firstKind⟩ := first
  obtain ⟨secondName, secondKind⟩ := second
  obtain ⟨thirdName, thirdKind⟩ := third
  cases firstKind <;> cases secondKind <;> cases thirdKind <;>
    simp only [listedBefore, decide_eq_true_eq, Bool.false_eq_true] at one two ⊢ <;>
    exact String.le_trans one two

theorem listed_before_total (first second : FileName × EntryKind) :
    (listedBefore first second || listedBefore second first) = true := by
  obtain ⟨firstName, firstKind⟩ := first
  obtain ⟨secondName, secondKind⟩ := second
  have total := String.le_total firstName.text secondName.text
  cases firstKind <;> cases secondKind <;>
    simp only [listedBefore, Bool.or_eq_true, decide_eq_true_eq] <;> simp [total]

/-- The visits to the entries of a folder stand in the order of the files they lead to. -/
theorem of_listing_ordered (names : List FileName) {listing : List (FileName × EntryKind)}
    (distinct : (listing.map Prod.fst).Nodup) :
    (ofListing names listing).Pairwise Precedes := by
  have sorted : (listing.mergeSort listedBefore).Pairwise fun first second =>
      listedBefore first second = true :=
    List.pairwise_mergeSort listed_before_trans listed_before_total listing
  have different : (listing.mergeSort listedBefore).Pairwise fun first second =>
      first.1 ≠ second.1 := by
    have moved := (List.mergeSort_perm listing listedBefore).map Prod.fst
    exact List.pairwise_map.mp (moved.nodup_iff.mpr distinct)
  rw [ofListing, List.pairwise_map]
  apply (sorted.and different).imp
  intro first second both
  exact precedes_of_listed_before both.1 both.2

theorem of_listing_of_sorted (names : List FileName) {listing : List (FileName × EntryKind)}
    (sorted : listing.Pairwise fun first second => listedBefore first second = true) :
    ofListing names listing = listing.map fun item => .entry (names ++ [item.1]) item.2 := by
  rw [ofListing, List.mergeSort_of_pairwise sorted]

theorem mem_of_listing {names : List FileName} {listing : List (FileName × EntryKind)}
    {visit : Visit} :
    visit ∈ ofListing names listing ↔
      ∃ name kind, (name, kind) ∈ listing ∧ visit = .entry (names ++ [name]) kind := by
  simp only [ofListing, List.mem_map, List.mem_mergeSort, Prod.exists]
  constructor
  · rintro ⟨name, kind, member, rfl⟩
    exact ⟨name, kind, member, rfl⟩
  · rintro ⟨name, kind, member, rfl⟩
    exact ⟨name, kind, member, rfl⟩

end Visit

namespace ScanPlan

variable {plan : ScanPlan} {disk : Disk} {names : List FileName} {visit : Visit}

theorem list_below_nodup {listing : List (FileName × EntryKind)}
    (listed : plan.listBelow disk names = .ok listing) : (listing.map Prod.fst).Nodup := by
  unfold listBelow at listed
  split at listed
  · cases listed
  · split at listed
    · cases listed
    · unfold Disk.listAt at listed
      split at listed
      · cases listed
        rw [List.map_map]
        exact Folder.distinct_nodup _
      · cases listed
      · cases listed

theorem enter_eq_more {visits : List Visit} (entered : plan.enter disk names = .more visits) :
    ∃ listing, plan.listBelow disk names = .ok listing ∧
      visits = Visit.ofListing names listing := by
  unfold enter at entered
  split at entered
  · next listing listed => exact ⟨listing, listed, (Sighting.more.inj entered).symm⟩
  · simp [failedAt] at entered

theorem visit_base_eq_more {visits : List Visit}
    (visited : plan.visitBase disk = .more visits) :
    visits = [] ∨ plan.enter disk [] = .more visits := by
  unfold visitBase at visited
  split at visited
  · simp [failedAt] at visited
  · exact .inr visited
  · exact .inl (Sighting.more.inj visited).symm
  · split at visited
    · simp [failedAt] at visited
    · exact .inr visited
    · exact .inl (Sighting.more.inj visited).symm

theorem visit_file_eq_more {visits : List Visit} (visited : plan.visitFile names = .more visits) :
    visits = [] := by
  unfold visitFile at visited
  dsimp only at visited
  split at visited
  · exact (Sighting.more.inj visited).symm
  · split at visited
    · cases visited
    · exact (Sighting.more.inj visited).symm

theorem visit_eq_more {visits : List Visit} (visited : plan.visit disk visit = .more visits) :
    visits = [] ∨ ∃ names, (visit = .base ∧ names = [] ∨ visit = .entry names .folder) ∧
      plan.enter disk names = .more visits := by
  unfold ScanPlan.visit at visited
  split at visited
  · exact (visit_base_eq_more visited).imp id fun entered => ⟨[], .inl ⟨rfl, rfl⟩, entered⟩
  · exact .inl (visit_file_eq_more visited)
  · exact .inl (Sighting.more.inj visited).symm
  · next names =>
      split at visited
      · exact .inr ⟨names, .inr rfl, visited⟩
      · exact .inl (Sighting.more.inj visited).symm

theorem visit_more_ordered {visits : List Visit} (visited : plan.visit disk visit = .more visits) :
    visits.Pairwise Visit.Precedes := by
  rcases visit_eq_more visited with rfl | ⟨names, -, entered⟩
  · exact List.Pairwise.nil
  · obtain ⟨listing, listed, rfl⟩ := enter_eq_more entered
    exact Visit.of_listing_ordered names (list_below_nodup listed)

theorem leads_to_of_visit_more {visits : List Visit} {next : Visit} {path : List FileName}
    (visited : plan.visit disk visit = .more visits) (member : next ∈ visits)
    (leads : next.LeadsTo path) : visit.LeadsTo path := by
  rcases visit_eq_more visited with rfl | ⟨names, same, entered⟩
  · cases member
  · obtain ⟨listing, listed, rfl⟩ := enter_eq_more entered
    obtain ⟨name, kind, -, rfl⟩ := Visit.mem_of_listing.mp member
    obtain ⟨rest, rfl, -⟩ := Visit.leads_to_snoc leads
    rcases same with ⟨rfl, rfl⟩ | rfl
    · trivial
    · exact ⟨name :: rest, by simp, rfl⟩

/-- An agenda in order stays in order when its first visit is made. -/
theorem agenda_ordered_visit {visits rest : List Visit}
    (ordered : (visit :: rest).Pairwise Visit.Precedes)
    (visited : plan.visit disk visit = .more visits) :
    (visits ++ rest).Pairwise Visit.Precedes := by
  obtain ⟨first, others⟩ := List.pairwise_cons.mp ordered
  have between : ∀ next ∈ visits, ∀ later ∈ rest, Visit.Precedes next later := by
    intro next member later waiting left right leadsLeft leadsRight
    have reached := leads_to_of_visit_more visited member leadsLeft
    exact first later waiting left right reached leadsRight
  rw [List.pairwise_append]
  exact ⟨visit_more_ordered visited, others, between⟩

end ScanPlan

end RouteManifest
