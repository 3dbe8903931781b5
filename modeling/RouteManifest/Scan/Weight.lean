import RouteManifest.Scan.Visit

/-!
The size of what a scan has still to visit: for every visit one, and for a folder
also the number of entries below it. Entering a folder replaces its visit by visits
that are lighter together, so a scan of a file system that stands still comes to its end.
-/

namespace RouteManifest.ScanPlan

def sizeBelow (plan : ScanPlan) (disk : Disk) (names : List FileName) : Nat :=
  match plan.walkTo disk names with
  | .ok walker => ((disk.at? walker.location).map Entry.size).getD 0
  | .error _ => 0

def weight (plan : ScanPlan) (disk : Disk) : Visit → Nat
  | .base => 1 + plan.sizeBelow disk []
  | .entry names .folder => 1 + plan.sizeBelow disk names
  | .entry _ _ => 1

def agendaWeight (plan : ScanPlan) (disk : Disk) : List Visit → Nat
  | [] => 0
  | visit :: agenda => plan.weight disk visit + plan.agendaWeight disk agenda

theorem agenda_weight_append (plan : ScanPlan) (disk : Disk) (front back : List Visit) :
    plan.agendaWeight disk (front ++ back) =
      plan.agendaWeight disk front + plan.agendaWeight disk back := by
  induction front with
  | nil => simp [agendaWeight]
  | cons visit front ih => simp only [List.cons_append, agendaWeight, ih]; omega

theorem agenda_weight_of_perm (plan : ScanPlan) (disk : Disk) {left right : List Visit}
    (same : left.Perm right) : plan.agendaWeight disk left = plan.agendaWeight disk right := by
  induction same with
  | nil => rfl
  | cons visit _ ih => simp only [agendaWeight, ih]
  | swap first second rest => simp only [agendaWeight]; omega
  | trans _ _ first second => exact first.trans second

theorem weight_pos (plan : ScanPlan) (disk : Disk) (visit : Visit) : 0 < plan.weight disk visit := by
  unfold weight
  split <;> omega

theorem walk_to_snoc {plan : ScanPlan} {disk : Disk} {names : List FileName} {walker : Walker}
    {entries : List (FileName × Entry)} {name : FileName} {entry : Entry}
    (walked : plan.walkTo disk names = .ok walker)
    (here : disk.at? walker.location = some (.folder entries))
    (member : (name, entry) ∈ Folder.distinct entries) (noLink : entry.kind ≠ .link) :
    plan.walkTo disk (names ++ [name]) = .ok ⟨walker.location ++ [name], walker.links⟩ := by
  simp only [walkTo] at walked ⊢
  cases base : Disk.piecesOf plan.base with
  | error fault => simp [base, bind, Except.bind] at walked
  | ok pieces =>
      simp only [base, bind, Except.bind] at walked ⊢
      obtain ⟨busy, notParent, short⟩ := Disk.file_name_walked name
      rw [List.map_append, ← List.append_assoc, Disk.walk_append, walked]
      simp only [List.map_cons, List.map_nil]
      rw [Disk.walk.eq_def]
      simp only [here, busy, notParent, Nat.not_lt.mpr short,
        Folder.find_of_mem_distinct member]
      cases entry with
      | link => simp [Entry.kind] at noLink
      | _ => simp [Disk.walk]

theorem size_below_snoc {plan : ScanPlan} {disk : Disk} {names : List FileName} {walker : Walker}
    {entries : List (FileName × Entry)} {name : FileName} {entry : Entry}
    (walked : plan.walkTo disk names = .ok walker)
    (here : disk.at? walker.location = some (.folder entries))
    (member : (name, entry) ∈ Folder.distinct entries) (noLink : entry.kind ≠ .link) :
    plan.sizeBelow disk (names ++ [name]) = entry.size := by
  rw [Disk.at?] at here
  simp [sizeBelow, walk_to_snoc walked here member noLink, Disk.at?, Entry.at_snoc, here,
    Folder.find_of_mem_distinct member]

private theorem sum_weight_le {plan : ScanPlan} {disk : Disk} {names : List FileName}
    {walker : Walker} {entries : List (FileName × Entry)}
    (walked : plan.walkTo disk names = .ok walker)
    (here : disk.at? walker.location = some (.folder entries)) :
    ∀ some : List (FileName × Entry), (∀ item ∈ some, item ∈ Folder.distinct entries) →
      plan.agendaWeight disk (some.map fun item => .entry (names ++ [item.1]) item.2.kind)
        ≤ Entry.sizeAll some
  | [], _ => by simp [agendaWeight]
  | (name, entry) :: rest, members => by
      have later := sum_weight_le walked here rest fun item member =>
        members item (List.mem_cons_of_mem _ member)
      have first : plan.weight disk (.entry (names ++ [name]) entry.kind) ≤ entry.size + 1 := by
        cases kind : entry.kind with
        | folder =>
            have size := size_below_snoc walked here (members _ List.mem_cons_self) (by simp [kind])
            simp [weight, size]
            omega
        | _ => simp [weight]
      simp only [List.map_cons, agendaWeight, Entry.sizeAll]
      omega

theorem agenda_weight_enter_le {plan : ScanPlan} {disk : Disk} {names : List FileName}
    {visits : List Visit} (entered : plan.enter disk names = .more visits) :
    plan.agendaWeight disk visits ≤ plan.sizeBelow disk names := by
  have short : ¬ Disk.pathLimit < (plan.pathOf names).utf8ByteSize := fun long => by
    simp [enter, listBelow, long, failedAt] at entered
  cases walked : plan.walkTo disk names with
  | error fault => simp [enter, listBelow, short, walked, failedAt] at entered
  | ok walker =>
      cases here : disk.at? walker.location with
      | none => simp [enter, listBelow, short, walked, Disk.listAt, here, failedAt] at entered
      | some entry =>
          cases entry with
          | folder entries =>
              simp only [enter, listBelow, short, if_false, walked, Disk.listAt, here, Sighting.more.injEq]
                at entered
              subst entered
              have sorted := ((Folder.distinct entries).map fun item =>
                (item.1, item.2.kind)).mergeSort_perm Visit.listedBefore
              have bound := sum_weight_le walked here (Folder.distinct entries) fun _ member =>
                member
              have total := Entry.size_all_distinct_le entries
              have moved := plan.agenda_weight_of_perm disk (sorted.map fun item =>
                Visit.entry (names ++ [item.1]) item.2)
              simp only [Visit.ofListing, moved, sizeBelow, walked, here,
                Option.map_some, Option.getD_some, Entry.size]
              simp only [List.map_map, Function.comp_def] at bound ⊢
              omega
          | _ => simp [enter, listBelow, short, walked, Disk.listAt, here, failedAt] at entered

theorem agenda_weight_visit_lt {plan : ScanPlan} {disk : Disk} {visit : Visit}
    {visits : List Visit} (visited : plan.visit disk visit = .more visits) :
    plan.agendaWeight disk visits < plan.weight disk visit := by
  have positive := plan.weight_pos disk visit
  have light : visits = [] → plan.agendaWeight disk visits < plan.weight disk visit := by
    rintro rfl
    simpa [agendaWeight] using positive
  unfold ScanPlan.visit at visited
  split at visited
  · have entered : visits = [] ∨ plan.enter disk [] = .more visits := by
      simp only [visitBase, failedAt] at visited
      grind
    rcases entered with none | entered
    · exact light none
    · have := agenda_weight_enter_le entered
      simp only [weight]
      omega
  · simp only [visitFile] at visited
    grind
  · grind
  · split at visited
    · have := agenda_weight_enter_le visited
      simp only [weight]
      omega
    · grind

end RouteManifest.ScanPlan
