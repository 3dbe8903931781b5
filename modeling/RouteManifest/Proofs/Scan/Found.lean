import RouteManifest.Proofs.Scan.Survey

/-!
What the steps of a scan give on any file system, whatever happens to it between two steps.
A file that is given was led to, and what is still led to afterwards comes behind it. So the
files of a whole scan stand in the order of the walk, also when a failure ends it early.
-/

namespace RouteManifest

namespace ScanPlan

/-- The names are deep enough for an endpoint, and their path follows the convention. -/
structure Gives (plan : ScanPlan) (names : List FileName) (routed : RoutedName) : Prop where
  deep : 2 ≤ names.length
  named : RoutedName.ofPath? (plan.relative (plan.pathOf names)) plan.extension = some routed

variable {plan : ScanPlan} {disk : Disk} {names : List FileName} {visit : Visit}

theorem enter_eq_failed {failure : Failure} (entered : plan.enter disk names = .failed failure) :
    ∃ path cause, failure = .access path cause := by
  unfold enter at entered
  split at entered
  · cases entered
  · exact ⟨_, _, (Sighting.failed.inj entered).symm⟩

theorem visit_base_eq_failed {failure : Failure}
    (visited : plan.visitBase disk = .failed failure) :
    ∃ path cause, failure = .access path cause := by
  unfold visitBase at visited
  split at visited
  · exact ⟨_, _, (Sighting.failed.inj visited).symm⟩
  · exact enter_eq_failed visited
  · cases visited
  · split at visited
    · exact ⟨_, _, (Sighting.failed.inj visited).symm⟩
    · exact enter_eq_failed visited
    · cases visited

theorem visit_file_ne_failed {failure : Failure} : plan.visitFile names ≠ .failed failure := by
  unfold visitFile
  dsimp only
  split
  · exact Sighting.noConfusion
  · split <;> exact Sighting.noConfusion

theorem visit_eq_failed {failure : Failure} (visited : plan.visit disk visit = .failed failure) :
    ∃ path cause, failure = .access path cause := by
  unfold ScanPlan.visit at visited
  split at visited
  · exact visit_base_eq_failed visited
  · exact absurd visited visit_file_ne_failed
  · cases visited
  · split at visited
    · exact enter_eq_failed visited
    · cases visited

theorem enter_ne_found {file : ScriptFile} : plan.enter disk names ≠ .found file := by
  unfold enter
  split <;> exact Sighting.noConfusion

theorem visit_base_ne_found {file : ScriptFile} : plan.visitBase disk ≠ .found file := by
  unfold visitBase
  split
  · exact Sighting.noConfusion
  · exact enter_ne_found
  · exact Sighting.noConfusion
  · split
    · exact Sighting.noConfusion
    · exact enter_ne_found
    · exact Sighting.noConfusion

theorem visit_file_eq_found {file : ScriptFile} (visited : plan.visitFile names = .found file) :
    ∃ routed, plan.Gives names routed ∧ file = plan.fileOf (names, routed) := by
  unfold visitFile at visited
  dsimp only at visited
  split at visited
  · cases visited
  · next deep =>
      split at visited
      · next routed named =>
          exact ⟨routed, ⟨Nat.not_lt.mp deep, named⟩, (Sighting.found.inj visited).symm⟩
      · cases visited

theorem visit_eq_found {file : ScriptFile} (visited : plan.visit disk visit = .found file) :
    ∃ names routed, visit = .entry names .file ∧ plan.Gives names routed ∧
      file = plan.fileOf (names, routed) := by
  unfold ScanPlan.visit at visited
  split at visited
  · exact absurd visited visit_base_ne_found
  · next names =>
      obtain ⟨routed, gives, rfl⟩ := visit_file_eq_found visited
      exact ⟨names, routed, rfl, gives, rfl⟩
  · cases visited
  · split at visited
    · exact absurd visited enter_ne_found
    · cases visited

end ScanPlan

namespace Scan

variable {plan : ScanPlan} {disk : Disk}

/-- The files that a scan can still give, whatever it finds. -/
def LeadsTo : Scan → List FileName → Prop
  | underway agenda, names => ∃ visit ∈ agenda, visit.LeadsTo names
  | finished, _ => False

def Ordered : Scan → Prop
  | underway agenda => agenda.Pairwise Visit.Precedes
  | finished => True

/-- A step from one scan to another gives a file, in front of all that is led to later. -/
structure GivesNext (plan : ScanPlan) (scan later : Scan) (names : List FileName)
    (routed : RoutedName) : Prop where
  gives : plan.Gives names routed
  reached : scan.LeadsTo names
  ordered : later.Ordered
  kept : ∀ path, later.LeadsTo path → scan.LeadsTo path
  behind : ∀ path, later.LeadsTo path → WalksBefore names path

theorem start_ordered : start.Ordered := List.pairwise_singleton _ _

theorem advance_gives {agenda : List Visit} {file : ScriptFile} {later : Scan}
    (ordered : agenda.Pairwise Visit.Precedes)
    (stepped : advance plan disk agenda = (some (.ok file), later)) :
    ∃ names routed, file = plan.fileOf (names, routed) ∧
      GivesNext plan (underway agenda) later names routed := by
  fun_induction advance plan disk agenda with
  | case1 => simp at stepped
  | case2 => simp at stepped
  | case3 visit rest found visited =>
      obtain ⟨given, rfl⟩ := Prod.mk.inj stepped
      obtain rfl : found = file := Except.ok.inj (Option.some.inj given)
      obtain ⟨names, routed, rfl, gives, rfl⟩ := ScanPlan.visit_eq_found visited
      obtain ⟨first, others⟩ := List.pairwise_cons.mp ordered
      refine ⟨names, routed, rfl, gives, ⟨_, List.mem_cons_self, rfl⟩, others, ?_, ?_⟩
      · rintro path ⟨visit, waiting, leads⟩
        exact ⟨visit, List.mem_cons_of_mem _ waiting, leads⟩
      · rintro path ⟨visit, waiting, leads⟩
        exact first visit waiting names path rfl leads
  | case4 visit rest visits visited induction =>
      have next := ScanPlan.agenda_ordered_visit ordered visited
      obtain ⟨names, routed, rfl, step⟩ := induction next stepped
      -- What the new visits lead to was led to by the visit that they stand for.
      have before : ∀ path, (underway (visits ++ rest)).LeadsTo path →
          (underway (visit :: rest)).LeadsTo path := by
        rintro path ⟨follower, member, leads⟩
        rcases List.mem_append.mp member with inside | waiting
        · exact ⟨visit, List.mem_cons_self, ScanPlan.leads_to_of_visit_more visited inside leads⟩
        · exact ⟨follower, List.mem_cons_of_mem _ waiting, leads⟩
      exact ⟨names, routed, rfl, step.gives, before _ step.reached, step.ordered,
        fun path leads => before path (step.kept path leads), step.behind⟩

theorem next_gives {cancelled : Bool} {scan later : Scan} {file : ScriptFile}
    (ordered : scan.Ordered)
    (stepped : scan.next plan disk cancelled = (some (.ok file), later)) :
    ∃ names routed, file = plan.fileOf (names, routed) ∧
      GivesNext plan scan later names routed := by
  cases scan with
  | finished => simp [next] at stepped
  | underway agenda =>
      cases cancelled with
      | true => simp [next] at stepped
      | false => exact advance_gives ordered stepped

theorem advance_failed {agenda : List Visit} {failure : Failure} {later : Scan}
    (stepped : advance plan disk agenda = (some (.error failure), later)) :
    ∃ path cause, failure = .access path cause := by
  fun_induction advance plan disk agenda with
  | case1 => simp at stepped
  | case2 visit rest fault visited =>
      obtain ⟨given, -⟩ := Prod.mk.inj stepped
      obtain rfl : fault = failure := Except.error.inj (Option.some.inj given)
      exact ScanPlan.visit_eq_failed visited
  | case3 => simp at stepped
  | case4 visit rest visits visited induction => exact induction stepped

theorem next_failed {scan later : Scan} {failure : Failure}
    (stepped : scan.next plan disk false = (some (.error failure), later)) :
    ∃ path cause, failure = .access path cause := by
  cases scan with
  | finished => simp [next] at stepped
  | underway agenda => exact advance_failed stepped

/-- What ends the items of a scan: nothing, or one failure of the file system. -/
def IsEnd (items : List (Except Failure ScriptFile)) : Prop :=
  items = [] ∨ ∃ path cause, items = [.error (.access path cause)]

/-- The files that a scan gives, as far as it comes. -/
structure Finds (plan : ScanPlan) (disk : Disk) (scan : Scan)
    (found : List (List FileName × RoutedName)) : Prop where
  listed : ∃ items, IsEnd items ∧
    scan.rest plan disk false = (found.map plan.fileOf).map .ok ++ items
  given : ∀ names routed, (names, routed) ∈ found → plan.Gives names routed
  reached : ∀ names ∈ found.map Prod.fst, scan.LeadsTo names
  ordered : (found.map Prod.fst).Pairwise WalksBefore

theorem finds_nothing {scan : Scan} (ended : IsEnd (scan.rest plan disk false)) :
    Finds plan disk scan [] where
  listed := ⟨_, ended, rfl⟩
  given _ _ member := by cases member
  reached _ member := by cases member
  ordered := .nil

theorem Finds.cons {scan later : Scan} {names : List FileName} {routed : RoutedName}
    {found : List (List FileName × RoutedName)}
    (stepped : scan.next plan disk false = (some (.ok (plan.fileOf (names, routed))), later))
    (step : GivesNext plan scan later names routed) (finds : Finds plan disk later found) :
    Finds plan disk scan ((names, routed) :: found) where
  listed := by
    obtain ⟨items, ended, listed⟩ := finds.listed
    exact ⟨items, ended, by rw [rest_of_next_ok stepped, listed]; rfl⟩
  given path name member := by
    rcases List.mem_cons.mp member with same | later
    · obtain ⟨rfl, rfl⟩ := Prod.mk.inj same
      exact step.gives
    · exact finds.given path name later
  reached path member := by
    rcases List.mem_cons.mp member with rfl | later
    · exact step.reached
    · exact step.kept path (finds.reached path later)
  ordered := List.pairwise_cons.mpr
    ⟨fun path member => step.behind path (finds.reached path member), finds.ordered⟩

/-- A scan in order finds files in order. -/
theorem finds_exists (plan : ScanPlan) (disk : Disk) (scan : Scan) (ordered : scan.Ordered) :
    ∃ found, Finds plan disk scan found := by
  -- On a file system that stands still every step leaves less to do.
  induction size : scan.weight plan disk using Nat.strongRecOn generalizing scan with
  | ind weight induction =>
      subst size
      rcases stepped : scan.next plan disk false with ⟨_ | failure | file, later⟩
      · exact ⟨[], finds_nothing (.inl (rest_of_next_none stepped))⟩
      · obtain ⟨path, cause, rfl⟩ := next_failed stepped
        exact ⟨[], finds_nothing (.inr ⟨path, cause, rest_of_next_error stepped⟩)⟩
      · obtain ⟨names, routed, rfl, step⟩ := next_gives ordered stepped
        obtain ⟨found, finds⟩ := induction _ (weight_next_lt stepped) later step.ordered rfl
        exact ⟨(names, routed) :: found, finds.cons stepped step⟩

/-- The files among the items of a scan are those that it finds. -/
theorem Finds.listed_iff {scan : Scan} {found : List (List FileName × RoutedName)}
    (finds : Finds plan disk scan found) {file : ScriptFile} :
    .ok file ∈ scan.rest plan disk false ↔ file ∈ found.map plan.fileOf := by
  obtain ⟨items, ended, listed⟩ := finds.listed
  have noFile : .ok file ∉ items := by
    rcases ended with rfl | ⟨path, cause, rfl⟩ <;> simp
  rw [listed, List.mem_append, or_iff_left noFile, List.mem_map]
  simp

theorem gives_of_listed {file : ScriptFile} (member : .ok file ∈ start.rest plan disk false) :
    ∃ names routed, plan.Gives names routed ∧ file = plan.fileOf (names, routed) := by
  obtain ⟨found, finds⟩ := finds_exists plan disk start start_ordered
  obtain ⟨⟨names, routed⟩, inside, same⟩ := List.mem_map.mp (finds.listed_iff.mp member)
  exact ⟨names, routed, finds.given names routed inside, same.symm⟩

end Scan

end RouteManifest
