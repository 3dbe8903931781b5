import RouteManifest.Proofs.Discovery.Ending
import RouteManifest.Proofs.Scan.Found
import RouteManifest.Proofs.Scan.Relative
import RouteManifest.Proofs.Scan.Steps

/-!
A scan among other events. It is asked for one item at a time, and in between it can be asked
to stop and the file system can become any other. The answers are files, then perhaps one
failure, then nothing, and a request to stop is noticed by the next answer. The files stand in
the order of the walk, although no single file system needs to hold them all.
-/

namespace RouteManifest.Scan

/-- What happens around a scan: it is asked for its next item, it is asked to stop, or the file
system changes. -/
inductive Event
  | next
  | cancel
  | change (disk : Disk)

def Event.isNext : Event → Bool
  | next => true
  | _ => false

/-- A scan with the file system that it finds and the request to stop that it sees. -/
structure Session where
  disk : Disk
  scan : Scan := start
  cancelled : Bool := false

namespace Session

variable (plan : ScanPlan)

def item (session : Session) : Item :=
  (session.scan.next plan session.disk session.cancelled).1

def pass (session : Session) : Event → Session
  | .next => { session with scan := (session.scan.next plan session.disk session.cancelled).2 }
  | .cancel => { session with cancelled := true }
  | .change disk => { session with disk }

def passAll (session : Session) (events : List Event) : Session := events.foldl (pass plan) session

def answers (session : Session) : List Event → List Item
  | [] => []
  | .next :: events => session.item plan :: (session.pass plan .next).answers events
  | .cancel :: events => (session.pass plan .cancel).answers events
  | .change disk :: events => (session.pass plan (.change disk)).answers events

end Session

def asked (events : List Event) : Nat := events.countP Event.isNext

theorem asked_next (events : List Event) : asked (.next :: events) = asked events + 1 :=
  List.countP_cons_of_pos rfl

def IsFile (item : Item) : Prop := ∃ file, item = some (.ok file)

@[simp]
theorem not_is_file_end : ¬ IsFile none := by simp [IsFile]

@[simp]
theorem not_is_file_failure (failure : Failure) : ¬ IsFile (some (.error failure)) := by
  simp [IsFile]

def filesOf (items : List Item) : List ScriptFile :=
  items.filterMap fun item => item.bind Except.toOption

theorem files_of_file (file : ScriptFile) (items : List Item) :
    filesOf (some (.ok file) :: items) = file :: filesOf items := rfl

theorem files_of_last {item : Item} (last : ¬ IsFile item) (ends : Nat) :
    filesOf (item :: List.replicate ends none) = [] := by
  rcases item with _ | failure | file
  · simp [filesOf]
  · simp [filesOf, Except.toOption]
  · exact absurd ⟨file, rfl⟩ last

section Item

variable {plan : ScanPlan} {disk : Disk}

theorem advance_error_finished {agenda : List Visit} {failure : Failure} {later : Scan}
    (stepped : advance plan disk agenda = (some (.error failure), later)) : later = finished := by
  fun_induction advance plan disk agenda with
  | case1 => simp at stepped
  | case2 visit rest fault visited => exact (Prod.mk.inj stepped).2.symm
  | case3 => simp at stepped
  | case4 visit rest visits visited induction => exact induction stepped

theorem next_cases (plan : ScanPlan) (disk : Disk) (cancelled : Bool) (scan : Scan) :
    (∃ file remaining, scan.next plan disk cancelled = (some (.ok file), underway remaining)) ∨
    ∃ item, ¬ IsFile item ∧ scan.next plan disk cancelled = (item, finished) := by
  cases scan with
  | finished => exact .inr ⟨none, not_is_file_end, rfl⟩
  | underway agenda =>
      cases cancelled with
      | true => exact .inr ⟨_, not_is_file_failure _, next_cancelled agenda⟩
      | false =>
          rw [next_going]
          rcases stepped : advance plan disk agenda with ⟨_ | failure | file, later⟩
          · obtain rfl := advance_none_finished stepped
            exact .inr ⟨none, not_is_file_end, rfl⟩
          · obtain rfl := advance_error_finished stepped
            exact .inr ⟨_, not_is_file_failure failure, rfl⟩
          · obtain ⟨remaining, rfl⟩ := advance_ok_underway stepped
            exact .inl ⟨file, remaining, rfl⟩

end Item

/-- Some files, then at most one failure, then only ends. -/
def IsLifeCycle (items : List Item) : Prop :=
  ∃ (files : List ScriptFile) (failure : Option Failure) (ends : Nat),
    items = files.map (fun file => some (.ok file)) ++
      failure.toList.map (fun failure => some (.error failure)) ++ List.replicate ends none

theorem is_life_cycle_ends (ends : Nat) : IsLifeCycle (List.replicate ends none) :=
  ⟨[], none, ends, rfl⟩

theorem is_life_cycle_last {item : Item} (last : ¬ IsFile item) (ends : Nat) :
    IsLifeCycle (item :: List.replicate ends none) := by
  rcases item with _ | failure | file
  · exact is_life_cycle_ends (ends + 1)
  · exact ⟨[], some failure, ends, rfl⟩
  · exact absurd ⟨file, rfl⟩ last

theorem IsLifeCycle.cons {items : List Item} (cycle : IsLifeCycle items) (file : ScriptFile) :
    IsLifeCycle (some (.ok file) :: items) := by
  obtain ⟨files, failure, ends, rfl⟩ := cycle
  exact ⟨file :: files, failure, ends, rfl⟩

def stopItems : Nat → List Item
  | 0 => []
  | later + 1 => some (.error .cancelled) :: List.replicate later none

theorem not_file_of_mem_stop_items {times : Nat} {item : Item} (member : item ∈ stopItems times) :
    ¬ IsFile item := by
  cases times with
  | zero => cases member
  | succ later =>
      rintro ⟨file, rfl⟩
      simp [stopItems] at member

namespace Session

variable {plan : ScanPlan} {session : Session} {agenda : List Visit}

theorem answers_append (session : Session) (before after : List Event) :
    session.answers plan (before ++ after) =
      session.answers plan before ++ (session.passAll plan before).answers plan after := by
  induction before generalizing session with
  | nil => rfl
  | cons event before induction =>
      cases event <;>
        simp only [List.cons_append, answers, induction, passAll, List.foldl_cons]

theorem item_cases (plan : ScanPlan) (session : Session) :
    (∃ file remaining, session.item plan = some (.ok file) ∧
      (session.pass plan .next).scan = underway remaining) ∨
    ¬ IsFile (session.item plan) ∧ (session.pass plan .next).scan = finished := by
  simp only [item, pass]
  rcases next_cases plan session.disk session.cancelled session.scan with
    ⟨file, remaining, stepped⟩ | ⟨item, last, stepped⟩
  · rw [stepped]
    exact .inl ⟨file, remaining, rfl, rfl⟩
  · rw [stepped]
    exact .inr ⟨last, rfl⟩

theorem pass_finished (plan : ScanPlan) (ended : session.scan = finished) (event : Event) :
    (session.pass plan event).scan = finished := by
  cases event with
  | next =>
      simp only [pass, ended]
      rfl
  | cancel => exact ended
  | change disk => exact ended

theorem item_finished (ended : session.scan = finished) : session.item plan = none := by
  simp only [item, ended]
  rfl

theorem pass_all_finished (ended : session.scan = finished) (events : List Event) :
    (session.passAll plan events).scan = finished := by
  induction events generalizing session with
  | nil => exact ended
  | cons event events induction => exact induction (pass_finished plan ended event)

theorem answers_finished (ended : session.scan = finished) (events : List Event) :
    session.answers plan events = List.replicate (asked events) none := by
  induction events generalizing session with
  | nil => rfl
  | cons event events induction =>
      have later := induction (pass_finished plan ended event)
      cases event with
      | next => rw [answers, item_finished ended, later, asked_next, List.replicate_succ]
      | cancel => exact later
      | change disk => exact later

theorem answers_stopped (going : session.scan = underway agenda)
    (stopped : session.cancelled = true) (events : List Event) :
    session.answers plan events = stopItems (asked events) := by
  induction events generalizing session with
  | nil => rfl
  | cons event events induction =>
      cases event with
      | next =>
          have stop : (underway agenda).next plan session.disk true =
              (some (.error .cancelled), finished) := next_cancelled agenda
          have item : session.item plan = some (.error .cancelled) := by
            rw [Session.item, going, stopped, stop]
          have ended : (session.pass plan .next).scan = finished := by
            rw [pass, going, stopped, stop]
          rw [answers, item, answers_finished ended, asked_next, stopItems]
      | cancel => exact induction going rfl
      | change disk => exact induction going stopped

theorem is_life_cycle_answers (session : Session) (events : List Event) :
    IsLifeCycle (session.answers plan events) := by
  induction events generalizing session with
  | nil => exact is_life_cycle_ends 0
  | cons event events induction =>
      cases event with
      | next =>
          rw [answers]
          rcases item_cases plan session with ⟨file, remaining, item, -⟩ | ⟨last, ended⟩
          · rw [item]
            exact (induction _).cons file
          · rw [answers_finished ended]
            exact is_life_cycle_last last _
      | cancel => exact induction _
      | change disk => exact induction _

theorem finished_iff (plan : ScanPlan) (going : session.scan = underway agenda) (events : List Event) :
    (session.passAll plan events).scan = finished ↔
      ∃ item ∈ session.answers plan events, ¬ IsFile item := by
  induction events generalizing session agenda with
  | nil => simp [passAll, answers, going]
  | cons event events induction =>
      cases event with
      | next =>
          rw [answers, passAll, List.foldl_cons, ← passAll]
          simp only [List.mem_cons, exists_eq_or_imp]
          rcases item_cases plan session with ⟨file, remaining, item, later⟩ | ⟨last, ended⟩
          · rw [induction later, item]
            exact (or_iff_right (not_not_intro ⟨file, rfl⟩)).symm
          · exact iff_of_true (pass_all_finished ended events) (.inl last)
      | cancel => exact induction going
      | change disk => exact induction going

/-- After a request to stop, a scan that went on tells of it, and a finished one of nothing. -/
theorem answers_cancel (going : session.scan = underway agenda) (before after : List Event) :
    ∃ later, session.answers plan (before ++ .cancel :: after) =
        session.answers plan before ++ later ∧
      (∀ item ∈ later, ¬ IsFile item) ∧
      ((∀ item ∈ session.answers plan before, IsFile item) → later = stopItems (asked after)) ∧
      ((∃ item ∈ session.answers plan before, ¬ IsFile item) →
        later = List.replicate (asked after) none) := by
  -- The answers so far tell whether there is still anything that could be stopped.
  have ended := finished_iff plan going before
  let reached := (session.passAll plan before).pass plan .cancel
  refine ⟨reached.answers plan after, answers_append session before _, ?_⟩
  cases scan : (session.passAll plan before).scan with
  | finished =>
      obtain ⟨item, member, last⟩ := ended.mp scan
      rw [answers_finished (pass_finished plan scan .cancel)]
      refine ⟨?_, fun files => absurd (files item member) last, fun _ => rfl⟩
      intro item member
      rw [List.eq_of_mem_replicate member]
      exact not_is_file_end
  | underway remaining =>
      have lasting : reached.scan = underway remaining := scan
      rw [answers_stopped lasting rfl]
      refine ⟨fun item member => not_file_of_mem_stop_items member, fun _ => rfl, ?_⟩
      intro last
      rw [ended.mpr last] at scan
      cases scan

theorem cancel_mem_of_told (free : session.cancelled = false) {events : List Event}
    (told : some (.error .cancelled) ∈ session.answers plan events) : .cancel ∈ events := by
  induction events generalizing session with
  | nil => cases told
  | cons event events induction =>
      cases event with
      | next =>
          rcases List.mem_cons.mp told with now | later
          · have stepped : session.scan.next plan session.disk false =
                (some (.error .cancelled), (session.pass plan .next).scan) := by
              rw [now, item, pass, free]
            obtain ⟨path, cause, same⟩ := next_failed stepped
            cases same
          · have freeNext : (session.pass plan .next).cancelled = false := free
            exact List.mem_cons_of_mem _ (induction freeNext later)
      | cancel => exact List.mem_cons_self
      | change disk =>
          have freeThere : (session.pass plan (.change disk)).cancelled = false := free
          exact List.mem_cons_of_mem _ (induction freeThere told)

/-- The files of a scan in order stand in order and follow the convention, whatever happens
between them. -/
theorem answers_ordered (ordered : session.scan.Ordered) (events : List Event) :
    ∃ found : List (List FileName × RoutedName),
      filesOf (session.answers plan events) = found.map plan.fileOf ∧
      (found.map Prod.fst).Pairwise WalksBefore ∧
      (∀ names ∈ found.map Prod.fst, session.scan.LeadsTo names) ∧
      ∀ names routed, (names, routed) ∈ found → plan.Gives names routed := by
  -- What is found later is led to by the scan behind the item, and that makes it come behind it.
  -- A changed file system touches no scan, so the invariant needs no disk.
  induction events generalizing session with
  | nil => exact ⟨[], rfl, .nil, by simp, by simp⟩
  | cons event events induction =>
      cases event with
      | next =>
          rw [answers]
          rcases item_cases plan session with ⟨file, remaining, item, later⟩ | ⟨last, ended⟩
          · have stepped : session.scan.next plan session.disk session.cancelled =
                (some (.ok file), underway remaining) := Prod.ext item later
            obtain ⟨names, routed, rfl, step⟩ := next_gives ordered stepped
            rw [← later] at step
            obtain ⟨found, files, inOrder, reached, given⟩ := induction step.ordered
            refine ⟨(names, routed) :: found, ?_, ?_, ?_, ?_⟩
            · rw [item, files_of_file, files, List.map_cons]
            · exact List.pairwise_cons.mpr
                ⟨fun path member => step.behind path (reached path member), inOrder⟩
            · exact List.forall_mem_cons.mpr
                ⟨step.reached, fun path member => step.kept path (reached path member)⟩
            · intro path name member
              rcases List.mem_cons.mp member with same | inside
              · obtain ⟨rfl, rfl⟩ := Prod.mk.inj same
                exact step.gives
              · exact given path name inside
          · rw [answers_finished ended, files_of_last last]
            exact ⟨[], rfl, .nil, by simp, by simp⟩
      | cancel => exact induction ordered
      | change disk => exact induction ordered

end Session

/-- Whatever happens around a scan, it gives files, then at most one failure, and then nothing.
After a request to stop it gives no more files. If it has given files only, the next answer tells
of the request, and of that alone; if it has given something else, nothing is told any more. And
no answer tells of a request that was not made. -/
theorem scan_life_cycle (plan : ScanPlan) (disk : Disk) :
    let session : Session := { disk }
    (∀ events, IsLifeCycle (session.answers plan events)) ∧
    (∀ before after, ∃ later,
      session.answers plan (before ++ .cancel :: after) = session.answers plan before ++ later ∧
      (∀ item ∈ later, ¬ IsFile item) ∧
      ((∀ item ∈ session.answers plan before, IsFile item) → later = stopItems (asked after)) ∧
      ((∃ item ∈ session.answers plan before, ¬ IsFile item) →
        later = List.replicate (asked after) none)) ∧
    ∀ events, some (.error .cancelled) ∈ session.answers plan events → .cancel ∈ events := by
  intro session
  have going : session.scan = underway [.base] := rfl
  exact ⟨session.is_life_cycle_answers, Session.answers_cancel going,
    fun events told => Session.cancel_mem_of_told rfl told⟩

theorem answers_first {plan : ScanPlan} {disk : Disk} {file : ScriptFile}
    {items : List (Except Failure ScriptFile)}
    (listed : start.rest plan disk false = .ok file :: items) :
    Session.answers plan { disk } [.next] = [some (.ok file)] := by
  obtain ⟨remaining, stepped, -⟩ := next_of_listed_cons listed
  rw [Session.answers, Session.item, Session.answers, start, stepped]

open Discovery in
theorem shop_session_cart :
    Session.answers (ScanPlan.ofSettings "top" {}) { disk := shopDisk } [.next] =
      [some (.ok cartFile)] :=
  answers_first shop_files_listed

open Discovery in
/-- A scan of the shop is stopped after its first file, and once more after it has told so. -/
theorem scan_life_cycle_of_shop :
    let session : Session := { disk := shopDisk }
    let plan := ScanPlan.ofSettings "top" {}
    session.answers plan [.next, .cancel, .change {}, .next] =
        [some (.ok cartFile), some (.error .cancelled)] ∧
      session.answers plan [.next, .cancel, .change {}, .next, .cancel, .next] =
        [some (.ok cartFile), some (.error .cancelled), none] ∧
      (.cancel ∈ ([.next, .cancel, .change {}, .next] : List Event)) := by
  intro session plan
  obtain ⟨-, stops, tells⟩ := scan_life_cycle plan shopDisk
  have cart : session.answers plan [.next] = [some (.ok cartFile)] := shop_session_cart
  have once : session.answers plan [.next, .cancel, .change {}, .next] =
      [some (.ok cartFile), some (.error .cancelled)] := by
    obtain ⟨later, split, -, stopped, -⟩ := stops [.next] [.change {}, .next]
    have files : ∀ item ∈ session.answers plan [.next], IsFile item := by
      rw [cart]
      simp [IsFile]
    rw [stopped files, cart] at split
    exact split
  refine ⟨once, ?_, tells _ (by rw [once]; simp)⟩
  obtain ⟨later, split, -, -, ended⟩ := stops [.next, .cancel, .change {}, .next] [.next]
  have last : ∃ item ∈ session.answers plan [.next, .cancel, .change {}, .next],
      ¬ IsFile item := by
    rw [once]
    exact ⟨some (.error .cancelled), by simp, not_is_file_failure _⟩
  rw [ended last, once] at split
  exact split

/-- The files that a scan gives while the file system changes have different paths, and every
one comes behind those before it in the order of the walk. -/
theorem changing_scan_in_walk_order (plan : ScanPlan) (disk : Disk) (events : List Event) :
    ∃ found : List (List FileName × RoutedName),
      filesOf (Session.answers plan { disk } events) = found.map plan.fileOf ∧
      (found.map Prod.fst).Pairwise WalksBefore ∧
      ((filesOf (Session.answers plan { disk } events)).map ScriptFile.path).Nodup := by
  have started : Session.scan { disk } = start := rfl
  obtain ⟨found, files, ordered, -⟩ := Session.answers_ordered (started ▸ start_ordered) events
  refine ⟨found, files, ordered, ?_⟩
  rw [files, List.map_map, List.Nodup, List.pairwise_map]
  apply (List.pairwise_map.mp ordered).imp
  intro first second before same
  exact before.ne (ScanPlan.path_of_inj same)

end RouteManifest.Scan
