import RouteManifest.Scan.Basic

/-!
A whole scan and its single steps. Where a scan that nobody stops gives only files, its
steps give these files one by one, and then the end.
-/

namespace RouteManifest.Scan

variable {plan : ScanPlan} {disk : Disk}

theorem rest_of_next_none {cancelled : Bool} {scan later : Scan}
    (stepped : scan.next plan disk cancelled = (none, later)) :
    scan.rest plan disk cancelled = [] := by
  rw [rest]
  split <;> simp_all

theorem rest_of_next_error {cancelled : Bool} {scan later : Scan} {failure : Failure}
    (stepped : scan.next plan disk cancelled = (some (.error failure), later)) :
    scan.rest plan disk cancelled = [.error failure] := by
  rw [rest]
  split <;> simp_all

theorem rest_of_next_ok {cancelled : Bool} {scan later : Scan} {file : ScriptFile}
    (stepped : scan.next plan disk cancelled = (some (.ok file), later)) :
    scan.rest plan disk cancelled = .ok file :: later.rest plan disk cancelled := by
  rw [rest]
  split <;> simp_all

theorem next_cancelled (agenda : List Visit) :
    (underway agenda).next plan disk true = (some (.error .cancelled), finished) := rfl

theorem next_going (agenda : List Visit) :
    (underway agenda).next plan disk false = advance plan disk agenda := rfl

theorem advance_nil : advance plan disk [] = (none, finished) := by
  rw [advance]

theorem advance_found {visit : Visit} {agenda : List Visit} {file : ScriptFile}
    (visited : plan.visit disk visit = .found file) :
    advance plan disk (visit :: agenda) = (some (.ok file), underway agenda) := by
  rw [advance]
  split <;> simp_all

theorem advance_more {visit : Visit} {agenda visits : List Visit}
    (visited : plan.visit disk visit = .more visits) :
    advance plan disk (visit :: agenda) = advance plan disk (visits ++ agenda) := by
  rw [advance]
  split <;> simp_all

theorem rest_nil : (underway []).rest plan disk false = [] :=
  rest_of_next_none advance_nil

theorem rest_of_visit_found {visit : Visit} {agenda : List Visit} {file : ScriptFile}
    (visited : plan.visit disk visit = .found file) :
    (underway (visit :: agenda)).rest plan disk false =
      .ok file :: (underway agenda).rest plan disk false := by
  apply rest_of_next_ok
  rw [next_going, advance_found visited]

theorem rest_of_visit_more {visit : Visit} {agenda visits : List Visit}
    (visited : plan.visit disk visit = .more visits) :
    (underway (visit :: agenda)).rest plan disk false =
      (underway (visits ++ agenda)).rest plan disk false := by
  rw [rest.eq_def, rest.eq_def]
  simp only [next_going]
  rw [advance_more visited]

theorem advance_ok_underway {agenda : List Visit} {file : ScriptFile} {later : Scan}
    (stepped : advance plan disk agenda = (some (.ok file), later)) :
    ∃ remaining, later = underway remaining := by
  fun_induction advance plan disk agenda with
  | case1 => simp at stepped
  | case2 => simp at stepped
  | case3 visit remaining found =>
      obtain ⟨-, rfl⟩ := Prod.mk.inj stepped
      exact ⟨remaining, rfl⟩
  | case4 visit remaining visits visited induction => exact induction stepped

theorem next_of_listed_nil {agenda : List Visit}
    (listed : (underway agenda).rest plan disk false = []) :
    ∃ later, (underway agenda).next plan disk false = (none, later) := by
  rcases stepped : (underway agenda).next plan disk false with ⟨_ | failure | file, later⟩
  · exact ⟨later, rfl⟩
  · rw [rest_of_next_error stepped] at listed
    simp at listed
  · rw [rest_of_next_ok stepped] at listed
    simp at listed

theorem next_of_listed_error {agenda : List Visit} {failure : Failure}
    (listed : (underway agenda).rest plan disk false = [.error failure]) :
    ∃ later, (underway agenda).next plan disk false = (some (.error failure), later) := by
  rcases stepped : (underway agenda).next plan disk false with ⟨_ | other | file, later⟩
  · rw [rest_of_next_none stepped] at listed
    simp at listed
  · rw [rest_of_next_error stepped] at listed
    cases listed
    exact ⟨later, rfl⟩
  · rw [rest_of_next_ok stepped] at listed
    simp at listed

theorem next_of_listed_cons {agenda : List Visit} {file : ScriptFile}
    {others : List (Except Failure ScriptFile)}
    (listed : (underway agenda).rest plan disk false = .ok file :: others) :
    ∃ remaining, (underway agenda).next plan disk false = (some (.ok file), underway remaining) ∧
      (underway remaining).rest plan disk false = others := by
  rcases stepped : (underway agenda).next plan disk false with ⟨_ | failure | first, later⟩
  · rw [rest_of_next_none stepped] at listed
    simp at listed
  · rw [rest_of_next_error stepped] at listed
    simp at listed
  · obtain ⟨remaining, rfl⟩ := advance_ok_underway stepped
    rw [rest_of_next_ok stepped] at listed
    obtain ⟨first_eq, rest_eq⟩ := List.cons.inj listed
    cases first_eq
    exact ⟨remaining, rfl, rest_eq⟩

def after (plan : ScanPlan) (disk : Disk) : Nat → Scan → Scan
  | 0, scan => scan
  | steps + 1, scan => after plan disk steps (scan.next plan disk false).2

theorem after_finished (steps : Nat) : after plan disk steps finished = finished := by
  induction steps with
  | zero => rfl
  | succ steps induction => rw [after, next, induction]

theorem advance_none_finished {agenda : List Visit} {later : Scan}
    (stepped : advance plan disk agenda = (none, later)) : later = finished := by
  fun_induction advance plan disk agenda with
  | case1 => exact (Prod.mk.inj stepped).2.symm
  | case2 => simp at stepped
  | case3 => simp at stepped
  | case4 visit remaining visits visited induction => exact induction stepped

/-- The steps of a scan give the files one by one and nothing afterwards. -/
theorem next_after_of_listed {agenda : List Visit} {files : List ScriptFile}
    (listed : (underway agenda).rest plan disk false = files.map .ok) (steps : Nat) :
    ((after plan disk steps (underway agenda)).next plan disk false).1 =
      files[steps]?.map .ok := by
  induction steps generalizing agenda files with
  | zero =>
      cases files with
      | nil =>
          obtain ⟨later, stepped⟩ := next_of_listed_nil listed
          rw [after, stepped]
          rfl
      | cons file files =>
          obtain ⟨remaining, stepped, -⟩ := next_of_listed_cons listed
          rw [after, stepped]
          rfl
  | succ steps induction =>
      cases files with
      | nil =>
          obtain ⟨later, stepped⟩ := next_of_listed_nil listed
          obtain rfl := advance_none_finished stepped
          rw [after, stepped, after_finished]
          rfl
      | cons file files =>
          obtain ⟨remaining, stepped, others⟩ := next_of_listed_cons listed
          rw [after, stepped, induction others, List.getElem?_cons_succ]

end RouteManifest.Scan
