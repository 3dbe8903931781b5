import RouteManifest.Scan.Weight

/-!
A scan as a value. It goes on demand, one file at a time, and looks at each folder
once, when it comes to it, so the file system may change between two steps. The first
failure, a request to stop and the end of the agenda finish it for good.
-/

namespace RouteManifest

/-- A scan: the visits still to be made, or the end. -/
inductive Scan
  | underway (agenda : List Visit)
  | finished
deriving DecidableEq, Repr

abbrev Scan.Item := Option (Except Failure ScriptFile)

namespace Scan

def start : Scan := underway [.base]

/-- Makes visits until one of them shows a file or fails. -/
def advance (plan : ScanPlan) (disk : Disk) : List Visit → Item × Scan
  | [] => (none, finished)
  | visit :: rest =>
      match _ : plan.visit disk visit with
      | .failed failure => (some (.error failure), finished)
      | .found file => (some (.ok file), underway rest)
      | .more visits => advance plan disk (visits ++ rest)
termination_by agenda => plan.agendaWeight disk agenda
decreasing_by
  have lighter := ScanPlan.agenda_weight_visit_lt ‹plan.visit disk visit = .more visits›
  rw [ScanPlan.agenda_weight_append]
  simp only [ScanPlan.agendaWeight]
  omega

/-- One step; a request to stop is noticed before anything is looked at. -/
def next (plan : ScanPlan) (disk : Disk) (cancelled : Bool) : Scan → Item × Scan
  | finished => (none, finished)
  | underway agenda =>
      if cancelled then (some (.error .cancelled), finished) else advance plan disk agenda

def weight (plan : ScanPlan) (disk : Disk) : Scan → Nat
  | underway agenda => plan.agendaWeight disk agenda
  | finished => 0

theorem weight_advance_lt {plan : ScanPlan} {disk : Disk} {agenda : List Visit}
    {file : ScriptFile} {later : Scan}
    (stepped : advance plan disk agenda = (some (.ok file), later)) :
    later.weight plan disk < plan.agendaWeight disk agenda := by
  fun_induction advance plan disk agenda with
  | case1 => simp at stepped
  | case2 => simp at stepped
  | case3 visit rest found =>
      obtain ⟨_, rfl⟩ := Prod.mk.inj stepped
      have positive := plan.weight_pos disk visit
      simp only [weight, ScanPlan.agendaWeight]
      omega
  | case4 visit rest visits visited ih =>
      have lighter := ScanPlan.agenda_weight_visit_lt visited
      have step := ih stepped
      rw [ScanPlan.agenda_weight_append] at step
      simp only [ScanPlan.agendaWeight]
      omega

/-- A scan of a file system that stands still has less to do after every file. -/
theorem weight_next_lt {plan : ScanPlan} {disk : Disk} {cancelled : Bool} {scan later : Scan}
    {file : ScriptFile} (stepped : scan.next plan disk cancelled = (some (.ok file), later)) :
    later.weight plan disk < scan.weight plan disk := by
  unfold next at stepped
  split at stepped
  · simp at stepped
  · split at stepped
    · simp at stepped
    · exact weight_advance_lt stepped

def rest (plan : ScanPlan) (disk : Disk) (cancelled : Bool) (scan : Scan) :
    List (Except Failure ScriptFile) :=
  match _ : scan.next plan disk cancelled with
  | (none, _) => []
  | (some (.error failure), _) => [.error failure]
  | (some (.ok file), later) => .ok file :: later.rest plan disk cancelled
termination_by scan.weight plan disk
decreasing_by exact weight_next_lt ‹scan.next plan disk cancelled = (some (.ok file), later)›

end Scan

end RouteManifest
