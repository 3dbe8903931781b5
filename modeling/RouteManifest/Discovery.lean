import RouteManifest.Endpoint.Describe
import RouteManifest.Scan.Basic
import RouteManifest.Script.Text

/-!
Discovery: every script file that a scan finds is loaded and described as an endpoint.
It gives all endpoints in the order of the scan, or the first failure and no endpoint.
A loader may keep a state, and a request to stop can be part of it.
-/

namespace RouteManifest

open RouteManifest.Script (Node)

/-- How scripts are loaded, and whether a state of the loader asks to stop. -/
structure Loader (State : Type) where
  load : String → State → Except Failure (Node × State)
  /-- The state after a load that failed. -/
  afterFailure : String → State → State := fun _ state => state
  cancelled : State → Bool

namespace Loader

def call {State : Type} (loader : Loader State) (path : String) (state : State) :
    Except Failure Node × State :=
  match loader.load path state with
  | .error failure => (.error failure, loader.afterFailure path state)
  | .ok (script, after) => (.ok script, after)

end Loader

namespace Disk

def loadScript (disk : Disk) (path : String) : Except Failure Node :=
  match disk.readText path with
  | .error fault => .error (.access path (.reading fault))
  | .ok source =>
      match Script.parse source with
      | .error fault => .error (.script path fault.line fault.message)
      | .ok root => .ok root

/-- Reads the scripts of a file system; the state is the request to stop. -/
def loader (disk : Disk) : Loader Bool where
  load path cancelled := (disk.loadScript path).map fun script => (script, cancelled)
  cancelled := id

end Disk

namespace Endpoint

def key (endpoint : Endpoint) : String × Verb := (endpoint.path, endpoint.verb)

end Endpoint

namespace Discovery

def describeFile (settings : Settings) (file : ScriptFile) (script : Node) : Endpoint :=
  describe script (endpointPath settings.routeSpace file.route) file.verb settings.vocabulary

def withEndpoint {State : Type} (endpoint : Endpoint)
    (run : Except Failure (List Endpoint) × State) : Except Failure (List Endpoint) × State :=
  (run.1.map (endpoint :: ·), run.2)

/-- Describes what is left of a scan; the keys of earlier endpoints are taken. -/
def gather {State : Type} (settings : Settings) (loader : Loader State) (plan : ScanPlan)
    (disk : Disk) (taken : List (String × Verb)) (scan : Scan) (state : State) :
    Except Failure (List Endpoint) × State :=
  match _ : scan.next plan disk (loader.cancelled state) with
  | (none, _) => (.ok [], state)
  | (some (.error failure), _) => (.error failure, state)
  | (some (.ok file), later) =>
      match loader.call file.path state with
      | (.error failure, after) => (.error failure, after)
      | (.ok script, after) =>
          let endpoint := describeFile settings file script
          if taken.contains endpoint.key then
            (.error (.duplicate endpoint.path endpoint.verb.toText), after)
          else
            withEndpoint endpoint
              (gather settings loader plan disk (endpoint.key :: taken) later after)
termination_by scan.weight plan disk
decreasing_by
  exact Scan.weight_next_lt
    ‹scan.next plan disk (loader.cancelled state) = (some (.ok file), later)›

def run {State : Type} (loader : Loader State) (state : State) (disk : Disk)
    (settings : Settings) (root : String) : Except Failure (List Endpoint) × State :=
  gather settings loader (ScanPlan.ofSettings root settings) disk [] Scan.start state

end Discovery

/-- All endpoints below a root, with scripts from a loader that starts in a given state. -/
def discoverWith {State : Type} (loader : Loader State) (state : State) (disk : Disk)
    (settings : Settings) (root : String) : Except Failure (List Endpoint) :=
  (Discovery.run loader state disk settings root).1

def discover (disk : Disk) (settings : Settings) (root : String) :
    Except Failure (List Endpoint) :=
  discoverWith disk.loader false disk settings root

end RouteManifest
