import RouteManifest.Disk.Access
import RouteManifest.Failure
import RouteManifest.Naming
import RouteManifest.Settings.Basic

/-!
The single steps of a scan for script files below the folder of route folders. A
visit to a folder reads its entries and asks for a visit to each of them, files
before subfolders and both by name. Folders whose path is no legal route are left out
with everything below them, files directly in the topmost folder are no endpoints,
and links are not followed, apart from the topmost folder itself.
-/

namespace RouteManifest

structure ScriptFile where
  path : String
  route : String
  verb : Verb
deriving DecidableEq, Repr

/-- What a scan looks for and where. -/
structure ScanPlan where
  root : String
  base : String
  extension : String
  legal : String → Bool := isLegalRoute

/-- A step of a scan that is still to be made. Files and folders are given by the names
that lead to them from the topmost folder, and have the kind that their folder listed. -/
inductive Visit
  | base
  | entry (names : List FileName) (kind : EntryKind)
deriving DecidableEq, Repr

/-- What a visit leads to: visits to be made next, a file, or a failure. -/
inductive Sighting
  | more (visits : List Visit)
  | found (file : ScriptFile)
  | failed (failure : Failure)
deriving DecidableEq, Repr

namespace Visit

/-- Files before folders, then by name. -/
def listedBefore (left right : FileName × EntryKind) : Bool :=
  match left.2, right.2 with
  | .folder, .folder => left.1.text ≤ right.1.text
  | .folder, _ => false
  | _, .folder => true
  | _, _ => left.1.text ≤ right.1.text

def ofListing (names : List FileName) (listing : List (FileName × EntryKind)) : List Visit :=
  (listing.mergeSort listedBefore).map fun item => .entry (names ++ [item.1]) item.2

end Visit

namespace ScanPlan

def ofSettings (root : String) (settings : Settings) : ScanPlan where
  root := root
  base := Path.join root settings.modulesFolder
  extension := settings.extension

def pathOf (plan : ScanPlan) (names : List FileName) : String :=
  Path.joinNames plan.base (names.map FileName.text)

/-- A path relative to the root, with forward slashes; a path outside it as it is. -/
def relative (plan : ScanPlan) (path : String) : String :=
  normalizePath ((Path.stripBase? plan.root path).getD path)

def failedAt (path : String) (fault : DiskFault) : Sighting :=
  .failed (.access path (.enumerating path fault))

/-- Walks from the topmost folder along names, with all links followed. -/
def walkTo (plan : ScanPlan) (disk : Disk) (names : List FileName) : Except DiskFault Walker := do
  let pieces ← Disk.piecesOf plan.base
  disk.walk (disk.startOf plan.base) Disk.linkLimit (pieces ++ names.map FileName.text)

def listBelow (plan : ScanPlan) (disk : Disk) (names : List FileName) :
    Except DiskFault (List (FileName × EntryKind)) :=
  if Disk.pathLimit < (plan.pathOf names).utf8ByteSize then .error .nameTooLong
  else
    match plan.walkTo disk names with
    | .error fault => .error fault
    | .ok walker => disk.listAt walker.location

def enter (plan : ScanPlan) (disk : Disk) (names : List FileName) : Sighting :=
  match plan.listBelow disk names with
  | .ok listing => .more (Visit.ofListing names listing)
  | .error fault => failedAt (plan.pathOf names) fault

/-- The topmost folder may be reached through a link; anything else there has no files. -/
def visitBase (plan : ScanPlan) (disk : Disk) : Sighting :=
  match disk.findLink plan.base with
  | .error fault => failedAt plan.base fault
  | .ok (.folder _) => plan.enter disk []
  | .ok (.file _) => .more []
  | .ok (.link _) =>
      match disk.find plan.base with
      | .error fault => failedAt plan.base fault
      | .ok (.folder _) => plan.enter disk []
      | .ok _ => .more []

def visitFile (plan : ScanPlan) (names : List FileName) : Sighting :=
  let path := plan.pathOf names
  if names.length < 2 then .more []
  else
    match RoutedName.ofPath? (plan.relative path) plan.extension with
    | some name => .found ⟨path, name.route, name.verb⟩
    | none => .more []

def visit (plan : ScanPlan) (disk : Disk) : Visit → Sighting
  | .base => plan.visitBase disk
  | .entry names .file => plan.visitFile names
  | .entry _ .link => .more []
  | .entry names .folder =>
      if plan.legal (plan.relative (plan.pathOf names)) then plan.enter disk names else .more []

end ScanPlan

end RouteManifest
