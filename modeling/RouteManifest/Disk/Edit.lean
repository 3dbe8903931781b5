import RouteManifest.Disk.Access

/-!
Changing a file system: putting files, folders and links at paths, and removing
what is at a path with everything below it. Missing parent folders are made. Links
on the way are followed, a link at the end only when a file is written through it.
-/

namespace RouteManifest.Disk

/-- Where a path leads, also through folders that do not exist yet. -/
def landing (disk : Disk) (location : Location) : List String → Location
  | [] => location
  | piece :: rest =>
      match disk.walk location linkLimit [piece] with
      | .ok walker => disk.landing walker.location rest
      | .error _ =>
          match FileName.ofText? piece with
          | some name => disk.landing (location ++ [name]) rest
          | none => disk.landing location rest

/-- The location for a new entry at a path whose own last piece is not followed. -/
def target (disk : Disk) (path : String) : Location :=
  let pieces := (Path.pieces path).filter (!Path.isIdle ·)
  let parent := disk.landing (disk.startOf path) pieces.dropLast
  match FileName.ofText? (pieces.getLast?.getD "") with
  | some name => parent ++ [name]
  | none => parent

/-- Where a file written at a location goes, when links there are followed. -/
def settle (disk : Disk) (location : Location) : Nat → Location
  | 0 => location
  | links + 1 =>
      match disk.at? location with
      | some (.link goal) =>
          let start := if Path.isAbsolute goal then [] else location.dropLast
          disk.settle (disk.landing start (Path.pieces goal)) links
      | _ => location

def put (disk : Disk) (location : Location) (entry : Entry) : Disk :=
  { disk with top := Entry.insert entry location disk.top }

def writeFile (disk : Disk) (path : String) (content : ByteArray) : Disk :=
  let location :=
    match disk.locate path with
    | .ok location => location
    | .error _ => disk.settle (disk.target path) linkLimit
  disk.put location (.file content)

def makeLink (disk : Disk) (path goal : String) : Disk := disk.put (disk.target path) (.link goal)

def makeFolder (disk : Disk) (path : String) : Disk :=
  match disk.find path with
  | .ok _ => disk
  | .error _ => disk.put (disk.target path) (.folder [])

def remove (disk : Disk) (path : String) : Disk :=
  { disk with top := disk.top.erase (disk.target path) }

end RouteManifest.Disk
