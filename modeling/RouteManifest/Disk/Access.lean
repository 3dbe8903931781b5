import RouteManifest.Disk.Basic

/-!
Looking at a file system through paths. A path is walked piece by piece from the
top or from the working folder; links on the way are followed, up to forty of them.
Every way in which that can fail is a constructor of its fault.
-/

namespace RouteManifest

inductive DiskFault
  | notFound
  | notFolder
  | isFolder
  | nameTooLong
  | tooManyLinks
  | nulInName
deriving DecidableEq, Repr

def DiskFault.message : DiskFault → String
  | notFound => "No such file or directory (os error 2)"
  | notFolder => "Not a directory (os error 20)"
  | isFolder => "Is a directory (os error 21)"
  | nameTooLong => "File name too long (os error 36)"
  | tooManyLinks => "Too many levels of symbolic links (os error 40)"
  | nulInName => "file name contained an unexpected NUL byte"

/-- A place on the way through a file system and the number of links that may still be followed. -/
structure Walker where
  location : Location
  links : Nat
deriving DecidableEq, Repr

namespace Disk

def linkLimit : Nat := 40
def nameLimit : Nat := 255

/-- The octets that a path can be looked up with. -/
def pathLimit : Nat := 4095

def startOf (disk : Disk) (path : String) : Location :=
  if Path.isAbsolute path then [] else disk.working

/-- Walks through the pieces of a path, following every link. -/
def walk (disk : Disk) (location : Location) (links : Nat) (pieces : List String) :
    Except DiskFault Walker :=
  match pieces with
  | [] => .ok ⟨location, links⟩
  | piece :: rest =>
      match disk.at? location with
      | some (.folder entries) =>
          if Path.isIdle piece then walk disk location links rest
          else if piece = ".." then walk disk location.dropLast links rest
          else if nameLimit < piece.utf8ByteSize then .error .nameTooLong
          else
            match Folder.find? entries piece with
            | none => .error .notFound
            | some (_, .link target) =>
                match links with
                | 0 => .error .tooManyLinks
                | links + 1 =>
                    let start := if Path.isAbsolute target then [] else location
                    walk disk start links (Path.pieces target ++ rest)
            | some (name, _) => walk disk (location ++ [name]) links rest
      | some _ => .error .notFolder
      | none => .error .notFound
termination_by (links, pieces.length)

theorem walk_append (disk : Disk) (location : Location) (links : Nat) (front back : List String) :
    disk.walk location links (front ++ back) =
      match disk.walk location links front with
      | .error fault => .error fault
      | .ok walker => disk.walk walker.location walker.links back := by
  fun_induction walk disk location links front with
  | case7 => simp_all only [List.cons_append, walk, List.append_assoc]; simp_all; assumption
  | case8 => simp_all only [List.cons_append, walk]; simp_all
  | _ => simp_all [walk]

theorem file_name_walked (name : FileName) :
    Path.isIdle name.text = false ∧ name.text ≠ ".." ∧ name.text.utf8ByteSize ≤ nameLimit := by
  have valid := name.valid
  simp only [isFileName, Bool.and_eq_true, decide_eq_true_eq] at valid
  simp [Path.isIdle, valid, nameLimit]

def anyPiecesOf (path : String) : Except DiskFault (List String) :=
  if path.toList.contains '\x00' then .error .nulInName
  else if path.isEmpty then .error .notFound
  else .ok (Path.pieces path)

/-- The pieces of a path that can be looked up as a whole. -/
def piecesOf (path : String) : Except DiskFault (List String) := do
  let pieces ← anyPiecesOf path
  if pathLimit < path.utf8ByteSize then .error .nameTooLong else .ok pieces

/-- Where a path leads when all links are followed. -/
def locate (disk : Disk) (path : String) : Except DiskFault Location := do
  let walker ← disk.walk (disk.startOf path) linkLimit (← piecesOf path)
  return walker.location

/-- The entry at the end of a path; a link at the end is followed. -/
def find (disk : Disk) (path : String) : Except DiskFault Entry := do
  match disk.at? (← disk.locate path) with
  | some entry => .ok entry
  | none => .error .notFound

/-- The entry at the end of a path; a link at the very end is not followed. -/
def findLink (disk : Disk) (path : String) : Except DiskFault Entry := do
  let pieces ← piecesOf path
  let last := pieces.getLast?.getD ""
  if Path.isIdle last || last = ".." then disk.find path
  else
    let walker ← disk.walk (disk.startOf path) linkLimit pieces.dropLast
    match disk.at? walker.location with
    | some (.folder entries) =>
        if nameLimit < last.utf8ByteSize then .error .nameTooLong
        else
          match Folder.find? entries last with
          | some (_, entry) => .ok entry
          | none => .error .notFound
    | some _ => .error .notFolder
    | none => .error .notFound

def contains (disk : Disk) (path : String) : Bool := (disk.find path).isOk

/-- Whether what follows a piece makes it name a folder: idle pieces alone or a step back. -/
def asksForFolder (rest : List String) : Bool :=
  match rest.dropWhile Path.isIdle with
  | [] => !rest.isEmpty
  | next :: _ => next = ".."

/-- Whether every place that a walk comes to by a name can be looked up by its own path, which
has a slash behind it when it has to be a folder. -/
def inReach (disk : Disk) (location : Location) (links : Nat) (pieces : List String) : Bool :=
  match pieces with
  | [] => true
  | piece :: rest =>
      match disk.at? location with
      | some (.folder entries) =>
          if Path.isIdle piece then inReach disk location links rest
          else if piece = ".." then inReach disk location.dropLast links rest
          else
            match Folder.find? entries piece with
            | none => true
            | some (name, .link target) =>
                (location ++ [name]).toText.utf8ByteSize ≤ pathLimit &&
                  match links with
                  | 0 => true
                  | links + 1 =>
                      let start := if Path.isAbsolute target then [] else location
                      inReach disk start links (Path.pieces target ++ rest)
            | some (name, _) =>
                (location ++ [name]).toText.utf8ByteSize + (asksForFolder rest).toNat ≤ pathLimit &&
                  inReach disk (location ++ [name]) links rest
      | _ => true
termination_by (links, pieces.length)

/-- The absolute path without links, dots and double dots. It is found piece by piece, so the
given path can have any length, but no place on the way may be out of reach. -/
def canonical (disk : Disk) (path : String) : Except DiskFault String := do
  let pieces ← anyPiecesOf path
  let walker ← disk.walk (disk.startOf path) linkLimit pieces
  if disk.inReach (disk.startOf path) linkLimit pieces then .ok walker.location.toText
  else .error .nameTooLong

/-- The canonical path, or the path as it is when there is none. -/
def canonicalOrSame (disk : Disk) (path : String) : String :=
  match disk.canonical path with
  | .ok canonical => canonical
  | .error _ => path

/-- The names in the folder at a location, with the kinds of their entries. -/
def listAt (disk : Disk) (location : Location) : Except DiskFault (List (FileName × EntryKind)) :=
  match disk.at? location with
  | some (.folder entries) => .ok ((Folder.distinct entries).map fun item => (item.1, item.2.kind))
  | some _ => .error .notFolder
  | none => .error .notFound

def list (disk : Disk) (path : String) : Except DiskFault (List (FileName × EntryKind)) := do
  disk.listAt (← disk.locate path)

def read (disk : Disk) (path : String) : Except DiskFault ByteArray := do
  match ← disk.find path with
  | .file content => .ok content
  | .folder _ => .error .isFolder
  | .link _ => .error .tooManyLinks

end Disk

/-- Why a file could not be read as text. -/
inductive ReadFault
  | disk (fault : DiskFault)
  | notUtf8
deriving DecidableEq, Repr

def ReadFault.message : ReadFault → String
  | disk fault => fault.message
  | notUtf8 => "stream did not contain valid UTF-8"

def Disk.readText (disk : Disk) (path : String) : Except ReadFault String :=
  match disk.read path with
  | .error fault => .error (.disk fault)
  | .ok content =>
      match String.fromUTF8? content with
      | some text => .ok text
      | none => .error .notUtf8

end RouteManifest
