import RouteManifest.Command.Run
import RouteManifest.Disk.Edit
import RouteManifest.Server.Serve

/-!
The two programs: the command line, and the server when the program is called by that
name. What a run can look at is first taken from the file system into a value, and all
answers are computed from that value. The server takes the route folders afresh for
every line.
-/

namespace RouteManifest.Main

def nowhere : String := "/nowhere/at/all"

def entryAt (location : Location) (name : FileName) : IO.FS.DirEntry :=
  { root := location.toText, fileName := name.text }

/-- The entry of a folder as it is itself, with a folder still empty. -/
def sight? (location : Location) (name : FileName) : IO (Option Entry) := do
  let path := (entryAt location name).path
  try
    match (← path.symlinkMetadata).type with
    | .dir => return some (.folder [])
    | .file => return some (.file (← IO.FS.readBinFile path))
    | _ =>
        let goal := (← IO.FS.realPath path).toString
        return some (.link (if goal == path.toString then nowhere else goal))
  catch _ => return none

/-- Takes what lies on the way through a path, with the goals of its links. -/
partial def takeWay (disk : Disk) (location : Location) : List String → IO Disk
  | [] => return disk
  | piece :: rest => do
      if Path.isIdle piece then takeWay disk location rest
      else if piece == ".." then takeWay disk location.dropLast rest
      else
        let some name := FileName.ofText? piece | return disk
        let here := location ++ [name]
        match ← sight? location name with
        | some (.link goal) => takeWay (disk.put here (.link goal)) [] (Path.pieces goal ++ rest)
        | some (.folder entries) =>
            let known := (disk.at? here).isSome
            takeWay (if known then disk else disk.put here (.folder entries)) here rest
        | some (.file content) => return disk.put here (.file content)
        | none => return disk

def takePath (disk : Disk) (path : String) : IO Disk :=
  takeWay disk (disk.startOf path) (Path.pieces path)

partial def takeBelow (disk : Disk) (location : Location) : IO Disk := do
  let folder ← IO.FS.realPath location.toText
  let entries ← try folder.readDir catch _ => pure #[]
  entries.foldlM (fun disk entry => do
    let some name := FileName.ofText? entry.fileName | return disk
    let some found ← sight? location name | return disk
    let here := location ++ [name]
    let disk := disk.put here found
    match found with
    | .folder _ => takeBelow disk here
    | _ => return disk) disk

def takeFolder (disk : Disk) (path : String) : IO Disk := do
  let disk ← takePath disk path
  match disk.locate path with
  | .ok location => takeBelow disk location
  | .error _ => return disk

def workingDisk : IO Disk := do
  let path := (← IO.currentDir).toString
  let disk ← takePath default path
  match disk.locate path with
  | .ok working => return { disk with working }
  | .error _ => return disk

def routeFolders (root : String) (settings : Settings) : String :=
  (ScanPlan.ofSettings root settings).base

/-- Takes what the run of a command looks at. -/
def commandDisk (invocation : Invocation) : IO Disk := do
  let disk ← takePath (← workingDisk) invocation.root
  let disk ← takePath disk (invocation.settingsPath disk)
  let root := invocation.canonicalRoot disk
  let disk ← takeFolder disk (routeFolders root (invocation.settings disk))
  match invocation.command with
  | .inspect file _ => takePath disk (Path.join root file)
  | _ => return disk

def runCommand (words : List String) : IO Report := do
  match Invocation.ofWords words with
  | .ok invocation => return Report.ofWords (← commandDisk invocation) words
  | .error _ => return Report.ofWords default words

/-- The octets up to the next newline, which is kept; none at the end of the input. -/
partial def readLine (input : IO.FS.Stream) (taken : List UInt8) : IO (List UInt8) := do
  match (← input.read 1).toList with
  | [] => return taken.reverse
  | octet :: _ => if octet == 0x0A then return (octet :: taken).reverse
                  else readLine input (octet :: taken)

partial def runServer (context : Server.Context) (disk : Disk) (input output : IO.FS.Stream) :
    IO Unit := do
  let line ← readLine input []
  if line.isEmpty || (Server.lineText? line).isNone then return
  let current ← takeFolder disk (routeFolders context.root context.settings)
  output.putStr (Server.output (Server.serve context current line))
  output.flush
  runServer context disk input output

def startServer (words : List String) : IO Unit := do
  let disk ← workingDisk
  let root := words.head?.getD disk.working.toText
  let disk ← takePath (← takePath disk root) (Settings.defaultPath root)
  runServer (Server.Context.ofWords disk words) disk (← IO.getStdin) (← IO.getStdout)

end RouteManifest.Main

def main (words : List String) : IO UInt32 := do
  if (← IO.appPath).fileName == some "endpoints-mcp" then
    RouteManifest.Main.startServer words
    return 0
  else
    let report ← RouteManifest.Main.runCommand words
    IO.print report.output
    IO.eprint report.errors
    return report.code.toUInt32
