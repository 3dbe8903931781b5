import RouteManifest.Disk.Access
import RouteManifest.Settings.Basic

/-!
Settings from a file. A program that only wants settings to work with takes the
default ones when the file is missing or faulty.
-/

namespace RouteManifest

inductive SettingsFault
  | unreadable (path : String) (fault : ReadFault)
  | malformed
deriving DecidableEq, Repr

namespace Settings

def defaultPath (root : String) : String :=
  Path.join (Path.join root ".endpoints") "config.toml"

def load (disk : Disk) (path : String) : Except SettingsFault Settings :=
  match disk.readText path with
  | .error fault => .error (.unreadable path fault)
  | .ok text =>
      match ofToml? text with
      | none => .error .malformed
      | some settings => .ok settings

def loadOrDefault (disk : Disk) (path : String) : Settings :=
  match load disk path with
  | .error _ => {}
  | .ok settings => settings

end Settings

end RouteManifest
