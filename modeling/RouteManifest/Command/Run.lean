import RouteManifest.Command.Arguments
import RouteManifest.Discovery
import RouteManifest.Settings.Load

/-!
Running a command on a file system. The commands list all endpoints, show the one with
a given route and verb, and inspect a single script file, which has to lie below the
root. A failure is reported with the chain of its causes.
-/

namespace RouteManifest

namespace Command

inductive Fault
  | listing (root : String) (failure : Failure)
  | discovery (failure : Failure)
  | unsupportedVerb (text : String)
  | noEndpoint (verb : Verb) (route : String)
  | outside (path root : String)
  | misnamed (path extension : String)
deriving DecidableEq, Repr

def Fault.chain : Fault → List String
  | listing root failure => s!"listing endpoints under {root}" :: failure.chain
  | discovery failure => failure.chain
  | unsupportedVerb text => [s!"unsupported verb '{text}'"]
  | noEndpoint verb route => [s!"no endpoint {verb.toText} {route}"]
  | outside path root => [s!"{path} is outside {root}", "prefix not found"]
  | misnamed path extension => [s!"{path} is not named <route>.<verb>.{extension}"]

def versionText : String := "endpoints 0.1.0\n"

/-- A verb in small or capital letters. -/
def verbOf? (text : String) : Option Verb :=
  Verb.ofText? (String.ofList (text.toList.map Char.toLower))

/-- Whether a route names a path of the manifest, with or without the route space. -/
def names (routeSpace route path : String) : Bool :=
  path == route || path == s!"{routeSpace}/{route}"

def listAll (disk : Disk) (settings : Settings) (root : String) : Except Fault (List Endpoint) :=
  match discover disk settings root with
  | .error failure => .error (.listing root failure)
  | .ok endpoints => .ok endpoints

def showRoute (disk : Disk) (settings : Settings) (root route verb : String) :
    Except Fault (List Endpoint) :=
  match verbOf? verb with
  | none => .error (.unsupportedVerb verb)
  | some verb =>
      match discover disk settings root with
      | .error failure => .error (.discovery failure)
      | .ok endpoints =>
          let route := Path.trimSlashes route
          let found := endpoints.filter fun endpoint =>
            endpoint.verb == verb && names settings.routeSpace route endpoint.path
          if found.isEmpty then .error (.noEndpoint verb route) else .ok found

/-- The script file that a path names, without links where it exists. -/
def scriptFile (disk : Disk) (root file extension : String) : Except Fault ScriptFile :=
  let path := disk.canonicalOrSame (Path.join root file)
  match Path.stripBase? root path with
  | none => .error (.outside path root)
  | some relative =>
      match RoutedName.ofPath? (normalizePath relative) extension with
      | none => .error (.misnamed relative extension)
      | some name => .ok ⟨path, name.route, name.verb⟩

def inspectFile (disk : Disk) (settings : Settings) (root file : String) :
    Except Fault (List Endpoint) :=
  match scriptFile disk root file settings.extension with
  | .error fault => .error fault
  | .ok script =>
      match disk.loadScript script.path with
      | .error failure => .error (.discovery failure)
      | .ok node => .ok [Discovery.describeFile settings script node]

def run (disk : Disk) (settings : Settings) (root : String) : Command → Except Fault String
  | .list format => (listAll disk settings root).map (render · format)
  | .show route verb format => (showRoute disk settings root route verb).map (render · format)
  | .inspect file format => (inspectFile disk settings root file).map (render · format)
  | .version => .ok versionText

end Command

structure Report where
  code : UInt8
  output : String := ""
  errors : String := ""
deriving DecidableEq, Repr

namespace Invocation

/-- The root without links where it exists. -/
def canonicalRoot (disk : Disk) (invocation : Invocation) : String :=
  disk.canonicalOrSame invocation.root

def settingsPath (disk : Disk) (invocation : Invocation) : String :=
  invocation.config.getD (Settings.defaultPath (invocation.canonicalRoot disk))

def settings (disk : Disk) (invocation : Invocation) : Settings :=
  Settings.loadOrDefault disk (invocation.settingsPath disk)

def run (disk : Disk) (invocation : Invocation) : Report :=
  match invocation.command.run disk (invocation.settings disk) (invocation.canonicalRoot disk) with
  | .ok output => { code := 0, output }
  | .error fault => { code := 1, errors := "Error: " ++ ": ".intercalate fault.chain ++ "\n" }

end Invocation

namespace Report

def usageText : String :=
  "Usage: endpoints [-r ROOT] [-c CONFIG] <list | show ROUTE VERB | inspect FILE> [-f FORMAT]\n"

/-- Wrong usage is told with the errors, help is output that was asked for. -/
def ofWords (disk : Disk) (words : List String) : Report :=
  match Invocation.ofWords words with
  | .ok invocation => invocation.run disk
  | .error .help => { code := 0, output := usageText }
  | .error .usage => { code := 2, errors := usageText }

end Report

end RouteManifest
