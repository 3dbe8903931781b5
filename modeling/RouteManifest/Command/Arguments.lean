import RouteManifest.Command.Word
import RouteManifest.Endpoint.Render

/-!
The arguments of the command line. First come the options of the program, then a
command with its own options and places; every option is given at most once. The words
are read from left to right, and the first one that is wrong or asks for help decides.
The value of a program option that stands as a word of its own is looked at only with
the next option or after the command, so a command that asks for help comes first.
-/

namespace RouteManifest

inductive Command
  | list (format : OutputFormat)
  | show (route verb : String) (format : OutputFormat)
  | inspect (file : String) (format : OutputFormat)
  | version
deriving DecidableEq, Repr

/-- A command line that can be run. -/
structure Invocation where
  root : String := "."
  config : Option String := none
  command : Command
deriving DecidableEq, Repr

namespace Command

/-- Why a command line is not run. -/
inductive Refusal
  | usage
  | help
deriving DecidableEq, Repr

def Choice.admits (choice : Choice) (value : String) : Bool :=
  match choice with
  | .root => value ≠ ""
  | .config => value ≠ ""
  | .format => (OutputFormat.ofText? value).isSome

/-- What a word without dashes stands for behind a command. -/
inductive Place
  | route
  | verb
  | file
deriving DecidableEq, Repr

def Place.admits (place : Place) (value : String) : Bool :=
  match place with
  | .route => true
  | .verb => true
  | .file => value ≠ ""

inductive Name
  | list
  | show
  | inspect
  | version
deriving DecidableEq, Repr

namespace Name

def ofText? : String → Option Name
  | "list" => some list
  | "show" => some .show
  | "inspect" => some inspect
  | "version" => some version
  | _ => none

def places : Name → List Place
  | list => []
  | .show => [.route, .verb]
  | inspect => [.file]
  | version => []

def choices : Name → List Choice
  | version => []
  | _ => [.format]

end Name

abbrev Chosen := List (Choice × String)

def Chosen.value? (chosen : Chosen) (choice : Choice) : Option String :=
  (chosen.find? (·.1 == choice)).map Prod.snd

/-- One more option with an admitted value, if it was not given before. -/
def Chosen.choose (chosen : Chosen) (choice : Choice) (value : String) : Except Refusal Chosen :=
  if (chosen.value? choice).isSome || !choice.admits value then .error .usage
  else .ok (chosen ++ [(choice, value)])

/-- The options and places that were read behind a command. -/
structure Tail where
  chosen : Chosen := []
  texts : List String := []
deriving DecidableEq, Repr

def Tail.place (name : Name) (tail : Tail) (text : String) : Except Refusal Tail :=
  match name.places[tail.texts.length]? with
  | some place =>
      if place.admits text then .ok { tail with texts := tail.texts ++ [text] }
      else .error .usage
  | none => .error .usage

/-- The words behind a command. After two dashes all of them are plain. -/
def readTail (name : Name) (tail : Tail) : List String → Except Refusal Tail
  | [] => .ok tail
  | word :: rest =>
      match _ : Item.take name.choices word rest with
      | (.plain text, behind) =>
          match tail.place name text with
          | .error refusal => .error refusal
          | .ok tail => readTail name tail behind
      | (.attached choice value, behind) | (.apart choice value, behind) =>
          match tail.chosen.choose choice value with
          | .error refusal => .error refusal
          | .ok chosen => readTail name { tail with chosen } behind
      | (.dashes, behind) => behind.foldlM (Tail.place name) tail
      | (.help, _) => .error .help
      | (.unknown, _) => .error .usage
termination_by words => words.length
decreasing_by
  all_goals
    have shorter := Item.length_take_le name.choices word rest
    simp only [*] at shorter
    simp only [List.length_cons]
    omega

def Tail.command (name : Name) (tail : Tail) : Except Refusal Command :=
  let format := ((tail.chosen.value? .format).bind OutputFormat.ofText?).getD .json
  match name, tail.texts with
  | .list, [] => .ok (.list format)
  | .show, [route, verb] => .ok (.show route verb format)
  | .inspect, [file] => .ok (.inspect file format)
  | .version, [] => .ok .version
  | _, _ => .error .usage

/-- Help can be asked for the program, for a command and for help itself. -/
def readHelp : List String → Refusal
  | [] => .help
  | [topic] => if topic = "help" || (Name.ofText? topic).isSome then .help else .usage
  | _ => .usage

/-- An option whose value was read but not yet looked at. -/
abbrev Pending := Option (Choice × String)

def Chosen.settle (chosen : Chosen) : Pending → Except Refusal Chosen
  | none => .ok chosen
  | some (choice, value) => chosen.choose choice value

/-- A command with its words, behind the options of the program. -/
def readCommand (chosen : Chosen) (pending : Pending) (word : String) (rest : List String) :
    Except Refusal Invocation :=
  if word = "help" then .error (readHelp rest)
  else
    match Name.ofText? word with
    | none => .error .usage
    | some name => do
        let command ← (← readTail name {} rest).command name
        let chosen ← chosen.settle pending
        return { root := (chosen.value? .root).getD ".", config := chosen.value? .config, command }

def readProgram (chosen : Chosen) (pending : Pending) : List String → Except Refusal Invocation
  | [] => .error .usage
  | word :: rest =>
      match _ : Item.take [.root, .config] word rest with
      | (.plain text, behind) => readCommand chosen pending text behind
      | (.attached choice value, behind) =>
          match (chosen.settle pending).bind (Chosen.choose · choice value) with
          | .error refusal => .error refusal
          | .ok chosen => readProgram chosen none behind
      | (.apart choice value, behind) =>
          match chosen.settle pending with
          | .error refusal => .error refusal
          | .ok chosen => readProgram chosen (some (choice, value)) behind
      | (.help, _) => do
          let _ ← chosen.settle pending
          .error .help
      | (.dashes, _) => .error .usage
      | (.unknown, _) => .error .usage
termination_by words => words.length
decreasing_by
  all_goals
    have shorter := Item.length_take_le [.root, .config] word rest
    simp only [*] at shorter
    simp only [List.length_cons]
    omega

end Command

def Invocation.ofWords (words : List String) : Except Command.Refusal Invocation :=
  Command.readProgram [] none words

example : (Invocation.ofWords ["-ra", "show", "x", "get"]).toOption =
    some { root := "a", command := .show "x" "get" .json } := by decide +kernel
example : (match Invocation.ofWords ["-r", "", "list", "-h"] with
    | .error refusal => refusal == .help
    | .ok _ => false) = true := by decide +kernel
example : (match Invocation.ofWords ["--root=", "list", "-h"] with
    | .error refusal => refusal == .usage
    | .ok _ => false) = true := by decide +kernel

end RouteManifest
