import RouteManifest.Endpoint.Vocabulary
import RouteManifest.Toml.Assemble

/-!
The settings of a tree: where its route folders are, which namespace and extension
its endpoints have, and the words its scripts are searched for. Settings are
written in TOML. Keys that are not known are skipped, missing ones keep their
defaults, and a known key stands once and has a value of its type.
-/

namespace RouteManifest

structure Settings where
  /-- The folder below the root that holds the route folders. -/
  modulesFolder : String := "modules"
  /-- The text in front of every route. -/
  routeSpace : String := "magic"
  /-- The extension of script files, without its dot. -/
  extension : String := "hl"
  vocabulary : Vocabulary := {}
deriving DecidableEq, Repr, Inhabited

namespace Settings

def readText : Toml → Option String
  | .string text => some text
  | _ => none

def readTexts : Toml → Option (List String)
  | .array items => items.mapM readText
  | _ => none

/-- A known key with a value of its type, or its default. Fails on a repeated key. -/
def readKey {Item : Type} (entries : List (String × Toml)) (key : String)
    (read : Toml → Option Item) (default : Item) : Option Item :=
  match entries.filter fun entry => entry.1 == key with
  | [] => some default
  | [(_, value)] => read value
  | _ => none

def vocabularyOfTable (entries : List (String × Toml)) : Option Vocabulary := do
  let default : Vocabulary := {}
  return {
    arguments := ← readKey entries "arguments" readText default.arguments
    description := ← readKey entries "description" readText default.description
    ticketVerify := ← readKey entries "ticket_verify" readText default.ticketVerify
    isStatistics := ← readKey entries "is_statistics" readText default.isStatistics
    invokeSlots := ← readKey entries "invoke_slots" readTexts default.invokeSlots
    sqlConnects := ← readKey entries "sql_connects" readTexts default.sqlConnects
    selectSuffix := ← readKey entries "select_suffix" readText default.selectSuffix
    countColumn := ← readKey entries "count_column" readText default.countColumn }

/-- The keys of the vocabulary in the order in which an array gives their values. -/
def vocabularyKeys : List String :=
  ["arguments", "description", "ticket_verify", "is_statistics", "invoke_slots", "sql_connects",
   "select_suffix", "count_column"]

/-- A vocabulary is a table, an array of values in the order of the keys, or a date,
which holds no key at all. -/
def readVocabulary : Toml → Option Vocabulary
  | .table _ entries => vocabularyOfTable entries
  | .array items =>
      if items.length ≤ vocabularyKeys.length then vocabularyOfTable (vocabularyKeys.zip items)
      else none
  | .datetime => some {}
  | _ => none

def ofTable (entries : List (String × Toml)) : Option Settings := do
  let default : Settings := {}
  return {
    modulesFolder := ← readKey entries "modules_folder" readText default.modulesFolder
    routeSpace := ← readKey entries "namespace" readText default.routeSpace
    extension := ← readKey entries "extension" readText default.extension
    vocabulary := ← readKey entries "vocabulary" readVocabulary default.vocabulary }

def ofToml? (text : String) : Option Settings := do ofTable (← Toml.parse text.toList)

end Settings

end RouteManifest
