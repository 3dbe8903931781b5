import RouteManifest.Toml.Reader

/-!
From the sections of a TOML text to its table. Sections whose headers start with
the same key belong to one value below that key. When the first of them is an
element, the value is an array of tables and each element takes the sections up to
the next one; otherwise it is one table, which is defined at most once.
-/

namespace RouteManifest.Toml

/-- The distinct first keys of the sections, in order of first occurrence. -/
def leadingKeys (sections : List Section) : List String :=
  (sections.filterMap fun entry => entry.path.head?).eraseDups

/-- The sections below a key, without that key in their paths. -/
def sectionsBelow (key : String) (sections : List Section) : List Section :=
  (sections.filter fun entry => entry.path.head? == some key).map fun entry =>
    { entry with path := entry.path.drop 1 }

def opensElement (entry : Section) : Bool := entry.element && entry.path.isEmpty

/-- Splits sections before every one that opens an element. -/
def splitElements : List Section → List (List Section)
  | [] => []
  | entry :: rest =>
      match splitElements rest with
      | [] => [[entry]]
      | group :: groups =>
          if group.head?.any opensElement then [entry] :: group :: groups
          else (entry :: group) :: groups

/-- The value of all sections below one key, given how the table of such sections is found. -/
def valueBelow (table : List Section → Option (List (String × Toml))) (sections : List Section) :
    Option Toml :=
  if sections.head?.any opensElement then do
    let items ← (splitElements sections).mapM fun group =>
      table (group.modifyHead fun opening => { opening with element := false })
    return .array (items.map (Toml.table false))
  else (table sections).map (Toml.table false)

/-- The table of sections whose paths are at most so long. -/
def assemble : Nat → List Section → Option (List (String × Toml))
  | depth, sections => do
      let own := sections.filter fun entry => entry.path.isEmpty
      if own.any (·.element) || 1 < own.length then none
      let entries := own.flatMap Section.entries
      match depth with
      | 0 => return entries
      | depth + 1 =>
          let tables ← (leadingKeys sections).mapM fun key => do
            return (key, ← valueBelow (assemble depth) (sectionsBelow key sections))
          return entries ++ tables

def parse (text : List Char) : Option (List (String × Toml)) := do
  let sections ← sections text
  let longest := (sections.map fun entry => entry.path.length).foldl max 0
  assemble longest sections

end RouteManifest.Toml
