import RouteManifest.Disk.Path

/-!
A file system as a value: folders of named entries, files with their octets, and
symbolic links with their target text. A folder is an association list in which the
first entry of a name counts. Its order is the order in which the folder is listed,
and nothing may depend on it.
-/

namespace RouteManifest

/-- A name that an entry of a folder can have. -/
def isFileName (text : String) : Bool :=
  text ≠ "" && text ≠ "." && text ≠ ".." && !text.toList.contains '/' &&
    !text.toList.contains '\x00' && text.utf8ByteSize ≤ 255

/-- Names are texts in Unicode. A disk may also hold names whose octets are no text in UTF-8;
they do not occur here. -/
structure FileName where
  text : String
  valid : isFileName text = true
deriving DecidableEq, Repr

def FileName.ofText? (text : String) : Option FileName :=
  if valid : isFileName text = true then some ⟨text, valid⟩ else none

inductive Entry
  | file (content : ByteArray)
  | link (target : String)
  | folder (entries : List (FileName × Entry))
deriving Inhabited

inductive EntryKind
  | file
  | link
  | folder
deriving DecidableEq, Repr

namespace Entry

def kind : Entry → EntryKind
  | file _ => .file
  | link _ => .link
  | folder _ => .folder

end Entry

/-- The way from the top of a file system through folders, without links. -/
abbrev Location := List FileName

namespace Folder

def find? (entries : List (FileName × Entry)) (name : String) : Option (FileName × Entry) :=
  entries.find? fun entry => entry.1.text == name

/-- The entries that count: the first of every name. -/
def distinct : List (FileName × Entry) → List (FileName × Entry)
  | [] => []
  | (name, entry) :: rest => (name, entry) :: (distinct rest).filter fun other => other.1 ≠ name

def replace (name : FileName) (entry : Entry) : List (FileName × Entry) → List (FileName × Entry)
  | [] => [(name, entry)]
  | (other, kept) :: rest =>
      if other = name then (name, entry) :: rest else (other, kept) :: replace name entry rest

end Folder

namespace Entry

def at? : Entry → Location → Option Entry
  | entry, [] => some entry
  | folder entries, name :: rest =>
      match Folder.find? entries name.text with
      | some (_, entry) => entry.at? rest
      | none => none
  | _, _ :: _ => none

/-- The entry with another one at a location, in folders that are made as needed. -/
def insert (new : Entry) : Location → Entry → Entry
  | [], _ => new
  | name :: rest, folder entries =>
      let old := ((Folder.find? entries name.text).map Prod.snd).getD (.folder [])
      folder (Folder.replace name (insert new rest old) entries)
  | _ :: _, entry => entry

def erase : Location → Entry → Entry
  | [], entry => entry
  | [name], folder entries => folder (entries.filter fun entry => entry.1 ≠ name)
  | name :: rest, folder entries =>
      match Folder.find? entries name.text with
      | some (_, inner) => folder (Folder.replace name (erase rest inner) entries)
      | none => folder entries
  | _ :: _, entry => entry

mutual
def size : Entry → Nat
  | folder entries => sizeAll entries
  | _ => 0
def sizeAll : List (FileName × Entry) → Nat
  | [] => 0
  | (_, entry) :: rest => entry.size + 1 + sizeAll rest
end

theorem at_snoc (entry : Entry) (location : Location) (name : FileName) :
    entry.at? (location ++ [name]) =
      match entry.at? location with
      | some (folder entries) => (Folder.find? entries name.text).map Prod.snd
      | _ => none := by
  fun_induction at? entry location with
  | case1 entry =>
      cases entry with
      | folder entries => cases found : Folder.find? entries name.text <;> simp [at?, found]
      | _ => simp [at?]
  | case2 entries step rest _ inner found ih => simp [at?, found, ih]
  | case3 entries step rest missing => simp [at?, missing]
  | case4 entry step rest other => cases entry <;> simp_all [at?]

theorem size_all_filter_le (keep : FileName × Entry → Bool) (entries : List (FileName × Entry)) :
    sizeAll (entries.filter keep) ≤ sizeAll entries := by
  induction entries with
  | nil => simp
  | cons entry rest ih =>
      obtain ⟨name, inner⟩ := entry
      by_cases kept : keep (name, inner) <;> simp [kept, sizeAll] <;> omega

theorem size_all_distinct_le (entries : List (FileName × Entry)) :
    sizeAll (Folder.distinct entries) ≤ sizeAll entries := by
  induction entries with
  | nil => simp [Folder.distinct]
  | cons entry rest ih =>
      obtain ⟨name, inner⟩ := entry
      have filtered := size_all_filter_le (fun other => other.1 ≠ name) (Folder.distinct rest)
      simp only [Folder.distinct, sizeAll]
      omega

end Entry

theorem Folder.find_of_mem_distinct {entries : List (FileName × Entry)} {name : FileName}
    {entry : Entry} (member : (name, entry) ∈ distinct entries) :
    find? entries name.text = some (name, entry) := by
  induction entries with
  | nil => simp [distinct] at member
  | cons first rest ih =>
      obtain ⟨other, inner⟩ := first
      simp only [distinct, List.mem_cons, List.mem_filter, decide_eq_true_eq] at member
      rcases member with same | ⟨later, different⟩
      · obtain ⟨rfl, rfl⟩ := Prod.mk.inj same
        simp [find?]
      · have differs : (other.text == name.text) = false := by
          simp only [beq_eq_false_iff_ne]
          intro texts
          cases name; cases other
          simp_all
        simp only [find?, List.find?_cons, differs]
        exact ih later

/-- A file system and the folder in which relative paths start. -/
structure Disk where
  top : Entry := .folder []
  working : Location := []
deriving Inhabited

namespace Disk

def at? (disk : Disk) (location : Location) : Option Entry := disk.top.at? location

end Disk

def Location.toText (location : Location) : String :=
  "/" ++ Path.ofPieces (location.map FileName.text)

end RouteManifest
