import RouteManifest.Proofs.Script.Outline
import RouteManifest.Proofs.Text.Lines
import RouteManifest.Proofs.Script.Line

/-!
Reading a source line by line. The entries that are read come from significant lines, one
from each, and are well nested; the lines written for an outline give the outline back
exactly when all its labels are restorable.
-/

namespace RouteManifest.Script

open RouteManifest.Text

theorem read_lines_cons_eq_ok {number level : Nat} {line : List Char} {rest : List (List Char)}
    {entries : List OutlineEntry} (read : readLines number level (line :: rest) = .ok entries) :
    (isSignificant line = true ∧ ∃ entry later, readLine level line = .ok entry ∧
        readLines (number + 1) (entry.depth + 1) rest = .ok later ∧ entries = entry :: later) ∨
      (isSignificant line = false ∧ readLines (number + 1) level rest = .ok entries) := by
  rw [readLines] at read
  split at read
  · next significant =>
      split at read
      · cases read
      · next entry readEntry =>
          cases later : readLines (number + 1) (entry.depth + 1) rest with
          | error fault => simp [later, Except.map] at read
          | ok others =>
              simp only [later, Except.map, Except.ok.injEq] at read
              exact .inl ⟨significant, entry, others, readEntry, later, read.symm⟩
  · next skipped => exact .inr ⟨by simpa using skipped, read⟩

theorem read_lines_well_nested {number level : Nat} {texts : List (List Char)}
    {entries : List OutlineEntry} (read : readLines number level texts = .ok entries) :
    WellNested level entries := by
  induction texts generalizing number level entries with
  | nil =>
      cases read
      trivial
  | cons line rest induction =>
      rcases read_lines_cons_eq_ok read with
        ⟨-, entry, later, readEntry, readLater, rfl⟩ | ⟨-, read⟩
      · exact ⟨(read_line_eq_ok_iff.mp readEntry).2.2.1, induction readLater⟩
      · exact induction read

theorem read_lines_length_le {number level : Nat} {texts : List (List Char)}
    {entries : List OutlineEntry} (read : readLines number level texts = .ok entries) :
    entries.length ≤ texts.length := by
  induction texts generalizing number level entries with
  | nil =>
      cases read
      exact Nat.le_refl _
  | cons line rest induction =>
      rcases read_lines_cons_eq_ok read with ⟨-, entry, later, -, readLater, rfl⟩ | ⟨-, read⟩
      · exact Nat.succ_le_succ (induction readLater)
      · exact Nat.le_succ_of_le (induction read)

theorem read_lines_sources {number level : Nat} {texts : List (List Char)}
    {entries : List OutlineEntry} (read : readLines number level texts = .ok entries) :
    ∀ entry ∈ entries, ∃ line ∈ texts, ∃ limit, readLine limit line = .ok entry := by
  induction texts generalizing number level entries with
  | nil =>
      cases read
      simp
  | cons line rest induction =>
      intro entry member
      rcases read_lines_cons_eq_ok read with
        ⟨-, first, later, readFirst, readLater, rfl⟩ | ⟨-, read⟩
      · rcases List.mem_cons.mp member with rfl | member
        · exact ⟨line, List.mem_cons_self, level, readFirst⟩
        · obtain ⟨source, inside, found⟩ := induction readLater entry member
          exact ⟨source, List.mem_cons_of_mem _ inside, found⟩
      · obtain ⟨source, inside, found⟩ := induction read entry member
        exact ⟨source, List.mem_cons_of_mem _ inside, found⟩

theorem lines_write_outline {entries : List OutlineEntry}
    (exact : ∀ entry ∈ entries, entry.label.value.any Value.isDecimal = false) :
    lines '\n' '\r' (writeOutline entries) = entries.map OutlineEntry.line := by
  have shape : writeOutline entries = (entries.map OutlineEntry.line).flatMap (· ++ ['\n']) := by
    rw [writeOutline, List.flatMap_map]
    rfl
  rw [shape]
  apply lines_of_terminated
  intro text member
  obtain ⟨entry, inside, rfl⟩ := List.mem_map.mp member
  have unbroken : ∀ character ∈ entry.line, character ≠ '\n' ∧ character ≠ '\r' := by
    intro character present
    rcases List.mem_append.mp present with spaces | label
    · rw [List.eq_of_mem_replicate spaces]
      decide
    · exact Label.write_unbroken (exact entry inside) character label
  exact ⟨fun present => (unbroken _ present).1 rfl, fun present => (unbroken _ present).2 rfl⟩

theorem read_lines_written_iff {number level : Nat} {entries : List OutlineEntry}
    (exact : ∀ entry ∈ entries, entry.label.value.any Value.isDecimal = false)
    (nested : WellNested level entries) :
    readLines number level (entries.map OutlineEntry.line) = .ok entries ↔
      ∀ entry ∈ entries, entry.label.Restorable := by
  induction entries generalizing number level with
  | nil => simp [readLines]
  | cons entry rest induction =>
      have exactFirst := exact entry List.mem_cons_self
      have later := @induction (number + 1) _
        (fun other member => exact other (List.mem_cons_of_mem _ member)) nested.2
      rw [List.map_cons, List.forall_mem_cons]
      constructor
      · intro read
        rcases read_lines_cons_eq_ok read with
          ⟨-, first, others, readFirst, readOthers, same⟩ | ⟨-, skipped⟩
        · cases same
          exact ⟨OutlineEntry.restorable_of_read_line exactFirst readFirst, later.mp readOthers⟩
        · -- A line that is skipped leaves too few lines for all entries.
          have short := read_lines_length_le skipped
          simp only [List.length_cons, List.length_map] at short
          omega
      · rintro ⟨restorable, others⟩
        obtain ⟨significant, read⟩ := OutlineEntry.read_line exactFirst restorable nested.1
        rw [readLines, if_pos significant, read]
        simp [later.mpr others, Except.map]

/-- The text of a forest is parsed as the forest exactly when all labels are restorable. -/
theorem parse_forest_text_iff {nodes : List Node}
    (exact : ∀ entry ∈ Node.outlineAll 0 nodes, entry.label.value.any Value.isDecimal = false) :
    parse (forestText nodes) = .ok { name := "", children := nodes } ↔
      ∀ entry ∈ Node.outlineAll 0 nodes, entry.label.Restorable := by
  have nested := outline_all_nested nodes
  have written := @read_lines_written_iff 1 0 _ exact nested
  rw [parse, forestText, String.toList_ofList, readOutline, lines_write_outline exact, ← written]
  cases read : readLines 1 0 ((Node.outlineAll 0 nodes).map OutlineEntry.line) with
  | error fault => simp [Except.map]
  | ok entries =>
      simp only [Except.map, Except.ok.injEq, Node.mk.injEq, true_and]
      constructor
      · rintro rfl
        exact (outline_all_grow (read_lines_well_nested read)).symm
      · rintro rfl
        exact grow_outline_all nodes

end RouteManifest.Script
