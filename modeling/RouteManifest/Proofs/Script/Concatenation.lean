import RouteManifest.Proofs.Script.Source

/-!
Sources behind one another. A source that can be read by itself can also be read behind another
one, however deep that one has ended: its first node stands at the left margin, where a line is
accepted at every level, and closes all nodes that are still open. So the nodes of both sources
stand side by side.
-/

namespace RouteManifest.Script

open RouteManifest.Text

theorem read_line_mono {low high : Nat} {line : List Char} {entry : OutlineEntry} (le : low ≤ high)
    (read : readLine low line = .ok entry) : readLine high line = .ok entry := by
  obtain ⟨noTab, spaces, shallow, labelled⟩ := read_line_eq_ok_iff.mp read
  exact read_line_eq_ok_iff.mpr ⟨noTab, spaces, Nat.le_trans shallow le, labelled⟩

/-- Lines that can be read can be read behind other lines, wherever these leave the reader. -/
theorem read_lines_mono {number start low high : Nat} {texts : List (List Char)}
    {entries : List OutlineEntry} (le : low ≤ high)
    (read : readLines start low texts = .ok entries) :
    readLines number high texts = .ok entries := by
  induction texts generalizing number start low high entries with
  | nil => exact read
  | cons line rest induction =>
      rcases read_lines_cons_eq_ok read with
        ⟨significant, entry, later, readEntry, readLater, rfl⟩ | ⟨skipped, read⟩
      · have again : readLines (number + 1) (entry.depth + 1) rest = .ok later :=
          induction (Nat.le_refl _) readLater
        rw [readLines, if_pos significant, read_line_mono le readEntry]
        simp [again, Except.map]
      · rw [readLines, if_neg (by simp [skipped])]
        exact induction le read

theorem read_lines_append {number level start : Nat} {front back : List (List Char)}
    {entries others : List OutlineEntry} (readFront : readLines number level front = .ok entries)
    (readBack : readLines start 0 back = .ok others) :
    readLines number level (front ++ back) = .ok (entries ++ others) := by
  induction front generalizing number level entries with
  | nil =>
      cases readFront
      exact read_lines_mono (Nat.zero_le level) readBack
  | cons line rest induction =>
      rw [List.cons_append]
      rcases read_lines_cons_eq_ok readFront with
        ⟨significant, entry, later, readEntry, readLater, rfl⟩ | ⟨skipped, read⟩
      · rw [readLines, if_pos significant, readEntry]
        simp [induction readLater, Except.map]
      · rw [readLines, if_neg (by simp [skipped])]
        exact induction read

theorem outline_all_append (depth : Nat) (front back : List Node) :
    Node.outlineAll depth (front ++ back) =
      Node.outlineAll depth front ++ Node.outlineAll depth back := by
  induction front with
  | nil => rfl
  | cons node rest induction =>
      rw [List.cons_append, Node.outlineAll, induction, Node.outlineAll, List.append_assoc]

theorem grow_append {entries others : List OutlineEntry} (nested : WellNested 0 entries)
    (margin : WellNested 0 others) : grow (entries ++ others) = grow entries ++ grow others := by
  have outline : entries ++ others = Node.outlineAll 0 (grow entries ++ grow others) := by
    rw [outline_all_append, outline_all_grow nested, outline_all_grow margin]
  rw [outline, grow_outline_all]

/-- Two sources that can be read, the first of them up to the end of a line, are read behind one
another as the trees of the first one followed by those of the second one. -/
theorem parse_append {first second : String} {front back : Node}
    (parsedFirst : parse first = .ok front) (parsedSecond : parse second = .ok back)
    (closed : first = "" ∨ first.toList.getLast? = some '\n') :
    parse (first ++ second) = .ok { name := "", children := front.children ++ back.children } := by
  obtain ⟨entries, readFirst, rfl, -⟩ := parse_eq_ok parsedFirst
  obtain ⟨others, readSecond, rfl, -⟩ := parse_eq_ok parsedSecond
  have lineEnd : first.toList = [] ∨ first.toList.getLast? = some '\n' :=
    closed.imp_left String.toList_eq_nil_iff.mpr
  have read : readOutline (first ++ second).toList = .ok (entries ++ others) := by
    rw [readOutline, String.toList_append, lines_append _ lineEnd]
    exact read_lines_append readFirst readSecond
  rw [parse, read]
  simp [Except.map, grow_append (read_lines_well_nested readFirst)
    (read_lines_well_nested readSecond)]

def deepSource : String := "a\n   b:1\n      c\n         \"d:\":int:4\n"

def deepScript : Node :=
  { name := "", children := [⟨"a", none, [⟨"b", some (.string "1"),
    [⟨"c", none, [⟨"d:", some (.int 4), []⟩]⟩]⟩]⟩] }

def flatSource : String := "// x\ne\n   f"

def flatScript : Node := { name := "", children := [⟨"e", none, [⟨"f", none, []⟩]⟩] }

theorem parse_deep_then_flat :
    parse deepSource = .ok deepScript ∧ parse flatSource = .ok flatScript ∧
    (deepSource = "" ∨ deepSource.toList.getLast? = some '\n') ∧
    parse (deepSource ++ flatSource) =
      .ok { name := "", children := deepScript.children ++ flatScript.children } := by
  have deep : parse deepSource = .ok deepScript := by rfl
  have flat : parse flatSource = .ok flatScript := by rfl
  have closed : deepSource.toList.getLast? = some '\n' := by decide
  exact ⟨deep, flat, .inr closed, parse_append deep flat (.inr closed)⟩

end RouteManifest.Script
