import Mathlib.Data.List.Forall2
import RouteManifest.Proofs.Script.Preorder
import RouteManifest.Proofs.Script.RoundTrip

/-!
What the lines of a source say about its script. A line stands for a node when it is
neither blank nor a comment behind its leading spaces. The nodes of a script that was read
are those of its significant lines, in their order and at their depths. A source is read
exactly when every significant line fits behind the lines in front of it, and otherwise the
first one that does not fit is reported by its number among all lines.
-/

namespace RouteManifest.Script

open RouteManifest.Text

def sourceLines (source : String) : List (List Char) := lines '\n' '\r' source.toList

def significantLines (source : String) : List (List Char) :=
  (sourceLines source).filter isSignificant

/-- An entry has the depth and the label of a line. -/
structure OutlineEntry.StandsFor (entry : OutlineEntry) (line : List Char) : Prop where
  indented : entry.depth = indentation line / levelWidth
  labelled : Label.read (unindented line) = .ok entry.label

theorem stands_for_of_read_line {level : Nat} {line : List Char} {entry : OutlineEntry}
    (read : readLine level line = .ok entry) : entry.StandsFor line := by
  obtain ⟨-, spaces, -, labelled⟩ := read_line_eq_ok_iff.mp read
  refine ⟨?_, labelled⟩
  rw [spaces, Nat.mul_div_cancel_left _ (by decide)]

theorem read_lines_stand_for {number level : Nat} {texts : List (List Char)}
    {entries : List OutlineEntry} (read : readLines number level texts = .ok entries) :
    List.Forall₂ OutlineEntry.StandsFor entries (texts.filter isSignificant) := by
  induction texts generalizing number level entries with
  | nil =>
      cases read
      exact .nil
  | cons line rest induction =>
      rcases read_lines_cons_eq_ok read with
        ⟨significant, entry, later, readEntry, readLater, rfl⟩ | ⟨skipped, read⟩
      · rw [List.filter_cons_of_pos significant]
        exact .cons (stands_for_of_read_line readEntry) (induction readLater)
      · rw [List.filter_cons_of_neg (by simp [skipped])]
        exact induction read

theorem outline_all_inj {left right : List Node}
    (same : Node.outlineAll 0 left = Node.outlineAll 0 right) : left = right := by
  have grown := congrArg grow same
  rwa [grow_outline_all, grow_outline_all] at grown

/-- A line that can be read where a node may be at most at the given level. -/
structure Fits (level : Nat) (line : List Char) : Prop where
  noTab : (unindented line).head? ≠ some '\t'
  nested : ∃ depth, indentation line = levelWidth * depth ∧ depth ≤ level
  readable : ∃ label, Label.read (unindented line) = .ok label

/-- The deepest level behind some lines: one below the last node, or the given one when the
lines stand for no node. -/
def levelBehind (level : Nat) (front : List (List Char)) : Nat :=
  match (front.filter isSignificant).getLast? with
  | none => level
  | some line => indentation line / levelWidth + 1

/-- Every significant line fits behind the lines in front of it. -/
def WellIndented (level : Nat) (texts : List (List Char)) : Prop :=
  ∀ front line back, texts = front ++ line :: back → isSignificant line = true →
    Fits (levelBehind level front) line

/-- The first significant line that does not fit has these lines in front of it. -/
def StopsBehind (level : Nat) (texts front : List (List Char)) : Prop :=
  ∃ line back, texts = front ++ line :: back ∧ WellIndented level front ∧
    isSignificant line = true ∧ ¬ Fits (levelBehind level front) line

theorem read_line_ok_iff {level : Nat} {line : List Char} :
    (∃ entry, readLine level line = .ok entry) ↔ Fits level line := by
  constructor
  · rintro ⟨entry, read⟩
    obtain ⟨noTab, spaces, le, labelled⟩ := read_line_eq_ok_iff.mp read
    exact ⟨noTab, ⟨entry.depth, spaces, le⟩, ⟨entry.label, labelled⟩⟩
  · rintro ⟨noTab, ⟨depth, spaces, le⟩, label, labelled⟩
    exact ⟨⟨depth, label⟩, read_line_eq_ok_iff.mpr ⟨noTab, spaces, le, labelled⟩⟩

def levelAfter (level : Nat) (line : List Char) : Nat :=
  if isSignificant line then indentation line / levelWidth + 1 else level

theorem level_behind_cons (level : Nat) (line : List Char) (front : List (List Char)) :
    levelBehind level (line :: front) = levelBehind (levelAfter level line) front := by
  unfold levelBehind levelAfter
  cases significant : isSignificant line with
  | false => rw [List.filter_cons_of_neg (by simp [significant]), if_neg (by simp)]
  | true =>
      rw [List.filter_cons_of_pos significant, List.getLast?_cons, if_pos rfl]
      cases (front.filter isSignificant).getLast? <;> rfl

theorem well_indented_cons {level : Nat} {line : List Char} {rest : List (List Char)} :
    WellIndented level (line :: rest) ↔
      (isSignificant line = true → Fits level line) ∧
        WellIndented (levelAfter level line) rest := by
  constructor
  · intro well
    refine ⟨fun significant => well [] line rest rfl significant, ?_⟩
    intro front other back split significant
    rw [← level_behind_cons]
    exact well (line :: front) other back (by rw [split, List.cons_append]) significant
  · rintro ⟨first, later⟩ front other back split significant
    cases front with
    | nil =>
        obtain ⟨rfl, rfl⟩ := List.cons.inj split
        exact first significant
    | cons start front =>
        obtain ⟨rfl, rfl⟩ := List.cons.inj split
        rw [level_behind_cons]
        exact later front other back rfl significant

theorem stops_behind_cons {level : Nat} {line : List Char} {rest front : List (List Char)}
    (fits : isSignificant line = true → Fits level line) :
    StopsBehind level (line :: rest) (line :: front) ↔
      StopsBehind (levelAfter level line) rest front := by
  simp only [StopsBehind, List.cons_append, List.cons.injEq, true_and, well_indented_cons,
    level_behind_cons]
  constructor
  · rintro ⟨other, back, split, ⟨-, well⟩, bad⟩
    exact ⟨other, back, split, well, bad⟩
  · rintro ⟨other, back, split, well, bad⟩
    exact ⟨other, back, split, ⟨fits, well⟩, bad⟩

/-- What reading lines one by one comes to: all lines fit, or one of them is the first that
does not. -/
theorem read_lines_decides (number level : Nat) (texts : List (List Char)) :
    (∃ entries, readLines number level texts = .ok entries ∧ WellIndented level texts) ∨
      ∃ cause front, readLines number level texts = .error ⟨number + front.length, cause⟩ ∧
        StopsBehind level texts front := by
  induction texts generalizing number level with
  | nil => exact .inl ⟨[], rfl, fun front line back split => by simp at split⟩
  | cons line rest induction =>
      cases significant : isSignificant line with
      | false =>
          have skipped : levelAfter level line = level := by simp [levelAfter, significant]
          rw [readLines, if_neg (by simp [significant])]
          rcases induction (number + 1) level with
            ⟨entries, read, well⟩ | ⟨cause, front, read, stops⟩
          · refine .inl ⟨entries, read, well_indented_cons.mpr ⟨by simp [significant], ?_⟩⟩
            rwa [skipped]
          · refine .inr ⟨cause, line :: front, ?_, (stops_behind_cons (by simp [significant])).mpr ?_⟩
            · rw [read, List.length_cons, Nat.add_right_comm, Nat.add_assoc]
            · rwa [skipped]
      | true =>
          rw [readLines, if_pos significant]
          cases read : readLine level line with
          | error cause =>
              refine .inr ⟨cause, [], rfl, line, rest, rfl, ?_, significant, ?_⟩
              · intro front other back split
                simp at split
              · intro fits
                obtain ⟨entry, readEntry⟩ := read_line_ok_iff.mpr fits
                exact absurd (read.symm.trans readEntry) (by simp)
          | ok entry =>
              have fits : isSignificant line = true → Fits level line :=
                fun _ => read_line_ok_iff.mp ⟨entry, read⟩
              have deeper : levelAfter level line = entry.depth + 1 := by
                rw [levelAfter, if_pos significant, (stands_for_of_read_line read).indented]
              rcases induction (number + 1) (entry.depth + 1) with
                ⟨entries, later, well⟩ | ⟨cause, front, later, stops⟩
              · refine .inl ⟨entry :: entries, by simp [later, Except.map], ?_⟩
                exact well_indented_cons.mpr ⟨fits, by rwa [deeper]⟩
              · refine .inr ⟨cause, line :: front, ?_, (stops_behind_cons fits).mpr (by rwa [deeper])⟩
                simp [later, Except.map]
                omega

theorem StopsBehind.not_well_indented {level : Nat} {texts front : List (List Char)}
    (stops : StopsBehind level texts front) : ¬ WellIndented level texts := by
  obtain ⟨line, back, split, -, significant, bad⟩ := stops
  exact fun well => bad (well front line back split significant)

theorem StopsBehind.unique {level : Nat} {texts one two : List (List Char)}
    (first : StopsBehind level texts one) (second : StopsBehind level texts two) : one = two := by
  induction one generalizing level texts two with
  | nil =>
      obtain ⟨line, back, rfl, -, significant, bad⟩ := first
      obtain ⟨other, rest, split, well, -, -⟩ := second
      cases two with
      | nil => rfl
      | cons start two =>
          obtain ⟨rfl, -⟩ := List.cons.inj split
          exact absurd (well [] line two rfl significant) bad
  | cons start one induction =>
      obtain ⟨line, back, rfl, well, -, -⟩ := id first
      have fits := (well_indented_cons.mp well).1
      obtain ⟨other, rest, split, -, significant, bad⟩ := id second
      cases two with
      | nil =>
          obtain ⟨rfl, -⟩ := List.cons.inj split
          exact absurd (fits significant) bad
      | cons again two =>
          obtain ⟨rfl, -⟩ := List.cons.inj split
          rw [List.cons_append] at first second
          rw [induction ((stops_behind_cons fits).mp first) ((stops_behind_cons fits).mp second)]

theorem stands_for_unique : Relator.LeftUnique OutlineEntry.StandsFor := by
  intro left right line one two
  obtain ⟨depth, label⟩ := left
  obtain ⟨otherDepth, otherLabel⟩ := right
  obtain rfl : depth = otherDepth := one.indented.trans two.indented.symm
  obtain rfl : label = otherLabel := Except.ok.inj (one.labelled.symm.trans two.labelled)
  rfl

/-- A script that was read has an unnamed root, and below it one node for every significant line,
in their order, as deep as the line and labelled as it says. No other forest has these nodes. -/
theorem outline_mirrors_significant_lines (source : String) (root : Node)
    (parsed : parse source = .ok root) :
    root.name = "" ∧ root.value = none ∧
    List.Forall₂ OutlineEntry.StandsFor (Node.outlineAll 0 root.children)
      (significantLines source) ∧
    root.descendants.map Node.label = (Node.outlineAll 0 root.children).map OutlineEntry.label ∧
    ∀ nodes, List.Forall₂ OutlineEntry.StandsFor (Node.outlineAll 0 nodes)
      (significantLines source) → nodes = root.children := by
  obtain ⟨entries, read, rfl, outline⟩ := parse_eq_ok parsed
  have mirrored : List.Forall₂ OutlineEntry.StandsFor (Node.outlineAll 0 (grow entries))
      (significantLines source) := by
    rw [outline]
    exact read_lines_stand_for read
  refine ⟨rfl, rfl, mirrored, ?_, ?_⟩
  · rw [Node.descendants, Node.visit_eq_preorder_all, Node.preorder_all_labels 0]
  · intro nodes others
    exact outline_all_inj (stands_for_unique.forall₂ others mirrored)

/-- A comment and a blank line stand between the nodes, and the last line closes two levels. -/
theorem outline_mirrors_sample :
    let root : Node := { name := "", children := [
      { name := "a", children := [{ name := "b", value := some (.int 1), children := [
        Node.ofText "d" " x"] }] }, { name := "e" }] }
    parse "a\n   b:int:1\n// c\n      d: x \n\ne" = .ok root ∧
      List.Forall₂ OutlineEntry.StandsFor (Node.outlineAll 0 root.children)
        (significantLines "a\n   b:int:1\n// c\n      d: x \n\ne") := by
  intro root
  have parsed : parse "a\n   b:int:1\n// c\n      d: x \n\ne" = .ok root := rfl
  exact ⟨parsed, (outline_mirrors_significant_lines _ root parsed).2.2.1⟩

/-- A source is read exactly when every significant line fits behind the lines in front of it:
no tab, three spaces for every level, at most one level below the last node, and a label that can
be read. Otherwise the number of the first line that does not fit is reported. -/
theorem parse_accepts_well_indented (source : String) :
    ((∃ root, parse source = .ok root) ↔ WellIndented 0 (sourceLines source)) ∧
    ∀ number, (∃ cause, parse source = .error ⟨number, cause⟩) ↔
      ∃ front, number = front.length + 1 ∧ StopsBehind 0 (sourceLines source) front := by
  rcases read_lines_decides 1 0 (sourceLines source) with
    ⟨entries, read, well⟩ | ⟨cause, front, read, stops⟩
  · have parsed : parse source = .ok { name := "", children := grow entries } := by
      rw [parse, readOutline, ← sourceLines, read]
      rfl
    refine ⟨⟨fun _ => well, fun _ => ⟨_, parsed⟩⟩, fun number => ⟨?_, ?_⟩⟩
    · rintro ⟨cause, failed⟩
      exact absurd (parsed.symm.trans failed) (by simp)
    · rintro ⟨front, -, stops⟩
      exact absurd well stops.not_well_indented
  · have failed : parse source = .error ⟨front.length + 1, cause⟩ := by
      rw [parse, readOutline, ← sourceLines, read, Nat.add_comm]
      rfl
    refine ⟨⟨?_, fun well => absurd well stops.not_well_indented⟩, fun number => ⟨?_, ?_⟩⟩
    · rintro ⟨root, parsed⟩
      exact absurd (failed.symm.trans parsed) (by simp)
    · rintro ⟨other, again⟩
      obtain ⟨rfl, -⟩ := ScriptFault.mk.inj (Except.error.inj (failed.symm.trans again))
      exact ⟨front, rfl, stops⟩
    · rintro ⟨other, rfl, again⟩
      rw [again.unique stops]
      exact ⟨cause, failed⟩

end RouteManifest.Script
