import RouteManifest.Proofs.Script.Preorder
import RouteManifest.Proofs.Script.Reading

/-!
Which scripts survive being written and read again. The written text of a script without
decimals is read as the same script exactly when all its labels are restorable. Scripts
that were read without quoted literals always survive; a quoted literal can carry blanks
to a place where the writer leaves out the quotes, and they are lost there.
-/

namespace RouteManifest.Script

open RouteManifest.Text

theorem forest_text_eq_join (nodes : List Node) :
    forestText nodes = String.join (nodes.map Node.toText) := by
  apply String.toList_injective
  rw [forestText, String.toList_ofList, String.toList_join]
  induction nodes with
  | nil => rfl
  | cons node rest induction =>
      rw [Node.outlineAll, writeOutline, List.flatMap_append, ← writeOutline, ← writeOutline,
        induction]
      simp [Node.toText]

theorem parse_eq_ok {source : String} {root : Node} (parsed : parse source = .ok root) :
    ∃ entries, readLines 1 0 (lines '\n' '\r' source.toList) = .ok entries ∧
      root = { name := "", children := grow entries } ∧
      Node.outlineAll 0 root.children = entries := by
  rw [parse, readOutline] at parsed
  cases read : readLines 1 0 (lines '\n' '\r' source.toList) with
  | error fault => simp [read, Except.map] at parsed
  | ok entries =>
      simp only [read, Except.map, Except.ok.injEq] at parsed
      subst parsed
      exact ⟨entries, rfl, rfl, outline_all_grow (read_lines_well_nested read)⟩

theorem parse_join_iff {root : Node} (whole : root = { name := "", children := root.children })
    (exact : ∀ node ∈ root.descendants, node.value.any Value.isDecimal = false) :
    parse (String.join (root.children.map Node.toText)) = .ok root ↔
      ∀ node ∈ root.descendants, node.label.Restorable := by
  have exactEntries := (@Node.forall_descendants_iff
    (fun label => label.value.any Value.isDecimal = false) root).mp exact
  rw [← forest_text_eq_join, Node.forall_descendants_iff root,
    ← parse_forest_text_iff exactEntries, ← whole]

theorem restorable_of_unquoted_source {source : String} {root : Node}
    (parsed : parse source = .ok root) (noQuote : '"' ∉ source.toList) :
    ∀ node ∈ root.descendants, node.label.Restorable := by
  obtain ⟨entries, read, -, outline⟩ := parse_eq_ok parsed
  rw [Node.forall_descendants_iff root, outline]
  intro entry member
  obtain ⟨line, listed, limit, readEntry⟩ := read_lines_sources read entry member
  obtain ⟨noTab, -, -, readLabel⟩ := read_line_eq_ok_iff.mp readEntry
  have noQuoteText : '"' ∉ unindented line := fun inside =>
    noQuote (mem_of_mem_lines listed (List.dropWhile_subset isSpace inside))
  have flush : startsIndented (unindented line) = false := by
    have noSpace := not_space_of_drop_spaces line
    rw [unindented] at noTab ⊢
    cases text : line.dropWhile isSpace with
    | nil => rfl
    | cons first rest => simp_all [startsIndented]
  exact Label.restorable_of_unquoted noQuoteText flush readLabel

/-- A script with an unnamed root is the result of reading its own text exactly when no name
and no value has blanks at an end where the written line does not keep them. -/
theorem parse_written_iff_restorable (root : Node) (unnamed : root.name = "")
    (bare : root.value = none)
    (exact : ∀ node ∈ root.descendants, node.value.any Value.isDecimal = false) :
    parse (String.join (root.children.map Node.toText)) = .ok root ↔
      ∀ node ∈ root.descendants, node.label.Restorable := by
  have whole : root = { name := "", children := root.children } := by
    cases root
    simp_all
  exact parse_join_iff whole exact

/-- Blanks in quoted names and texts, at the start of a value and before a colon are kept. -/
theorem parse_written_blank_sample :
    let root : Node := { name := "", children := [
      { name := "c ", value := some (.string " x:y "), children := [
        { name := "// d", value := some (.int (-7)) }, { name := "", children := [
          Node.ofText "\n " "\u00a0e"] }] }] }
    (∀ node ∈ root.descendants, node.value.any Value.isDecimal = false) ∧
      parse (String.join (root.children.map Node.toText)) = .ok root := by
  intro root
  have below : root.descendants = Node.preorderAll root.children :=
    Node.visit_eq_preorder_all root.children
  have exact : ∀ node ∈ root.descendants, node.value.any Value.isDecimal = false := by
    rw [below]
    decide
  refine ⟨exact, (parse_written_iff_restorable root rfl rfl exact).mpr ?_⟩
  rw [below]
  decide

/-- A script that was read survives exactly when its labels are restorable, and always when
its source has no quotes. -/
theorem parse_rewritten_iff_restorable (source : String) (root : Node)
    (parsed : parse source = .ok root)
    (exact : ∀ node ∈ root.descendants, node.value.any Value.isDecimal = false) :
    (parse (String.join (root.children.map Node.toText)) = .ok root ↔
      ∀ node ∈ root.descendants, node.label.Restorable) ∧
    ('"' ∉ source.toList → parse (String.join (root.children.map Node.toText)) = .ok root) := by
  obtain ⟨entries, -, grown, -⟩ := parse_eq_ok parsed
  have whole : root = { name := "", children := root.children } := by
    rw [grown]
  have survives := parse_join_iff whole exact
  exact ⟨survives, fun noQuote => survives.mpr (restorable_of_unquoted_source parsed noQuote)⟩

/-- The blank at the end of a quoted value is written without quotes, so it is lost. -/
theorem parse_rewritten_trailing_blank :
    let root : Node := { name := "", children := [Node.ofText "x" "a "] }
    parse "x:\"a \"" = .ok root ∧
      parse (String.join (root.children.map Node.toText)) ≠ .ok root := by
  intro root
  have below : root.descendants = Node.preorderAll root.children :=
    Node.visit_eq_preorder_all root.children
  have parsed : parse "x:\"a \"" = .ok root := rfl
  have exact : ∀ node ∈ root.descendants, node.value.any Value.isDecimal = false := by
    rw [below]
    decide
  have survives := (parse_rewritten_iff_restorable _ root parsed exact).1
  rw [below] at survives
  exact ⟨parsed, fun kept => absurd (survives.mp kept) (by decide)⟩

/-- Not every script that is read survives being written and read again. -/
theorem not_every_read_script_survives :
    ¬ ∀ (source : String) (root : Node), parse source = .ok root →
      (∀ node ∈ root.descendants, node.value.any Value.isDecimal = false) →
      parse (String.join (root.children.map Node.toText)) = .ok root := by
  intro survives
  have exact : ∀ node ∈ ({ name := "", children := [Node.ofText "x" "a "] } : Node).descendants,
      node.value.any Value.isDecimal = false := by
    rw [Node.descendants, Node.visit_eq_preorder_all]
    decide
  have kept := survives "x:\"a \"" { name := "", children := [Node.ofText "x" "a "] } rfl exact
  have lost : parse (String.join ([Node.ofText "x" "a "].map Node.toText)) =
      .ok { name := "", children := [Node.ofText "x" "a"] } := rfl
  rw [lost] at kept
  simp [Node.ofText, Node.ofValue] at kept

end RouteManifest.Script
