import RouteManifest.Script.Outline

/-!
A forest and its outline determine each other. An outline that is well nested grows into
a forest with this outline, and every forest grows back from its own outline.
-/

namespace RouteManifest.Script

namespace WellNested

theorem mono {low high : Nat} {entries : List OutlineEntry} (le : low ≤ high)
    (nested : WellNested low entries) : WellNested high entries := by
  cases entries with
  | nil => trivial
  | cons entry rest => exact ⟨Nat.le_trans nested.1 le, nested.2⟩

end WellNested

mutual
theorem Node.outline_well_nested {depth level : Nat} (node : Node) {more : List OutlineEntry}
    (le : depth ≤ level) (later : WellNested (depth + 1) more) :
    WellNested level (node.outline depth ++ more) := by
  obtain ⟨name, value, children⟩ := node
  rw [Node.outline, List.cons_append]
  exact ⟨le, Node.outline_all_well_nested children (Nat.le_refl _) later
    (later.mono (Nat.le_succ _))⟩
theorem Node.outline_all_well_nested {depth level : Nat} (nodes : List Node)
    {more : List OutlineEntry} (le : depth ≤ level) (later : WellNested level more)
    (deeper : WellNested (depth + 1) more) :
    WellNested level (Node.outlineAll depth nodes ++ more) := by
  cases nodes with
  | nil => exact later
  | cons node rest =>
      rw [Node.outlineAll, List.append_assoc]
      exact Node.outline_well_nested node le
        (Node.outline_all_well_nested rest (Nat.le_succ _) deeper deeper)
end

theorem outline_all_nested (nodes : List Node) : WellNested 0 (Node.outlineAll 0 nodes) := by
  have start : WellNested 0 (Node.outlineAll 0 nodes ++ []) :=
    Node.outline_all_well_nested nodes (Nat.le_refl 0) trivial trivial
  simpa using start

theorem map_node_mk (depth : Nat) (nodes : List Node) :
    (nodes.map (Growth.mk depth)).map Growth.node = nodes := by
  simp [Function.comp_def]

theorem grow_entry_children {depth : Nat} {label : Label} {children : List Node}
    {grown : List Growth} (shallow : ∀ growth ∈ grown.head?, growth.depth ≤ depth) :
    growEntry ⟨depth, label⟩ (children.map (Growth.mk (depth + 1)) ++ grown) =
      ⟨depth, label.name, label.value, children⟩ :: grown := by
  have stops : grown.takeWhile (fun growth => decide (depth < growth.depth)) = [] ∧
      grown.dropWhile (fun growth => decide (depth < growth.depth)) = grown := by
    cases grown with
    | nil => exact ⟨rfl, rfl⟩
    | cons growth rest =>
        have notDeeper : ¬ depth < growth.depth := Nat.not_lt.mpr (shallow growth (by simp))
        simp [notDeeper]
  have taken : ∀ growth ∈ children.map (Growth.mk (depth + 1)),
      decide (depth < growth.depth) = true := by
    intro growth member
    obtain ⟨child, _, rfl⟩ := List.mem_map.mp member
    simp
  simp only [growEntry]
  rw [List.takeWhile_append_of_pos taken, List.dropWhile_append_of_pos taken, stops.1, stops.2,
    List.append_nil, map_node_mk]

mutual
theorem Node.grow_outline {depth : Nat} (node : Node) {grown : List Growth}
    (shallow : ∀ growth ∈ grown.head?, growth.depth ≤ depth) :
    (node.outline depth).foldr growEntry grown = ⟨depth, node⟩ :: grown := by
  obtain ⟨name, value, children⟩ := node
  have below : ∀ growth ∈ grown.head?, growth.depth ≤ depth + 1 :=
    fun growth member => Nat.le_trans (shallow growth member) (Nat.le_succ _)
  rw [Node.outline, List.foldr_cons, Node.grow_outline_all children below]
  exact grow_entry_children shallow
theorem Node.grow_outline_all {depth : Nat} (nodes : List Node) {grown : List Growth}
    (shallow : ∀ growth ∈ grown.head?, growth.depth ≤ depth) :
    (Node.outlineAll depth nodes).foldr growEntry grown =
      nodes.map (Growth.mk depth) ++ grown := by
  cases nodes with
  | nil => rfl
  | cons node rest =>
      have first : ∀ growth ∈ (rest.map (Growth.mk depth) ++ grown).head?,
          growth.depth ≤ depth := by
        cases rest with
        | nil => simpa using shallow
        | cons other rest => simp
      rw [Node.outlineAll, List.foldr_append, Node.grow_outline_all rest shallow,
        Node.grow_outline node first]
      rfl
end

/-- Every forest grows back from its outline. -/
theorem grow_outline_all (nodes : List Node) : grow (Node.outlineAll 0 nodes) = nodes := by
  rw [grow, Node.grow_outline_all nodes (by simp), List.append_nil, map_node_mk]

def Growth.outline (growth : Growth) : List OutlineEntry := growth.node.outline growth.depth

theorem outline_all_of_depth {depth : Nat} {grown : List Growth}
    (level : ∀ growth ∈ grown, growth.depth = depth) :
    Node.outlineAll depth (grown.map Growth.node) = grown.flatMap Growth.outline := by
  induction grown with
  | nil => rfl
  | cons growth rest induction =>
      have first := level growth List.mem_cons_self
      have later := induction fun other member => level other (List.mem_cons_of_mem _ member)
      rw [List.map_cons, Node.outlineAll, later, List.flatMap_cons, Growth.outline, first]

theorem depth_of_taken {depth : Nat} {grown : List Growth} {growth : Growth}
    (bounded : ∀ growth ∈ grown, growth.depth ≤ depth + 1)
    (member : growth ∈ grown.takeWhile fun growth => decide (depth < growth.depth)) :
    growth.depth = depth + 1 := by
  have below : depth < growth.depth := by
    simpa using List.all_eq_true.mp List.all_takeWhile growth member
  have above := bounded growth (List.takeWhile_subset _ member)
  omega

theorem depth_of_left {depth : Nat} {grown : List Growth} {growth : Growth}
    (first : growth ∈ (grown.dropWhile fun growth => decide (depth < growth.depth)).head?) :
    growth.depth ≤ depth := by
  have stops := List.head?_dropWhile_not (fun growth => decide (depth < growth.depth)) grown
  rw [first] at stops
  simpa using stops

/-- Growths never get deeper from first to last. -/
theorem grown_descends (entries : List OutlineEntry) :
    (entries.foldr growEntry []).Pairwise fun left right => right.depth ≤ left.depth := by
  induction entries with
  | nil => exact List.Pairwise.nil
  | cons entry rest induction =>
      rw [List.foldr_cons, growEntry]
      have remains := induction.sublist
        (List.dropWhile_sublist fun growth => decide (entry.depth < growth.depth))
      apply List.Pairwise.cons _ remains
      have left (growth : Growth) := @depth_of_left entry.depth (rest.foldr growEntry []) growth
      generalize (rest.foldr growEntry []).dropWhile
        (fun growth => decide (entry.depth < growth.depth)) = kept at remains left ⊢
      intro growth member
      cases kept with
      | nil => simp at member
      | cons first others =>
          have shallow : first.depth ≤ entry.depth := left first rfl
          rcases List.mem_cons.mp member with rfl | later
          · exact shallow
          · exact Nat.le_trans ((List.pairwise_cons.mp remains).1 growth later) shallow

theorem grown_depth_le {level : Nat} {entries : List OutlineEntry}
    (nested : WellNested level entries) :
    ∀ growth ∈ entries.foldr growEntry [], growth.depth ≤ level := by
  intro growth member
  have descends := grown_descends entries
  cases entries with
  | nil => simp at member
  | cons entry rest =>
      rw [List.foldr_cons, growEntry] at member descends
      rcases List.mem_cons.mp member with rfl | later
      · exact nested.1
      · exact Nat.le_trans ((List.pairwise_cons.mp descends).1 growth later) nested.1

theorem outline_grown {level : Nat} {entries : List OutlineEntry}
    (nested : WellNested level entries) :
    (entries.foldr growEntry []).flatMap Growth.outline = entries := by
  induction entries generalizing level with
  | nil => rfl
  | cons entry rest induction =>
      have later := induction nested.2
      have bounded := grown_depth_le nested.2
      rw [List.foldr_cons, growEntry]
      generalize rest.foldr growEntry [] = grown at later bounded ⊢
      let deeper (growth : Growth) : Bool := decide (entry.depth < growth.depth)
      have children : ∀ growth ∈ grown.takeWhile deeper, growth.depth = entry.depth + 1 :=
        fun growth member => depth_of_taken bounded member
      have split : (grown.takeWhile deeper).flatMap Growth.outline ++
          (grown.dropWhile deeper).flatMap Growth.outline = rest := by
        rw [← List.flatMap_append, List.takeWhile_append_dropWhile, later]
      rw [List.flatMap_cons, Growth.outline, Node.outline, List.cons_append,
        outline_all_of_depth children, split]

/-- A well nested outline is the outline of what grows from it. -/
theorem outline_all_grow {entries : List OutlineEntry} (nested : WellNested 0 entries) :
    Node.outlineAll 0 (grow entries) = entries := by
  have top : ∀ growth ∈ entries.foldr growEntry [], growth.depth = 0 :=
    fun growth member => Nat.le_zero.mp (grown_depth_le nested growth member)
  rw [grow, outline_all_of_depth top, outline_grown nested]

end RouteManifest.Script
