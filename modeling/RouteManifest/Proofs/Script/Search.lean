import Mathlib.Logic.Relation
import RouteManifest.Proofs.Script.Preorder

/-!
What the searches in a script find. The first and the last of some nodes are told by the nodes
around them: no other that is accepted stands in front of the first or behind the last. The
nodes below a node are those that a way from parent to child leads to, and searching with an
agenda meets all of them.
-/

namespace RouteManifest.Script

/-- A node is the first one of a list that is accepted. -/
structure IsFirst (accepts : Node → Prop) (nodes : List Node) (node : Node) : Prop where
  accepted : accepts node
  placed : ∃ front back, nodes = front ++ node :: back ∧ ∀ other ∈ front, ¬ accepts other

/-- A node is the last one of a list that is accepted. -/
structure IsLast (accepts : Node → Prop) (nodes : List Node) (node : Node) : Prop where
  accepted : accepts node
  placed : ∃ front back, nodes = front ++ node :: back ∧ ∀ other ∈ back, ¬ accepts other

section Lists

variable {accepts : Node → Prop} {accept : Node → Bool} {nodes : List Node} {node : Node}

theorem find_eq_some_iff (decides : ∀ other, accept other = true ↔ accepts other) :
    nodes.find? accept = some node ↔ IsFirst accepts nodes node := by
  rw [List.find?_eq_some_iff_append, decides]
  constructor
  · intro found
    have placed := found.2
    simp only [Bool.not_eq_true', ← Bool.not_eq_true, decides] at placed
    exact ⟨found.1, placed⟩
  · intro first
    have placed := first.placed
    simp only [← decides, Bool.not_eq_true, ← Bool.not_eq_true'] at placed
    exact ⟨first.accepted, placed⟩

theorem find_eq_none_iff (decides : ∀ other, accept other = true ↔ accepts other) :
    nodes.find? accept = none ↔ ∀ other ∈ nodes, ¬ accepts other := by
  simp only [List.find?_eq_none, decides]

theorem IsFirst.mem (first : IsFirst accepts nodes node) : node ∈ nodes := by
  obtain ⟨front, back, split, -⟩ := first.placed
  rw [split]
  exact List.mem_append_right front List.mem_cons_self

theorem is_first_reverse_iff : IsFirst accepts nodes.reverse node ↔ IsLast accepts nodes node := by
  constructor
  · intro first
    obtain ⟨front, back, split, others⟩ := first.placed
    have same : nodes = back.reverse ++ node :: front.reverse := by
      rw [← List.reverse_reverse nodes, split]
      simp
    exact ⟨first.accepted, back.reverse, front.reverse, same, by simpa using others⟩
  · intro last
    obtain ⟨front, back, split, others⟩ := last.placed
    have same : nodes.reverse = back.reverse ++ node :: front.reverse := by
      rw [split]
      simp
    exact ⟨last.accepted, back.reverse, front.reverse, same, by simpa using others⟩

end Lists

namespace Node

variable {accepts : Node → Prop} {accept : Node → Bool} {name : String} {node child : Node}

theorem is_named_iff : isNamed name node = true ↔ node.name = name := beq_iff_eq

theorem child_eq_some_iff :
    node.child? name = some child ↔ IsFirst (fun other => other.name = name) node.children child :=
  find_eq_some_iff fun _ => is_named_iff

theorem child_eq_none_iff :
    node.child? name = none ↔ ∀ other ∈ node.children, other.name ≠ name :=
  find_eq_none_iff fun _ => is_named_iff

theorem has_child_iff : node.hasChild name = true ↔ ∃ other ∈ node.children, other.name = name := by
  rw [hasChild, Option.isSome_iff_ne_none, Ne, child_eq_none_iff]
  simp

theorem last_child_eq_some_iff (decides : ∀ other, accept other = true ↔ accepts other) :
    node.lastChildWhere? accept = some child ↔ IsLast accepts node.children child := by
  rw [lastChildWhere?, find_eq_some_iff decides, is_first_reverse_iff]

def IsParent (parent child : Node) : Prop := child ∈ parent.children

/-- A way from parent to child leads down from one node to another. -/
def HasBelow : Node → Node → Prop := Relation.TransGen IsParent

mutual
theorem mem_preorder_iff (node below : Node) :
    below ∈ node.preorder ↔ Relation.ReflTransGen IsParent node below := by
  obtain ⟨name, value, children⟩ := node
  rw [preorder, List.mem_cons, mem_preorder_all_iff children below,
    Relation.ReflTransGen.cases_head_iff, eq_comm]
  rfl
theorem mem_preorder_all_iff (nodes : List Node) (below : Node) :
    below ∈ preorderAll nodes ↔ ∃ node ∈ nodes, Relation.ReflTransGen IsParent node below := by
  cases nodes with
  | nil => simp [preorderAll]
  | cons node rest =>
      rw [preorderAll, List.mem_append, mem_preorder_iff node below,
        mem_preorder_all_iff rest below]
      simp
end

theorem mem_descendants_iff {below : Node} : below ∈ node.descendants ↔ node.HasBelow below := by
  rw [descendants, visit_eq_preorder_all, mem_preorder_all_iff, HasBelow,
    Relation.TransGen.head'_iff]
  rfl

end Node

end RouteManifest.Script
