import RouteManifest.Script.Outline

/-!
The nodes below a node in pre-order. Searching with an agenda and recursion on the tree
visit the same nodes, and the labels they meet are those of the outline.
-/

namespace RouteManifest.Script

namespace Node

def label (node : Node) : Label := ⟨node.name, node.value⟩

theorem preorder_eq (node : Node) : node.preorder = node :: preorderAll node.children := by
  cases node
  rw [preorder]

theorem preorder_all_append (front back : List Node) :
    preorderAll (front ++ back) = preorderAll front ++ preorderAll back := by
  induction front with
  | nil => rfl
  | cons node front induction =>
      rw [List.cons_append, preorderAll, preorderAll, induction, List.append_assoc]

theorem visit_eq_preorder_all (agenda : List Node) : visit agenda = preorderAll agenda := by
  fun_induction visit agenda with
  | case1 => rfl
  | case2 node agenda induction =>
      rw [induction, preorder_all_append, preorderAll, preorder_eq, List.cons_append]

mutual
theorem preorder_labels (depth : Nat) (node : Node) :
    node.preorder.map label = (node.outline depth).map OutlineEntry.label := by
  obtain ⟨name, value, children⟩ := node
  rw [preorder, outline, List.map_cons, List.map_cons, preorder_all_labels (depth + 1) children]
  rfl
theorem preorder_all_labels (depth : Nat) (nodes : List Node) :
    (preorderAll nodes).map label = (outlineAll depth nodes).map OutlineEntry.label := by
  cases nodes with
  | nil => rfl
  | cons node rest =>
      rw [preorderAll, outlineAll, List.map_append, List.map_append, preorder_labels depth node,
        preorder_all_labels depth rest]
end

/-- What holds for the labels below a node can be said of its outline. -/
theorem forall_descendants_iff {holds : Label → Prop} (root : Node) :
    (∀ node ∈ root.descendants, holds node.label) ↔
      ∀ entry ∈ outlineAll 0 root.children, holds entry.label := by
  have labels := preorder_all_labels 0 root.children
  constructor
  · intro all entry member
    have listed : entry.label ∈ (preorderAll root.children).map label := by
      rw [labels]
      exact List.mem_map_of_mem member
    obtain ⟨node, below, same⟩ := List.mem_map.mp listed
    rw [← same]
    exact all node (by rwa [descendants, visit_eq_preorder_all])
  · intro all node member
    rw [descendants, visit_eq_preorder_all] at member
    have listed : node.label ∈ (outlineAll 0 root.children).map OutlineEntry.label := by
      rw [← labels]
      exact List.mem_map_of_mem member
    obtain ⟨entry, inside, same⟩ := List.mem_map.mp listed
    rw [← same]
    exact all entry inside

end Node

end RouteManifest.Script
