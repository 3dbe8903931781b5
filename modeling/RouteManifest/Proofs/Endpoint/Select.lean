import RouteManifest.Proofs.Endpoint.Decision
import RouteManifest.Proofs.Script.Traversal

/-!
Which node is taken for the select of a raw query. The connection is the last node of the script
that opens one, and the select is the last node below it, in pre-order, whose name has the suffix
of a select. Going through the nodes below a node with a stack gives that order.
-/

namespace RouteManifest

open RouteManifest.Script

def IsSelect (vocabulary : Vocabulary) (node : Node) : Prop :=
  vocabulary.selectSuffix.toList <:+ node.name.toList

def IsConnection (script : Node) (vocabulary : Vocabulary) (node : Node) : Prop :=
  IsLast (fun other => other.name ∈ vocabulary.sqlConnects) script.children node

section Queries

variable {script : Node} {vocabulary : Vocabulary} {pattern : Pattern}

/-- A raw query is recognised by its connection and its select, and marked as the script is. -/
theorem match_raw_query_iff :
    matchRawQuery? script vocabulary = some pattern ↔
      ∃ connection select, IsConnection script vocabulary connection ∧
        IsLast (IsSelect vocabulary) connection.descendants select ∧
        pattern = .rawQuery select (marksStatistics script vocabulary) := by
  have decides (other : Node) :
      endsWith vocabulary.selectSuffix other.name = true ↔ IsSelect vocabulary other :=
    ends_with_iff
  simp only [matchRawQuery?, Option.bind_eq_bind, Option.bind_eq_some_iff,
    Node.last_child_eq_some_iff fun _ => is_sql_connect_iff, find_eq_some_iff decides,
    is_first_reverse_iff, Option.pure_def, Option.some.injEq]
  constructor
  · rintro ⟨connection, last, select, found, shape⟩
    exact ⟨connection, select, last, found, shape.symm⟩
  · rintro ⟨connection, select, last, found, shape⟩
    exact ⟨connection, last, select, found, shape.symm⟩

theorem match_raw_query_select_iff {select : Node} :
    (∃ statistics, matchRawQuery? script vocabulary = some (.rawQuery select statistics)) ↔
      ∃ connection, IsConnection script vocabulary connection ∧
        IsLast (IsSelect vocabulary) connection.descendants select := by
  constructor
  · rintro ⟨statistics, found⟩
    obtain ⟨connection, other, last, listed, same⟩ := match_raw_query_iff.mp found
    obtain ⟨rfl, -⟩ := Pattern.rawQuery.inj same
    exact ⟨connection, last, listed⟩
  · rintro ⟨connection, last, listed⟩
    exact ⟨_, match_raw_query_iff.mpr ⟨connection, select, last, listed, rfl⟩⟩

end Queries

/-- The nodes below a node stand in pre-order: every child is followed by what is below it. Step
by step a traversal meets them in this order, and it ends behind the last one. They stand at all
ways that lead down from the node, at each of them once, and the node itself is none of them. The
select of a raw query is the last one below its connection, and there is one as soon as there is
one at any depth. -/
theorem select_last_in_preorder (script node : Node) (vocabulary : Vocabulary) :
    (node.descendants = node.children.flatMap fun child => child :: child.descendants) ∧
    (∀ steps, (Traversal.step^[steps] (.start node)).met = node.descendants.take steps ∧
      ((Traversal.step^[steps] (.start node)).stack = [] ↔ node.descendants.length ≤ steps)) ∧
    (∃ ways : List (List Nat), ways.Pairwise (· < ·) ∧
      (∀ way, way ∈ ways ↔ way ≠ [] ∧ (node.at? way).isSome = true) ∧
      ways.map node.at? = node.descendants.map some) ∧
    node ∉ node.descendants ∧
    (∀ select,
      (∃ statistics, matchRawQuery? script vocabulary = some (.rawQuery select statistics)) ↔
        ∃ connection, IsConnection script vocabulary connection ∧
          IsLast (IsSelect vocabulary) connection.descendants select) ∧
    ((∃ pattern, matchRawQuery? script vocabulary = some pattern) ↔
      ∃ connection, IsConnection script vocabulary connection ∧
        ∃ below, connection.HasBelow below ∧ IsSelect vocabulary below) := by
  refine ⟨node.descendants_eq_flat_map, Traversal.steps_from_start node, node.ways_below,
    node.not_mem_descendants_self, fun select => match_raw_query_select_iff, ?_⟩
  rw [← Option.isSome_iff_exists, match_raw_query_is_some_iff]
  rfl

end RouteManifest
