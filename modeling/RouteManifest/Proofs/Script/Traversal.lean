import Mathlib.Logic.Function.Iterate
import RouteManifest.Proofs.Script.Search

/-!
The nodes below a node, counted out in two ways. A traversal takes the topmost node from a stack
and puts the children of that node there, the last one first. With every step it meets one more
node in pre-order, and it ends behind the last of them. A way down from a node is the list of the
numbers of the children to take, and the ways from a node stand in pre-order when they are sorted.
So each place below a node is met once, whatever nodes stand there.
-/

namespace RouteManifest.Script

/-- The nodes that a traversal has met, and those on its stack, the topmost one last. -/
structure Traversal where
  met : List Node := []
  stack : List Node

namespace Traversal

def start (node : Node) : Traversal := { stack := node.children.reverse }

/-- Meets the topmost node and puts its children on the stack, the last one first. With nothing
on its stack a traversal has ended. -/
def step (traversal : Traversal) : Traversal :=
  match traversal.stack.getLast? with
  | none => traversal
  | some node =>
      { met := traversal.met ++ [node]
        stack := traversal.stack.dropLast ++ node.children.reverse }

/-- The nodes that are still to be met. -/
def pending (traversal : Traversal) : List Node := Node.visit traversal.stack.reverse

variable (traversal : Traversal)

theorem pending_eq_nil_iff : traversal.pending = [] ↔ traversal.stack = [] := by
  have empty : traversal.stack.reverse = [] ↔ traversal.stack = [] := List.reverse_eq_nil_iff
  rw [pending, ← empty]
  generalize traversal.stack.reverse = agenda
  cases agenda with
  | nil => simp [Node.visit]
  | cons node agenda => simp [Node.visit]

theorem step_moves :
    traversal.step.met = traversal.met ++ traversal.pending.take 1 ∧
      traversal.step.pending = traversal.pending.drop 1 := by
  obtain ⟨met, stack⟩ := traversal
  rcases List.eq_nil_or_concat stack with rfl | ⟨deeper, node, rfl⟩
  · simp [step, pending, Node.visit]
  · simp [step, pending, Node.visit]

theorem steps_move (steps : Nat) :
    (step^[steps] traversal).met = traversal.met ++ traversal.pending.take steps ∧
      (step^[steps] traversal).pending = traversal.pending.drop steps := by
  induction steps generalizing traversal with
  | zero => simp
  | succ steps induction =>
      obtain ⟨met, pending⟩ := traversal.step_moves
      obtain ⟨metLater, pendingLater⟩ := induction traversal.step
      rw [Function.iterate_succ_apply, metLater, pendingLater, met, pending, List.append_assoc,
        ← List.take_add, List.drop_drop, Nat.add_comm 1 steps]
      exact ⟨rfl, rfl⟩

/-- A traversal of what is below a node meets the descendants one by one, and ends when it has
met them all. -/
theorem steps_from_start (node : Node) (steps : Nat) :
    (step^[steps] (start node)).met = node.descendants.take steps ∧
      ((step^[steps] (start node)).stack = [] ↔ node.descendants.length ≤ steps) := by
  have all : (start node).pending = node.descendants := by
    rw [pending, start, List.reverse_reverse, Node.descendants]
  obtain ⟨met, pending⟩ := (start node).steps_move steps
  rw [all] at met pending
  exact ⟨met, by rw [← pending_eq_nil_iff, pending, List.drop_eq_nil_iff]⟩

end Traversal

namespace Node

variable {node : Node}

theorem descendants_eq (node : Node) : node.descendants = preorderAll node.children :=
  visit_eq_preorder_all node.children

theorem preorder_all_eq_flat_map (nodes : List Node) :
    preorderAll nodes = nodes.flatMap fun node => node :: node.descendants := by
  induction nodes with
  | nil => rfl
  | cons node rest induction =>
      rw [preorderAll, induction, List.flatMap_cons, preorder_eq, descendants_eq]

theorem descendants_eq_flat_map (node : Node) :
    node.descendants = node.children.flatMap fun child => child :: child.descendants := by
  rw [descendants_eq, preorder_all_eq_flat_map]

def at? : Node → List Nat → Option Node
  | node, [] => some node
  | node, number :: way => node.children[number]?.bind fun child => child.at? way

mutual
/-- All ways down from a node, the one that stays there first. -/
def ways : Node → List (List Nat)
  | ⟨_, _, children⟩ => [] :: waysInto 0 children
def waysInto (number : Nat) : List Node → List (List Nat)
  | [] => []
  | node :: rest => node.ways.map (number :: ·) ++ waysInto (number + 1) rest
end

theorem ways_eq (node : Node) : node.ways = [] :: waysInto 0 node.children := by
  cases node
  rw [ways]

mutual
theorem ways_lead (node : Node) : node.ways.map node.at? = node.preorder.map some := by
  obtain ⟨name, value, children⟩ := node
  rw [ways, preorder, List.map_cons, List.map_cons]
  exact congrArg _ (ways_into_lead ⟨name, value, children⟩ [] children rfl)
theorem ways_into_lead (parent : Node) (front nodes : List Node)
    (split : parent.children = front ++ nodes) :
    (waysInto front.length nodes).map parent.at? = (preorderAll nodes).map some := by
  cases nodes with
  | nil => rfl
  | cons node rest =>
      have first : (node.ways.map (front.length :: ·)).map parent.at? = node.ways.map node.at? := by
        rw [List.map_map]
        apply List.map_congr_left
        intro way _
        simp [at?, split]
      have others := ways_into_lead parent (front ++ [node]) rest (by simp [split])
      rw [List.length_append, List.length_singleton] at others
      rw [waysInto, preorderAll, List.map_append, List.map_append, first, others, ways_lead node]
end

theorem starts_of_mem_ways_into {number : Nat} {nodes : List Node} {way : List Nat}
    (member : way ∈ waysInto number nodes) : ∃ later rest, way = later :: rest ∧ number ≤ later := by
  induction nodes generalizing number with
  | nil => cases member
  | cons node rest induction =>
      rw [waysInto, List.mem_append, List.mem_map] at member
      rcases member with ⟨inner, -, rfl⟩ | later
      · exact ⟨number, inner, rfl, Nat.le_refl _⟩
      · obtain ⟨other, inner, rfl, le⟩ := induction later
        exact ⟨other, inner, rfl, Nat.le_of_succ_le le⟩

mutual
/-- A way comes before those that go on from it, and a way to an earlier child before those to
later ones. -/
theorem ways_sorted (node : Node) : node.ways.Pairwise (· < ·) := by
  obtain ⟨name, value, children⟩ := node
  rw [ways, List.pairwise_cons]
  refine ⟨?_, ways_into_sorted 0 children⟩
  intro way member
  obtain ⟨later, rest, rfl, -⟩ := starts_of_mem_ways_into member
  exact List.nil_lt_cons later rest
theorem ways_into_sorted (number : Nat) (nodes : List Node) :
    (waysInto number nodes).Pairwise (· < ·) := by
  cases nodes with
  | nil => exact .nil
  | cons node rest =>
      rw [waysInto, List.pairwise_append, List.pairwise_map]
      refine ⟨?_, ways_into_sorted (number + 1) rest, ?_⟩
      · exact (ways_sorted node).imp fun before => List.cons_lt_cons_iff.mpr (.inr ⟨rfl, before⟩)
      · intro first inFirst second inSecond
        obtain ⟨way, -, rfl⟩ := List.mem_map.mp inFirst
        obtain ⟨later, rest, rfl, le⟩ := starts_of_mem_ways_into inSecond
        exact List.cons_lt_cons_iff.mpr (.inl (Nat.lt_of_succ_le le))
end

theorem mem_ways_into {index : Nat} {nodes : List Node} {child : Node} {way : List Nat}
    (number : Nat) (taken : nodes[index]? = some child) (inner : way ∈ child.ways) :
    (number + index) :: way ∈ waysInto number nodes := by
  induction nodes generalizing number index with
  | nil => simp at taken
  | cons node rest induction =>
      rw [waysInto, List.mem_append]
      cases index with
      | zero =>
          obtain rfl : node = child := by simpa using taken
          exact .inl (List.mem_map_of_mem inner)
      | succ index =>
          have later := induction (number + 1) (by simpa using taken)
          rw [Nat.add_right_comm, Nat.add_assoc] at later
          exact .inr later

theorem mem_ways_iff {way : List Nat} : way ∈ node.ways ↔ (node.at? way).isSome = true := by
  constructor
  · intro member
    have leads : node.at? way ∈ node.preorder.map some := by
      rw [← ways_lead]
      exact List.mem_map_of_mem member
    obtain ⟨other, -, same⟩ := List.mem_map.mp leads
    rw [← same]
    rfl
  · intro leads
    induction way generalizing node with
    | nil =>
        rw [ways_eq]
        exact List.mem_cons_self
    | cons index way induction =>
        obtain ⟨reached, leads⟩ := Option.isSome_iff_exists.mp leads
        obtain ⟨child, taken, inner⟩ := Option.bind_eq_some_iff.mp leads
        have listed := mem_ways_into 0 taken
          (induction (Option.isSome_iff_exists.mpr ⟨reached, inner⟩))
        rw [Nat.zero_add] at listed
        rw [ways_eq]
        exact List.mem_cons_of_mem _ listed

/-- The ways below a node are sorted, and lead to its descendants one by one. -/
theorem ways_below (node : Node) :
    ∃ ways : List (List Nat),
      ways.Pairwise (· < ·) ∧
      (∀ way, way ∈ ways ↔ way ≠ [] ∧ (node.at? way).isSome = true) ∧
      ways.map node.at? = node.descendants.map some := by
  have sorted := ways_sorted node
  rw [ways_eq] at sorted
  refine ⟨waysInto 0 node.children, sorted.of_cons, ?_, ?_⟩
  · intro way
    rw [← mem_ways_iff, ways_eq, List.mem_cons]
    constructor
    · intro member
      obtain ⟨later, rest, rfl, -⟩ := starts_of_mem_ways_into member
      exact ⟨List.cons_ne_nil later rest, .inr member⟩
    · rintro ⟨some, listed⟩
      exact listed.resolve_left some
  · rw [descendants_eq]
    exact ways_into_lead node [] node.children rfl

theorem size_lt_of_below {below : Node} (leads : node.HasBelow below) :
    sizeOf below < sizeOf node := by
  have child_lt {parent child : Node} (inside : parent.IsParent child) :
      sizeOf child < sizeOf parent := by
    obtain ⟨name, value, children⟩ := parent
    have lt : sizeOf child < sizeOf children := List.sizeOf_lt_of_mem inside
    rw [Node.mk.sizeOf_spec]
    omega
  induction leads with
  | single inside => exact child_lt inside
  | tail _ inside induction => exact Nat.lt_trans (child_lt inside) induction

theorem not_mem_descendants_self (node : Node) : node ∉ node.descendants := by
  intro member
  exact Nat.lt_irrefl _ (size_lt_of_below (mem_descendants_iff.mp member))

end Node

end RouteManifest.Script
