import RouteManifest.Script.Node
import RouteManifest.Script.Label

/-!
The outline of a script: the labels of its nodes in pre-order, each with its
depth. A forest has an outline, and an outline whose depths rise by at most one
step at a time grows back into the forest. Growing works from the last entry to
the first: an entry takes the deeper trees that follow it as its children.
-/

namespace RouteManifest.Script

structure OutlineEntry where
  depth : Nat
  label : Label
deriving DecidableEq, Repr

mutual
def Node.outline (depth : Nat) : Node → List OutlineEntry
  | ⟨name, value, children⟩ => ⟨depth, ⟨name, value⟩⟩ :: Node.outlineAll (depth + 1) children
def Node.outlineAll (depth : Nat) : List Node → List OutlineEntry
  | [] => []
  | node :: rest => node.outline depth ++ Node.outlineAll depth rest
end

/-- A tree with the depth of its topmost node. -/
structure Growth where
  depth : Nat
  node : Node

/-- Puts an entry in front of the trees grown from the entries behind it. -/
def growEntry (entry : OutlineEntry) (grown : List Growth) : List Growth :=
  let deeper (growth : Growth) : Bool := entry.depth < growth.depth
  let children := (grown.takeWhile deeper).map Growth.node
  ⟨entry.depth, entry.label.name, entry.label.value, children⟩ :: grown.dropWhile deeper

def grow (entries : List OutlineEntry) : List Node :=
  (entries.foldr growEntry []).map Growth.node

/-- The depth starts at most at the given level and rises by at most one from entry to entry. -/
def WellNested (level : Nat) : List OutlineEntry → Prop
  | [] => True
  | entry :: rest => entry.depth ≤ level ∧ WellNested (entry.depth + 1) rest

end RouteManifest.Script
