import RouteManifest.Script.Value

/-!
A script is a tree of named nodes, each with an optional value and its children
in order. Besides the look-ups by name, this module gives the nodes below a node
in pre-order twice: with an agenda of nodes still to visit, which is how the tree
is searched, and by recursion on the tree.
-/

namespace RouteManifest.Script

structure Node where
  name : String
  value : Option Value := none
  children : List Node := []
deriving Repr, Inhabited

namespace Node

def ofValue (name : String) (value : Value) : Node := { name, value := some value }

def ofText (name text : String) : Node := ofValue name (.string text)

def push (node child : Node) : Node := { node with children := node.children ++ [child] }

def isNamed (name : String) (node : Node) : Bool := node.name == name

def child? (node : Node) (name : String) : Option Node := node.children.find? (isNamed name)

def lastChildWhere? (node : Node) (accept : Node → Bool) : Option Node :=
  node.children.reverse.find? accept

def lastChild? (node : Node) (name : String) : Option Node := node.lastChildWhere? (isNamed name)

def hasChild (node : Node) (name : String) : Bool := (node.child? name).isSome

def string? (node : Node) : Option String := node.value.bind Value.string?

/-- Visits the first node of the agenda and puts its children in front of the rest. -/
def visit : List Node → List Node
  | [] => []
  | node :: agenda => node :: visit (node.children ++ agenda)
termination_by agenda => sizeOf agenda
decreasing_by
  have append : ∀ first second : List Node,
      sizeOf (first ++ second) + 1 = sizeOf first + sizeOf second := by
    intro first second
    induction first with
    | nil => simp; omega
    | cons head tail induction => simp only [List.cons_append, List.cons.sizeOf_spec]; omega
  have := append node.children agenda
  obtain ⟨name, value, children⟩ := node
  simp only [List.cons.sizeOf_spec, Node.mk.sizeOf_spec] at this ⊢
  omega

def descendants (node : Node) : List Node := visit node.children

mutual
/-- The node itself, then everything below it. -/
def preorder : Node → List Node
  | ⟨name, value, children⟩ => ⟨name, value, children⟩ :: preorderAll children
def preorderAll : List Node → List Node
  | [] => []
  | node :: rest => node.preorder ++ preorderAll rest
end

mutual
def agrees : Node → Node → Bool
  | ⟨leftName, leftValue, leftChildren⟩, ⟨rightName, rightValue, rightChildren⟩ =>
      leftName == rightName &&
        (match leftValue, rightValue with
          | none, none => true
          | some left, some right => left.agrees right
          | _, _ => false) &&
        agreeAll leftChildren rightChildren
def agreeAll : List Node → List Node → Bool
  | [], [] => true
  | left :: lefts, right :: rights => left.agrees right && agreeAll lefts rights
  | _, _ => false
end

end Node

end RouteManifest.Script
