import Mathlib.Logic.Relation
import RouteManifest.Endpoint.Describe

/-!
What an endpoint depends on. A script is only looked at through six look-ups by reserved names,
all at its top level, and scripts in which these find the same nodes give the same endpoint. So
a script can be edited away from its reserved instructions, as long and as deeply as one likes,
without a change of its endpoint. The names of a vocabulary may overlap.
-/

namespace RouteManifest

open RouteManifest.Script

/-- The six look-ups in two scripts find the same. -/
structure SameReserved (vocabulary : Vocabulary) (one two : Node) : Prop where
  arguments : one.child? vocabulary.arguments = two.child? vocabulary.arguments
  description : one.child? vocabulary.description = two.child? vocabulary.description
  tickets : one.children.filter (Node.isNamed vocabulary.ticketVerify) =
    two.children.filter (Node.isNamed vocabulary.ticketVerify)
  statistics : one.child? vocabulary.isStatistics = two.child? vocabulary.isStatistics
  slot : (one.lastChildWhere? fun node => vocabulary.isInvokeSlot node.name) =
    two.lastChildWhere? fun node => vocabulary.isInvokeSlot node.name
  connection : (one.lastChildWhere? fun node => vocabulary.isSqlConnect node.name) =
    two.lastChildWhere? fun node => vocabulary.isSqlConnect node.name

namespace SameReserved

variable {vocabulary : Vocabulary} {one two : Node}

theorem declared_input (same : SameReserved vocabulary one two) :
    declaredInput one vocabulary = declaredInput two vocabulary := by
  rw [declaredInput, declaredInput, same.arguments]

theorem declared_roles (same : SameReserved vocabulary one two) :
    declaredRoles one vocabulary = declaredRoles two vocabulary := by
  rw [declaredRoles, declaredRoles, same.tickets]

theorem declared_description (same : SameReserved vocabulary one two) :
    declaredDescription one vocabulary = declaredDescription two vocabulary := by
  rw [declaredDescription, declaredDescription, same.description]

theorem table_wrapper (same : SameReserved vocabulary one two) :
    matchTableWrapper? one vocabulary = matchTableWrapper? two vocabulary := by
  rw [matchTableWrapper?, matchTableWrapper?, same.slot]

theorem raw_query (same : SameReserved vocabulary one two) :
    matchRawQuery? one vocabulary = matchRawQuery? two vocabulary := by
  rw [matchRawQuery?, matchRawQuery?, same.connection, marksStatistics, marksStatistics,
    same.statistics]

theorem classified (same : SameReserved vocabulary one two) (verb : Verb)
    (input : Option (List Field)) :
    classify one verb input vocabulary = classify two verb input vocabulary := by
  have detected : detect? one vocabulary = detect? two vocabulary := by
    rw [detect?, detect?, same.table_wrapper, same.raw_query]
  rw [classify, classify, detected]

theorem described (same : SameReserved vocabulary one two) (path : String) (verb : Verb) :
    describe one path verb vocabulary = describe two path verb vocabulary := by
  simp only [describe, same.declared_input, same.declared_roles, same.declared_description,
    same.classified]

end SameReserved

/-- One of the look-ups can come across a node of this name. -/
def Vocabulary.isReserved (vocabulary : Vocabulary) (name : String) : Bool :=
  name == vocabulary.arguments || name == vocabulary.description ||
    name == vocabulary.ticketVerify || name == vocabulary.isStatistics ||
    vocabulary.isInvokeSlot name || vocabulary.isSqlConnect name

/-- The reserved instructions of a script, in order. -/
def reservedNodes (vocabulary : Vocabulary) (script : Node) : List Node :=
  script.children.filter fun node => vocabulary.isReserved node.name

/-- A change of a script that leaves its reserved instructions alone: it gets another label, or
a node of another name is inserted, removed or moved together with all that is below it. -/
inductive FreeEdit (vocabulary : Vocabulary) : Node → Node → Prop
  | relabel {name other : String} {value otherValue : Option Value} {children : List Node} :
      FreeEdit vocabulary ⟨name, value, children⟩ ⟨other, otherValue, children⟩
  | insert {name : String} {value : Option Value} {front back : List Node} {node : Node}
      (free : vocabulary.isReserved node.name = false) :
      FreeEdit vocabulary ⟨name, value, front ++ back⟩ ⟨name, value, front ++ node :: back⟩
  | remove {name : String} {value : Option Value} {front back : List Node} {node : Node}
      (free : vocabulary.isReserved node.name = false) :
      FreeEdit vocabulary ⟨name, value, front ++ node :: back⟩ ⟨name, value, front ++ back⟩
  | move {name : String} {value : Option Value} {front back before after : List Node} {node : Node}
      (free : vocabulary.isReserved node.name = false) (others : front ++ back = before ++ after) :
      FreeEdit vocabulary ⟨name, value, front ++ node :: back⟩
        ⟨name, value, before ++ node :: after⟩

section Edits

variable {vocabulary : Vocabulary} {one two : Node}

/-- A look-up for some of the reserved names sees nothing but the reserved instructions. -/
theorem find_filter_of_implied {accept keep : Node → Bool}
    (implied : ∀ node, accept node = true → keep node = true) (nodes : List Node) :
    (nodes.filter keep).find? accept = nodes.find? accept := by
  rw [List.find?_filter]
  congr 1
  funext node
  cases accepted : accept node with
  | false => simp
  | true => simp [implied node accepted]

theorem child_of_reserved {name : String} (reserved : vocabulary.isReserved name = true)
    (script : Node) :
    script.child? name = (reservedNodes vocabulary script).find? (Node.isNamed name) := by
  refine (find_filter_of_implied ?_ _).symm
  intro node named
  rwa [beq_iff_eq.mp named]

theorem named_of_reserved {name : String} (reserved : vocabulary.isReserved name = true)
    (script : Node) :
    script.children.filter (Node.isNamed name) =
      (reservedNodes vocabulary script).filter (Node.isNamed name) := by
  rw [reservedNodes, List.filter_filter]
  apply List.filter_congr
  intro node _
  cases named : Node.isNamed name node with
  | false => rfl
  | true => rw [Bool.true_and, beq_iff_eq.mp named, reserved]

theorem last_child_of_reserved {accept : String → Bool}
    (reserved : ∀ name, accept name = true → vocabulary.isReserved name = true) (script : Node) :
    (script.lastChildWhere? fun node => accept node.name) =
      (reservedNodes vocabulary script).reverse.find? fun node => accept node.name := by
  rw [reservedNodes, ← List.filter_reverse]
  exact (find_filter_of_implied (fun node => reserved node.name) _).symm

section SameNodes

variable (same : reservedNodes vocabulary one = reservedNodes vocabulary two)
include same

theorem child_eq_of_nodes {name : String} (reserved : vocabulary.isReserved name = true) :
    one.child? name = two.child? name := by
  rw [child_of_reserved reserved, child_of_reserved reserved, same]

theorem last_child_eq_of_nodes {accept : String → Bool}
    (reserved : ∀ name, accept name = true → vocabulary.isReserved name = true) :
    (one.lastChildWhere? fun node => accept node.name) =
      two.lastChildWhere? fun node => accept node.name := by
  rw [last_child_of_reserved reserved, last_child_of_reserved reserved, same]

theorem same_reserved_of_nodes : SameReserved vocabulary one two where
  arguments := child_eq_of_nodes same (by simp [Vocabulary.isReserved])
  description := child_eq_of_nodes same (by simp [Vocabulary.isReserved])
  tickets := by
    have reserved : vocabulary.isReserved vocabulary.ticketVerify = true := by
      simp [Vocabulary.isReserved]
    rw [named_of_reserved reserved, named_of_reserved reserved, same]
  statistics := child_eq_of_nodes same (by simp [Vocabulary.isReserved])
  slot := by
    apply last_child_eq_of_nodes same
    intro name slot
    simp [Vocabulary.isReserved, slot]
  connection := by
    apply last_child_eq_of_nodes same
    intro name connection
    simp [Vocabulary.isReserved, connection]

end SameNodes

theorem reserved_nodes_free {name : String} {value : Option Value} {front back : List Node}
    {node : Node} (free : vocabulary.isReserved node.name = false) :
    reservedNodes vocabulary ⟨name, value, front ++ node :: back⟩ =
      reservedNodes vocabulary ⟨name, value, front ++ back⟩ := by
  simp [reservedNodes, free]

theorem FreeEdit.reserved_nodes_eq (edit : FreeEdit vocabulary one two) :
    reservedNodes vocabulary one = reservedNodes vocabulary two := by
  cases edit with
  | relabel => rfl
  | insert free => exact (reserved_nodes_free free).symm
  | remove free => exact reserved_nodes_free free
  | move free others => rw [reserved_nodes_free free, reserved_nodes_free free, others]

theorem reserved_nodes_eq_of_edits (edits : Relation.ReflTransGen (FreeEdit vocabulary) one two) :
    reservedNodes vocabulary one = reservedNodes vocabulary two := by
  induction edits with
  | refl => rfl
  | tail _ edit induction => exact induction.trans edit.reserved_nodes_eq

end Edits

/-- Scripts with the same reserved instructions have the same endpoint for every path and verb,
and so have two scripts of which one is got from the other by edits of anything else. -/
theorem describe_determined_by_reserved (vocabulary : Vocabulary) (path : String) (verb : Verb) :
    (∀ one two, SameReserved vocabulary one two →
      describe one path verb vocabulary = describe two path verb vocabulary) ∧
    ∀ one two, Relation.ReflTransGen (FreeEdit vocabulary) one two →
      describe one path verb vocabulary = describe two path verb vocabulary := by
  refine ⟨fun one two same => same.described path verb, fun one two edits => ?_⟩
  exact (same_reserved_of_nodes (reserved_nodes_eq_of_edits edits)).described path verb

def tableScript : Node where
  name := ""
  children := [
    { name := ".arguments", children := [Node.ofText "id.eq" "long"] },
    Node.ofText "auth.ticket.verify" "admin",
    { name := "wait.signal", children := [Node.ofText "database" "shop",
      Node.ofText "table" "items", { name := "columns", children := [{ name := "id" }] }] }]

def logNode : Node := { name := "log.info", children := [Node.ofText ".arguments" "x"] }

def remarkedScript : Node where
  name := "root"
  value := some (.bool true)
  children := logNode :: tableScript.children

def annotatedScript : Node :=
  { remarkedScript with children := remarkedScript.children ++ [Node.ofText ".arguments" "none"] }

theorem describe_annotated_table :
    Relation.ReflTransGen (FreeEdit {}) tableScript remarkedScript ∧
      SameReserved {} remarkedScript annotatedScript ∧
      describe tableScript "shop/items" .get {} = describe annotatedScript "shop/items" .get {} := by
  have relabelled : FreeEdit {} tableScript ⟨"root", some (.bool true), tableScript.children⟩ :=
    .relabel
  have inserted : FreeEdit {} ⟨"root", some (.bool true), [] ++ tableScript.children⟩
      ⟨"root", some (.bool true), [] ++ logNode :: tableScript.children⟩ :=
    .insert rfl
  have edits : Relation.ReflTransGen (FreeEdit {}) tableScript remarkedScript :=
    .tail (.single relabelled) inserted
  have same : SameReserved {} remarkedScript annotatedScript := ⟨rfl, rfl, rfl, rfl, rfl, rfl⟩
  obtain ⟨reserved, free⟩ := describe_determined_by_reserved {} "shop/items" .get
  exact ⟨edits, same, (free _ _ edits).trans (reserved _ _ same)⟩

end RouteManifest
