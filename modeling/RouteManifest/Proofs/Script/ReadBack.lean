import RouteManifest.Proofs.Json.Document
import RouteManifest.Proofs.Json.Record
import RouteManifest.Proofs.Script.Preorder
import RouteManifest.Script.Json

/-!
Script trees read back from their JSON text. A key that is left out is read as an absent value or
as no children, and a scalar comes back with its kind: a string that looks like a number stays a
string. Decimals are left aside: they are rounded when they are read. A node opens one container
for itself and one for its children, and the limit on nesting is the only reason for which the
text of a tree is refused.
-/

namespace RouteManifest.Script

open RouteManifest.Json (Document)

theorem Value.document_solid {value : Value} (exact : value.isDecimal = false) :
    value.toJson.document ≠ .null := by
  cases value with
  | bool flag => exact Document.noConfusion
  | int number =>
      rw [Value.toJson, Json.ofInt, Json.document, Json.number_document_whole]
      exact Document.noConfusion
  | decimal number => simp [Value.isDecimal] at exact
  | string text => exact Document.noConfusion

theorem Value.scalar_document {value : Value} (exact : value.isDecimal = false) :
    Document.scalar? value.toJson.document = some value := by
  cases value with
  | bool flag => rfl
  | int number =>
      have low := number.le_toInt
      have high := number.toInt_lt
      have stored : Json.IsStored number.toInt := ⟨by omega, by omega⟩
      have fits : Document.fitsInteger number.toInt = true := by
        simp only [Document.fitsInteger, Bool.and_eq_true, decide_eq_true_eq]
        omega
      rw [Value.toJson, Json.ofInt, Json.document, Json.number_document_whole, Document.scalar?,
        Json.numeral_value_written stored]
      simp [fits]
  | decimal number => simp [Value.isDecimal] at exact
  | string text => rfl

theorem Value.optional_scalar_document {value : Option Value}
    (exact : value.any Value.isDecimal = false) :
    Document.optional? Document.scalar? (value.map fun value => value.toJson.document) =
      some value := by
  apply Document.optional_document
  intro value member
  have isExact : value.isDecimal = false := by simpa [Option.mem_def.mp member] using exact
  exact ⟨Value.document_solid isExact, Value.scalar_document isExact⟩

namespace Node

mutual
/-- Levels of a tree: one for the node, and those of its deepest child. -/
def levels : Node → Nat
  | ⟨_, _, children⟩ => levelsAll children + 1
def levelsAll : List Node → Nat
  | [] => 0
  | node :: rest => max node.levels (levelsAll rest)
end

theorem levels_pos (node : Node) : 0 < node.levels := by
  cases node
  rw [levels]
  exact Nat.succ_pos _

def record (node : Node) : List (String × Option Json) :=
  [("name", some (.string node.name)), ("value", node.value.map Value.toJson),
    ("children", if node.children.isEmpty then none else some (.array (allToJson node.children)))]

theorem to_json_eq (node : Node) : node.toJson = .object (present node.record) := by
  obtain ⟨name, value, children⟩ := node
  cases value <;> cases children <;> rfl

theorem of_fields {node : Node} (children? : Document → Option (List Node))
    (exact : node.value.any Value.isDecimal = false) :
    Node.ofFields? children? node.toJson.document =
      if node.children.isEmpty then some node
      else (children? (Json.array (allToJson node.children)).document).map fun children =>
        { node with children } := by
  have found : Document.fields? ["name", "value", "children"]
      (Json.object (present node.record)).document = _ :=
    Document.fields_present node.record (by decide : ["name", "value", "children"].Nodup)
  have value := Value.optional_scalar_document exact
  rw [to_json_eq, Node.ofFields?, found]
  obtain ⟨name, ownValue, children⟩ := node
  cases children with
  | nil => simp [record, Document.string?, Json.document, Function.comp_def, value]
  | cons child others =>
      simp only [record, List.map_cons, List.map_nil, Option.map_map, Function.comp_def, value,
        Json.document, Document.string?, Option.map_some, List.isEmpty_cons, Bool.false_eq_true,
        if_false, Option.bind_eq_bind, Option.bind_some, Option.pure_def]
      exact Option.map_eq_bind.symm

mutual
/-- A tree is read back where two containers for each of its levels, one less at the bottom,
may nest. -/
theorem of_document (depth : Nat) (node : Node)
    (exact : ∀ below ∈ node.preorder, below.value.any Value.isDecimal = false) :
    Node.ofDocument? depth node.toJson.document =
      if 2 * node.levels ≤ depth + 1 then some node else none := by
  rw [preorder_eq] at exact
  obtain ⟨exactValue, exactBelow⟩ := List.forall_mem_cons.mp exact
  match depth with
  | 0 =>
      have positive := levels_pos node
      rw [Node.ofDocument?, if_neg (by omega)]
  | 1 =>
      rw [Node.ofDocument?, of_fields _ exactValue]
      obtain ⟨name, value, children⟩ := node
      rw [levels]
      cases children with
      | nil => rfl
      | cons child others =>
          have positive := levels_pos child
          rw [levelsAll, if_neg (by simp), if_neg (by omega)]
          rfl
  | depth + 2 =>
      rw [Node.ofDocument?, of_fields _ exactValue, of_documents depth node.children exactBelow]
      obtain ⟨name, value, children⟩ := node
      rw [levels]
      cases children with
      | nil => rw [levelsAll, if_pos List.isEmpty_nil, if_pos (by omega)]
      | cons child others =>
          have nested : 2 * (levelsAll (child :: others) + 1) ≤ depth + 2 + 1 ↔
              2 * levelsAll (child :: others) ≤ depth + 1 := by omega
          rw [if_neg (by simp)]
          simp only [nested]
          split <;> rfl
theorem of_documents (depth : Nat) (nodes : List Node)
    (exact : ∀ below ∈ preorderAll nodes, below.value.any Value.isDecimal = false) :
    (Json.array (allToJson nodes)).document.listOf? (Node.ofDocument? depth) =
      if 2 * levelsAll nodes ≤ depth + 1 then some nodes else none := by
  cases nodes with
  | nil => simp [allToJson, Json.document, Json.itemDocuments, levelsAll, Document.listOf?]
  | cons node rest =>
      rw [preorderAll] at exact
      obtain ⟨exactNode, exactRest⟩ := List.forall_mem_append.mp exact
      have first := of_document depth node exactNode
      have later := of_documents depth rest exactRest
      rw [Json.document, Document.listOf?] at later ⊢
      rw [allToJson, Json.itemDocuments, List.mapM_cons, first, later, levelsAll]
      have both : 2 * max node.levels (levelsAll rest) ≤ depth + 1 ↔
          2 * node.levels ≤ depth + 1 ∧ 2 * levelsAll rest ≤ depth + 1 := by omega
      simp only [both]
      by_cases fits : 2 * node.levels ≤ depth + 1
      · by_cases restFits : 2 * levelsAll rest ≤ depth + 1
        · simp [fits, restFits]
        · simp [fits, restFits]
      · simp [fits]
end

end Node

/-- The JSON text of a tree is read as the tree itself, with every value in its kind, as long as
its containers nest no deeper than the reader goes. A deeper tree is refused. -/
theorem node_read_back (node : Node)
    (exact : ∀ below ∈ node.preorder, below.value.any Value.isDecimal = false) :
    Node.ofJsonText? node.toJson.compact = if node.levels ≤ 64 then some node else none := by
  have nested : 2 * node.levels ≤ Document.nestingLimit + 1 ↔ node.levels ≤ 64 := by
    rw [Document.nestingLimit]
    omega
  rw [Node.ofJsonText?, Json.compact, String.toList_ofList, Json.parse_write, Option.bind_eq_bind,
    Option.bind_some, Node.of_document _ node exact]
  simp only [nested]

def samplerTree : Node where
  name := "\"é\"\n"
  children := [Node.ofText "a" "true", Node.ofText "" "-0",
    { name := "b", value := some (.bool true), children := [
      Node.ofValue "low" (.int (-0x8000000000000000)),
      Node.ofValue "high" (.int 0x7FFFFFFFFFFFFFFF)] },
    { name := "null" }]

theorem node_read_back_sampler :
    (∀ below ∈ samplerTree.preorder, below.value.any Value.isDecimal = false) ∧
      Node.ofJsonText? samplerTree.toJson.compact = some samplerTree := by
  have exact : ∀ below ∈ samplerTree.preorder, below.value.any Value.isDecimal = false := by decide
  exact ⟨exact, (node_read_back samplerTree exact).trans (if_pos (by decide))⟩

end RouteManifest.Script
