import RouteManifest.Endpoint.Describe
import RouteManifest.Proofs.Endpoint.Decision

/-!
What a read of a table returns. There is one field for every column, in the order of the columns
and with their names. Its value comes from the first argument that filters the column, as soon
as the script declares any argument at all, and from the column itself only when it declares
none.
-/

namespace RouteManifest

open RouteManifest.Script

/-- The value that the field of a column gets. -/
inductive FieldValue (script : Node) (vocabulary : Vocabulary) (column : Node) :
    Option Value → Prop
  | filtered {arguments argument : Node}
      (declared : IsFirst (fun node => node.name = vocabulary.arguments) script.children arguments)
      (filters : IsFirst (fun node => node.name = column.name ++ ".eq") arguments.children
        argument) :
      FieldValue script vocabulary column argument.value
  | unfiltered {arguments : Node}
      (declared : IsFirst (fun node => node.name = vocabulary.arguments) script.children arguments)
      (someGiven : arguments.children ≠ [])
      (noneFilters : ∀ argument ∈ arguments.children, argument.name ≠ column.name ++ ".eq") :
      FieldValue script vocabulary column none
  | undeclared
      (noneGiven : ∀ arguments,
        IsFirst (fun node => node.name = vocabulary.arguments) script.children arguments →
          arguments.children = []) :
      FieldValue script vocabulary column column.value

section Fields

variable {script arguments column : Node} {vocabulary : Vocabulary}

theorem declared_input_given
    (declared : IsFirst (fun node => node.name = vocabulary.arguments) script.children arguments)
    (someGiven : arguments.children ≠ []) :
    declaredInput script vocabulary = some (arguments.children.map Field.ofNode) := by
  have occupied : arguments.children.isEmpty = false := by simpa using someGiven
  simp only [declaredInput, Node.child_eq_some_iff.mpr declared, occupied, Bool.false_eq_true,
    if_false]

theorem declared_input_none
    (noneGiven : ∀ arguments,
      IsFirst (fun node => node.name = vocabulary.arguments) script.children arguments →
        arguments.children = []) : declaredInput script vocabulary = none := by
  rw [declaredInput]
  split
  · rfl
  · next arguments found =>
      rw [noneGiven arguments (Node.child_eq_some_iff.mp found)]
      rfl

theorem find_argument (nodes : List Node) (name : String) :
    ((nodes.map Field.ofNode).find? fun argument => argument.name == name).bind Field.value =
      (nodes.find? (Node.isNamed name)).bind Node.value := by
  rw [List.find?_map, Option.bind_map]
  rfl

theorem returned_value_given
    (declared : IsFirst (fun node => node.name = vocabulary.arguments) script.children arguments)
    (someGiven : arguments.children ≠ []) :
    (returnedField (declaredInput script vocabulary) column).value =
      (arguments.children.find? (Node.isNamed (column.name ++ ".eq"))).bind Node.value := by
  rw [declared_input_given declared someGiven, returnedField, find_argument]

theorem returned_value_undeclared
    (noneGiven : ∀ arguments,
      IsFirst (fun node => node.name = vocabulary.arguments) script.children arguments →
        arguments.children = []) :
    (returnedField (declaredInput script vocabulary) column).value = column.value := by
  rw [declared_input_none noneGiven, returnedField, Field.ofNode]

theorem field_value_exists :
    FieldValue script vocabulary column
      (returnedField (declaredInput script vocabulary) column).value := by
  by_cases given : ∃ arguments,
      IsFirst (fun node => node.name = vocabulary.arguments) script.children arguments ∧
        arguments.children ≠ []
  · obtain ⟨arguments, declared, someGiven⟩ := given
    rw [returned_value_given declared someGiven]
    cases found : arguments.children.find? (Node.isNamed (column.name ++ ".eq")) with
    | none =>
        exact .unfiltered declared someGiven ((find_eq_none_iff fun _ => Node.is_named_iff).mp found)
    | some argument =>
        exact .filtered declared ((find_eq_some_iff fun _ => Node.is_named_iff).mp found)
  · have noneGiven : ∀ arguments,
        IsFirst (fun node => node.name = vocabulary.arguments) script.children arguments →
          arguments.children = [] := by
      intro arguments declared
      exact Decidable.not_not.mp fun someGiven => given ⟨arguments, declared, someGiven⟩
    rw [returned_value_undeclared noneGiven]
    exact .undeclared noneGiven

theorem returned_value_of_field_value {value : Option Value}
    (valued : FieldValue script vocabulary column value) :
    (returnedField (declaredInput script vocabulary) column).value = value := by
  cases valued with
  | filtered declared filters =>
      rw [returned_value_given declared (List.ne_nil_of_mem filters.mem),
        (find_eq_some_iff fun _ => Node.is_named_iff).mpr filters]
      rfl
  | unfiltered declared someGiven noneFilters =>
      rw [returned_value_given declared someGiven,
        (find_eq_none_iff fun _ => Node.is_named_iff).mpr noneFilters]
      rfl
  | undeclared noneGiven => exact returned_value_undeclared noneGiven

/-- The name of the field and its value, which no other value is. -/
theorem returned_field_spec (column : Node) :
    let field := returnedField (declaredInput script vocabulary) column
    field.name = column.name ∧
      ∀ value, field.value = value ↔ FieldValue script vocabulary column value := by
  intro field
  constructor
  · unfold field returnedField
    split <;> rfl
  · intro value
    constructor
    · intro same
      rw [← same]
      exact field_value_exists
    · exact returned_value_of_field_value

end Fields

theorem Decides.of_read {script : Node} {vocabulary : Vocabulary} {input : Option (List Field)}
    {verb : Verb} {result : Classification} (decides : Decides script vocabulary input verb result)
    (reads : result.kind = some .crudRead) :
    ∃ slot columns, WrapsTable script vocabulary slot ∧
      IsFirst (fun node => node.name = "columns") slot.children columns ∧
      result.returns = some (columns.children.map (returnedField input)) := by
  cases decides with
  | read wraps first uncounted => exact ⟨_, _, wraps, first, rfl⟩
  | _ => simp at reads

/-- A script that is described as a read wraps a table and lists columns, and it returns exactly
one field for each of them. -/
theorem read_returns_columns (script : Node) (vocabulary : Vocabulary) (path : String)
    (reads : (describe script path .get vocabulary).kind = some .crudRead) :
    ∃ slot columns fields, WrapsTable script vocabulary slot ∧
      IsFirst (fun node => node.name = "columns") slot.children columns ∧
      (describe script path .get vocabulary).returns = some fields ∧
      List.Forall₂ (fun column field => field.name = column.name ∧
        ∀ value, field.value = value ↔ FieldValue script vocabulary column value)
        columns.children fields := by
  have decides : Decides script vocabulary (declaredInput script vocabulary) .get
      (classify script .get (declaredInput script vocabulary) vocabulary) := decides_classify
  obtain ⟨slot, columns, wraps, first, returns⟩ := decides.of_read reads
  refine ⟨slot, columns, _, wraps, first, returns, ?_⟩
  rw [List.forall₂_map_right_iff, List.forall₂_same]
  intro column _
  exact returned_field_spec column

/-- A read with a repeated column, a repeated argument without value, and a column that no
argument filters although it has a value. -/
def orderScript : Node where
  name := ""
  children := [
    { name := ".arguments", children := [Node.ofText "id.eq.eq" "bool", { name := "id.eq" },
      Node.ofText "id.eq" "long", Node.ofText "total.eq" "decimal"] },
    { name := ".arguments", children := [Node.ofText "note.eq" "string"] },
    { name := "signal", children := [Node.ofText "database" "shop", Node.ofText "table" "orders",
      { name := "columns", children := [{ name := "id", value := some (.string "long") },
        { name := "total", children := [{ name := "net" }] }, Node.ofText "note" "text",
        { name := "id" }] }] }]

theorem read_returns_order_columns :
    (describe orderScript "shop/orders" .get {}).kind = some .crudRead ∧
    ∃ slot columns fields, WrapsTable orderScript {} slot ∧
      IsFirst (fun node => node.name = "columns") slot.children columns ∧
      (describe orderScript "shop/orders" .get {}).returns = some fields ∧
      List.Forall₂ (fun column field => field.name = column.name ∧
        ∀ value, field.value = value ↔ FieldValue orderScript {} column value)
        columns.children fields := by
  have reads : (describe orderScript "shop/orders" .get {}).kind = some .crudRead := by decide
  exact ⟨reads, read_returns_columns orderScript {} "shop/orders" reads⟩

example : (describe orderScript "shop/orders" .get {}).returns =
    some [⟨"id", none⟩, ⟨"total", some (.string "decimal")⟩, ⟨"note", none⟩, ⟨"id", none⟩] := by
  decide

end RouteManifest
