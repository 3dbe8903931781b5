import RouteManifest.Endpoint.Render
import RouteManifest.Proofs.Record
import RouteManifest.Proofs.Script.Distinct

/-!
The node form of endpoints loses nothing. Only the fields and roles of an endpoint have names of
their own, and they stand on the lowest level, so the text of a list of endpoints determines
their nodes. The sections of a node have fixed names, each at most once, so a section that is
absent is told from an empty one, and the node determines its endpoint.
-/

namespace RouteManifest

open RouteManifest.Script

namespace Script

/-- A node of the middle level: its name does not begin with a blank, and its children have no
children of their own. -/
structure Node.IsSection (node : Node) : Prop where
  flush : startsIndented node.name.toList = false
  exact : node.value.any Value.isDecimal = false
  leaves : ∀ child ∈ node.children, child.children = [] ∧ child.value.any Value.isDecimal = false

theorem mem_outline_all {depth : Nat} {nodes : List Node} {entry : OutlineEntry} :
    entry ∈ Node.outlineAll depth nodes ↔ ∃ node ∈ nodes, entry ∈ node.outline depth := by
  induction nodes with
  | nil => simp [Node.outlineAll]
  | cons node nodes induction => simp [Node.outlineAll, induction]

theorem mem_outline {depth : Nat} {node : Node} {entry : OutlineEntry} :
    entry ∈ node.outline depth ↔
      entry = ⟨depth, ⟨node.name, node.value⟩⟩ ∨
        ∃ child ∈ node.children, entry ∈ child.outline (depth + 1) := by
  obtain ⟨name, value, children⟩ := node
  rw [Node.outline, List.mem_cons, mem_outline_all]

theorem flush_of_name {name : String} {value : Option Value}
    (flush : startsIndented name.toList = false) :
    startsIndented (Label.write ⟨name, value⟩) = false := by
  rw [Label.starts_indented_write, flush, Bool.and_false]

theorem shows_depth_of_sections {nodes : List Node}
    (unnamed : ∀ node ∈ nodes, node.name = "" ∧ node.value = none)
    (sections : ∀ node ∈ nodes, ∀ child ∈ node.children, child.IsSection) :
    ∀ entry ∈ Node.outlineAll 0 nodes, entry.ShowsDepth 2 := by
  intro entry member
  obtain ⟨node, inside, member⟩ := mem_outline_all.mp member
  rcases mem_outline.mp member with rfl | ⟨child, isChild, member⟩
  · obtain ⟨name, value⟩ := unnamed node inside
    have flush : startsIndented node.name.toList = false := by
      rw [name]
      rfl
    exact ⟨Nat.zero_le 2, fun _ => flush_of_name flush, by simp [value]⟩
  · have isSection := sections node inside child isChild
    rcases mem_outline.mp member with rfl | ⟨leaf, isLeaf, member⟩
    · exact ⟨Nat.le_succ 1, fun _ => flush_of_name isSection.flush, isSection.exact⟩
    · obtain ⟨alone, exact⟩ := isSection.leaves leaf isLeaf
      rcases mem_outline.mp member with rfl | ⟨deeper, isDeeper, -⟩
      · exact ⟨Nat.le_refl 2, fun deeper => absurd deeper (Nat.lt_irrefl 2), exact⟩
      · simp [alone] at isDeeper

end Script

namespace Endpoint

theorem fields_node_section {name : String} {fields : List Field}
    (flush : startsIndented name.toList = false)
    (exact : ∀ field ∈ fields, field.value.any Value.isDecimal = false) :
    (fieldsNode name fields).IsSection := by
  refine ⟨flush, rfl, ?_⟩
  intro child member
  obtain ⟨field, inside, rfl⟩ := List.mem_map.mp member
  exact ⟨rfl, exact field inside⟩

theorem roles_node_section (roles : List String) : (rolesNode roles).IsSection := by
  have flush : startsIndented "auth".toList = false := by decide
  refine ⟨flush, rfl, ?_⟩
  intro child member
  obtain ⟨role, -, rfl⟩ := List.mem_map.mp member
  exact ⟨rfl, rfl⟩

theorem leaf_section {name : String} {value : Value} (flush : startsIndented name.toList = false)
    (exact : value.isDecimal = false) : (Node.ofValue name value).IsSection :=
  ⟨flush, by simpa [Node.ofValue] using exact, by simp [Node.ofValue]⟩

theorem to_node_sections {endpoint : Endpoint} (exact : endpoint.IsExact) :
    ∀ child ∈ endpoint.toNode.children, child.IsSection := by
  have input : ∀ fields ∈ endpoint.input, (fieldsNode "input" fields).IsSection := by
    intro list member
    apply fields_node_section (by decide)
    intro field inside
    exact exact field (by simp [fields, Option.mem_def.mp member, inside])
  have returns : ∀ fields ∈ endpoint.returns, (fieldsNode "returns" fields).IsSection := by
    intro list member
    apply fields_node_section (by decide)
    intro field inside
    exact exact field (by simp [fields, Option.mem_def.mp member, inside])
  intro child member
  simp only [toNode, List.mem_append, List.mem_cons, List.not_mem_nil, or_false,
    Option.mem_toList, Option.map_eq_some_iff] at member
  rcases member with (((((((rfl | rfl) | ⟨fields, given, rfl⟩) | ⟨roles, -, rfl⟩) |
    ⟨text, -, rfl⟩) | ⟨fields, given, rfl⟩) | ⟨array, -, rfl⟩) | ⟨kind, -, rfl⟩)
  · exact leaf_section (by decide) rfl
  · exact leaf_section (by decide) rfl
  · exact input fields given
  · exact roles_node_section roles
  · exact leaf_section (by decide) rfl
  · exact returns fields given
  · exact leaf_section (by decide) rfl
  · exact leaf_section (by decide) rfl

/-- The sections of the node form with their names. -/
def sections (endpoint : Endpoint) : List (String × Option Node) :=
  [("path", some (Node.ofText "path" endpoint.path)),
    ("verb", some (Node.ofText "verb" endpoint.verb.toText)),
    ("input", endpoint.input.map (fieldsNode "input")), ("auth", endpoint.roles.map rolesNode),
    ("description", endpoint.description.map (Node.ofText "description")),
    ("returns", endpoint.returns.map (fieldsNode "returns")),
    ("array", endpoint.array.map fun array => Node.ofValue "array" (.bool array)),
    ("type", endpoint.kind.map fun kind => Node.ofText "type" kind.toText)]

theorem present_sections (endpoint : Endpoint) :
    present endpoint.sections = endpoint.toNode.children.map fun node => (node.name, node) := by
  simp [present, sections, toNode, Option.toList_map, Function.comp_def, Node.ofText,
    Node.ofValue, fieldsNode, rolesNode]

theorem field_to_node_inj : Function.Injective Field.toNode := by
  intro left right same
  obtain ⟨name, value⟩ := left
  obtain ⟨otherName, otherValue⟩ := right
  simpa [Field.toNode] using same

theorem fields_node_inj (name : String) : Function.Injective (fieldsNode name) := by
  intro left right same
  have children : left.map Field.toNode = right.map Field.toNode := congrArg Node.children same
  exact List.map_injective_iff.mpr field_to_node_inj children

theorem of_text_inj (name : String) : Function.Injective (Node.ofText name) := by
  intro left right same
  simpa [Node.ofText, Node.ofValue] using same

theorem roles_node_inj : Function.Injective rolesNode := by
  intro left right same
  have children : left.map (Node.ofText "") = right.map (Node.ofText "") :=
    congrArg Node.children same
  exact List.map_injective_iff.mpr (of_text_inj "") children

theorem verb_to_text_inj : Function.Injective Verb.toText := by
  intro left right same
  apply Option.some.inj
  rw [← Verb.of_text_to_text left, same, Verb.of_text_to_text right]

theorem kind_to_text_inj : Function.Injective EndpointKind.toText := by
  intro left right same
  apply Option.some.inj
  rw [← EndpointKind.of_text_to_text left, same, EndpointKind.of_text_to_text right]

/-- The node form determines its endpoint. -/
theorem to_node_inj : Function.Injective toNode := by
  intro left right same
  have listed : present left.sections = present right.sections := by
    rw [present_sections, present_sections, same]
  have sections_eq : left.sections = right.sections := by
    have names : (left.sections.map Prod.fst).Nodup := by
      change ["path", "verb", "input", "auth", "description", "returns", "array", "type"].Nodup
      decide
    exact present_inj (by rfl) names listed
  simp only [sections, List.cons.injEq, Prod.mk.injEq, true_and, and_true, Option.some.injEq]
    at sections_eq
  obtain ⟨path, verb, input, roles, description, returns, array, kind⟩ := sections_eq
  have flags : Function.Injective fun array : Bool => Node.ofValue "array" (.bool array) := by
    intro one two same
    simpa [Node.ofValue] using same
  have kinds : Function.Injective fun kind : EndpointKind => Node.ofText "type" kind.toText :=
    (of_text_inj "type").comp kind_to_text_inj
  cases left
  cases right
  rw [Endpoint.mk.injEq]
  exact ⟨of_text_inj "path" path, verb_to_text_inj (of_text_inj "verb" verb),
    Option.map_injective (fields_node_inj "input") input,
    Option.map_injective roles_node_inj roles,
    Option.map_injective (of_text_inj "description") description,
    Option.map_injective (fields_node_inj "returns") returns,
    Option.map_injective flags array, Option.map_injective kinds kind⟩

end Endpoint

/-- Lists of endpoints whose node forms have the same text are the same. -/
theorem node_form_text_determines (left right : List Endpoint)
    (exactLeft : ∀ endpoint ∈ left, endpoint.IsExact)
    (exactRight : ∀ endpoint ∈ right, endpoint.IsExact) :
    render left .lambda = render right .lambda ↔ left = right := by
  have shows {list : List Endpoint} (exact : ∀ endpoint ∈ list, endpoint.IsExact) :
      ∀ entry ∈ Node.outlineAll 0 (list.map Endpoint.toNode), entry.ShowsDepth 2 := by
    apply shows_depth_of_sections
    · intro node member
      obtain ⟨endpoint, -, rfl⟩ := List.mem_map.mp member
      exact ⟨rfl, rfl⟩
    · intro node member
      obtain ⟨endpoint, inside, rfl⟩ := List.mem_map.mp member
      exact Endpoint.to_node_sections (exact endpoint inside)
  constructor
  · intro same
    have nodes : left.map Endpoint.toNode = right.map Endpoint.toNode :=
      forest_text_inj (shows exactLeft) (shows exactRight) same
    exact List.map_injective_iff.mpr Endpoint.to_node_inj nodes
  · intro same
    rw [same]

/-- Its fields imitate a section and another endpoint. -/
def imitatingEndpoint : Endpoint where
  path := "a"
  verb := .get
  input := some [⟨"x", none⟩, ⟨"   returns", none⟩, ⟨"\n\"\"\n", some (.string "long:1")⟩]

def imitatedEndpoint : Endpoint where
  path := "a"
  verb := .get
  input := some [⟨"x", none⟩]
  returns := some [⟨"\n\"\"\n", some (.int 1)⟩]

theorem node_form_text_tells_imitation :
    (∀ endpoint ∈ [imitatingEndpoint], endpoint.IsExact) ∧
    (∀ endpoint ∈ [imitatedEndpoint], endpoint.IsExact) ∧
    render [imitatingEndpoint] .lambda ≠ render [imitatedEndpoint] .lambda := by
  have imitating : ∀ endpoint ∈ [imitatingEndpoint], endpoint.IsExact := by decide
  have imitated : ∀ endpoint ∈ [imitatedEndpoint], endpoint.IsExact := by decide
  refine ⟨imitating, imitated, ?_⟩
  intro same
  have equal := (node_form_text_determines _ _ imitating imitated).mp same
  exact absurd equal (by decide)

end RouteManifest
