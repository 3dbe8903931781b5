import RouteManifest.Endpoint.Declaration
import RouteManifest.Proofs.Text.Split
import RouteManifest.Proofs.Text.Trim

/-!
The roles that a script requires. They are the parts of its ticket texts between commas, trimmed
and without the blank ones. So a script requires no role only when its ticket texts hold nothing
but commas and blanks, tickets can be put behind each other, and roles that are joined by commas
in a single ticket are the same roles again.
-/

namespace RouteManifest

open RouteManifest.Script RouteManifest.Text

/-- A name between commas, without blanks at its ends. -/
structure IsRole (role : String) : Prop where
  nonempty : role ≠ ""
  whole : ',' ∉ role.toList
  front : role.toList.head?.any isBlank = false
  back : role.toList.getLast?.any isBlank = false

theorem mem_roles_of_text_iff {text role : String} :
    role ∈ rolesOfText text ↔
      role ≠ "" ∧ ∃ part ∈ text.toList.splitOn ',', trim part = role.toList := by
  constructor
  · intro member
    obtain ⟨kept, inside, rfl⟩ := List.mem_map.mp member
    obtain ⟨trimmed, solid⟩ := List.mem_filter.mp inside
    obtain ⟨part, listed, rfl⟩ := List.mem_map.mp trimmed
    have nonempty : trim part ≠ [] := by simpa using solid
    exact ⟨by simpa [String.ext_iff] using nonempty, part, listed, String.toList_ofList.symm⟩
  · intro found
    obtain ⟨nonempty, part, listed, same⟩ := found
    apply List.mem_map.mpr
    refine ⟨trim part, List.mem_filter.mpr ⟨List.mem_map_of_mem listed, ?_⟩, ?_⟩
    · simpa [same] using nonempty
    · rw [same, String.ofList_toList]

theorem is_role_of_mem {text role : String} (member : role ∈ rolesOfText text) : IsRole role := by
  obtain ⟨nonempty, part, inside, same⟩ := mem_roles_of_text_iff.mp member
  refine ⟨nonempty, ?_, ?_, ?_⟩
  · intro comma
    rw [← same] at comma
    have within := (trim_is_part part).subset comma
    exact (mem_split_on_part.mp ⟨part, inside, within⟩).2 rfl
  · rw [← same]
    exact trim_head part
  · rw [← same]
    exact trim_getLast part

theorem roles_of_text_eq_nil_iff {text : String} :
    rolesOfText text = [] ↔
      ∀ character ∈ text.toList, character = ',' ∨ isBlank character = true := by
  have blank_parts : rolesOfText text = [] ↔
      ∀ part ∈ text.toList.splitOn ',', ∀ character ∈ part, isBlank character = true := by
    simp [rolesOfText, trim_eq_nil_iff, isBlankText]
  rw [blank_parts]
  constructor
  · intro blank character member
    by_cases comma : character = ','
    · exact .inl comma
    · obtain ⟨part, inside, within⟩ := mem_split_on_part.mpr ⟨member, comma⟩
      exact .inr (blank part inside character within)
  · intro blank part inside character within
    obtain ⟨member, noComma⟩ := mem_split_on_part.mp ⟨part, inside, within⟩
    exact (blank character member).resolve_left noComma

/-- Roles that are joined by commas are read as they were. -/
theorem roles_of_text_join {roles : List String} (canonical : ∀ role ∈ roles, IsRole role) :
    rolesOfText (",".intercalate roles) = roles := by
  by_cases none : roles = []
  · subst none
    decide
  · have parts : (",".intercalate roles).toList.splitOn ',' = roles.map String.toList :=
      split_on_join rfl none fun role member => (canonical role member).whole
    have trimmed : (roles.map String.toList).map trim = roles.map String.toList := by
      rw [List.map_map]
      apply List.map_congr_left
      intro role member
      exact trim_eq_self (canonical role member).front (canonical role member).back
    have kept : (roles.map String.toList).filter (!·.isEmpty) = roles.map String.toList := by
      apply List.filter_eq_self.mpr
      intro text member
      obtain ⟨role, inside, rfl⟩ := List.mem_map.mp member
      simpa using (canonical role inside).nonempty
    rw [rolesOfText, parts, trimmed, kept, List.map_map]
    simp [Function.comp_def]

def ticketTexts (script : Node) (vocabulary : Vocabulary) : List String :=
  (script.children.filter (Node.isNamed vocabulary.ticketVerify)).filterMap Node.string?

section Scripts

variable {script : Node} {vocabulary : Vocabulary}

theorem string_eq_some_iff {node : Node} {text : String} :
    node.string? = some text ↔ node.value = some (.string text) := by
  rw [Node.string?, Option.bind_eq_some_iff]
  constructor
  · intro found
    obtain ⟨value, carries, read⟩ := found
    cases value with
    | string other => rw [carries, Option.some.inj read]
    | _ => cases read
  · intro carries
    exact ⟨_, carries, rfl⟩

theorem mem_ticket_texts_iff {text : String} :
    text ∈ ticketTexts script vocabulary ↔
      ∃ node ∈ script.children, node.name = vocabulary.ticketVerify ∧
        node.value = some (.string text) := by
  simp only [ticketTexts, List.mem_filterMap, List.mem_filter, Node.isNamed, beq_iff_eq,
    string_eq_some_iff, and_assoc]

theorem declared_roles_eq (script : Node) (vocabulary : Vocabulary) :
    declaredRoles script vocabulary =
      let roles := (ticketTexts script vocabulary).flatMap rolesOfText
      if roles.isEmpty then none else some roles := rfl

theorem declared_roles_get_d (script : Node) (vocabulary : Vocabulary) :
    (declaredRoles script vocabulary).getD [] =
      (ticketTexts script vocabulary).flatMap rolesOfText := by
  rw [declared_roles_eq]
  dsimp only
  split
  · next none => exact (List.isEmpty_iff.mp none).symm
  · rfl

theorem is_role_of_declared {role : String}
    (member : role ∈ (declaredRoles script vocabulary).getD []) : IsRole role := by
  rw [declared_roles_get_d] at member
  obtain ⟨text, -, inside⟩ := List.mem_flatMap.mp member
  exact is_role_of_mem inside

theorem declared_roles_eq_none_iff :
    declaredRoles script vocabulary = none ↔
      ∀ text ∈ ticketTexts script vocabulary, rolesOfText text = [] := by
  rw [← List.flatMap_eq_nil_iff, ← List.isEmpty_iff, declared_roles_eq]
  dsimp only
  split
  · next none => exact iff_of_true rfl none
  · next some => exact iff_of_false (Option.some_ne_none _) some

theorem declared_roles_of_get_d {other : Node}
    (same : (declaredRoles other vocabulary).getD [] = (declaredRoles script vocabulary).getD []) :
    declaredRoles other vocabulary = declaredRoles script vocabulary := by
  rw [declared_roles_get_d, declared_roles_get_d] at same
  rw [declared_roles_eq, declared_roles_eq, same]

theorem ticket_texts_append {other joined : Node}
    (behind : joined.children = script.children ++ other.children) :
    ticketTexts joined vocabulary =
      ticketTexts script vocabulary ++ ticketTexts other vocabulary := by
  rw [ticketTexts, behind, List.filter_append, List.filterMap_append]
  rfl

theorem ticket_texts_single {ticket : Node} {text : String}
    (only : script.children.filter (Node.isNamed vocabulary.ticketVerify) = [ticket])
    (carries : ticket.value = some (.string text)) : ticketTexts script vocabulary = [text] := by
  rw [ticketTexts, only, List.filterMap_cons_some (string_eq_some_iff.mpr carries)]
  rfl

end Scripts

/-- A script requires no roles exactly when its tickets hold nothing but commas and blanks. Else
its roles are roles indeed. The roles of two scripts stand behind each other when their nodes do,
and a script with the roles in one ticket, joined by commas, has the same roles again. -/
theorem declared_roles_canonical (script : Node) (vocabulary : Vocabulary) :
    (declaredRoles script vocabulary = none ↔
      ∀ node ∈ script.children, node.name = vocabulary.ticketVerify →
        ∀ text, node.value = some (.string text) →
          ∀ character ∈ text.toList, character = ',' ∨ isBlank character = true) ∧
    (∀ roles, declaredRoles script vocabulary = some roles →
      roles ≠ [] ∧ ∀ role ∈ roles, IsRole role) ∧
    (∀ other joined : Node, joined.children = script.children ++ other.children →
      (declaredRoles joined vocabulary).getD [] =
        (declaredRoles script vocabulary).getD [] ++ (declaredRoles other vocabulary).getD []) ∧
    ∀ single ticket : Node,
      single.children.filter (Node.isNamed vocabulary.ticketVerify) = [ticket] →
      ticket.value =
        some (.string (",".intercalate ((declaredRoles script vocabulary).getD []))) →
      declaredRoles single vocabulary = declaredRoles script vocabulary := by
  refine ⟨?_, ?_, ?_, ?_⟩
  · rw [declared_roles_eq_none_iff]
    simp only [mem_ticket_texts_iff, roles_of_text_eq_nil_iff]
    constructor
    · intro blank node member named text carries
      exact blank text ⟨node, member, named, carries⟩
    · intro blank text found
      obtain ⟨node, member, named, carries⟩ := found
      exact blank node member named text carries
  · intro roles declared
    constructor
    · intro none
      have listed := declared_roles_get_d script vocabulary
      rw [declared, none, Option.getD_some] at listed
      rw [declared_roles_eq, ← listed] at declared
      cases declared
    · intro role member
      have listed : role ∈ (declaredRoles script vocabulary).getD [] := by
        rwa [declared, Option.getD_some]
      exact is_role_of_declared listed
  · intro other joined behind
    rw [declared_roles_get_d, ticket_texts_append behind, List.flatMap_append,
      declared_roles_get_d, declared_roles_get_d]
  · intro single ticket only carries
    apply declared_roles_of_get_d
    rw [declared_roles_get_d, ticket_texts_single only carries, List.flatMap_singleton]
    exact roles_of_text_join fun role member => is_role_of_declared member

def gateScript : Node where
  name := ""
  children := [Node.ofText "auth.ticket.verify" " admin, ,root ",
    Node.ofValue "auth.ticket.verify" (.bool true), Node.ofText ".description" "x,y",
    Node.ofText "auth.ticket.verify" "admin"]

def plainGateScript : Node where
  name := ""
  children := [Node.ofText ".description" "z", Node.ofText "auth.ticket.verify" "admin,root,admin"]

def openScript : Node := { name := "", children := [Node.ofText "auth.ticket.verify" " , ,"] }

theorem declared_roles_of_gate :
    declaredRoles gateScript {} = some ["admin", "root", "admin"] ∧
    (∀ role ∈ ["admin", "root", "admin"], IsRole role) ∧
    declaredRoles openScript {} = none ∧
    declaredRoles plainGateScript {} = declaredRoles gateScript {} ∧
    (declaredRoles ⟨"", none, gateScript.children ++ openScript.children⟩ {}).getD [] =
      (declaredRoles gateScript {}).getD [] ++ (declaredRoles openScript {}).getD [] := by
  have roles : declaredRoles gateScript {} = some ["admin", "root", "admin"] := by decide
  obtain ⟨-, canonical, joined, single⟩ := declared_roles_canonical gateScript {}
  obtain ⟨nobody, -⟩ := declared_roles_canonical openScript {}
  refine ⟨roles, (canonical _ roles).2, nobody.mpr ?_, ?_, joined openScript _ rfl⟩
  · intro node member named text carries
    obtain rfl := List.mem_singleton.mp member
    cases carries
    have separators : " , ,".toList.all (fun character => character = ',' || isBlank character) := by
      decide
    intro character inside
    simpa using List.all_eq_true.mp separators character inside
  · exact single plainGateScript (Node.ofText "auth.ticket.verify" "admin,root,admin") (by rfl)
      (by rw [roles]; decide)

end RouteManifest
