import RouteManifest.Proofs.Json.Value
import RouteManifest.Proofs.Record

/-!
Records read back from objects. In an object of the fields that are present the declared fields
are found again, each with its value or without one, and a list is read back when each of its
items is.
-/

namespace RouteManifest.Json

theorem item_documents_eq (items : List Json) : itemDocuments items = items.map document := by
  induction items with
  | nil => rfl
  | cons item items induction => rw [itemDocuments, induction, List.map_cons]

theorem member_documents_eq (members : List (String × Json)) :
    memberDocuments members = members.map fun member => (some member.1, member.2.document) := by
  induction members with
  | nil => rfl
  | cons member members induction =>
      obtain ⟨key, value⟩ := member
      rw [memberDocuments, induction, List.map_cons]

theorem lookup_member_documents (members : List (String × Json)) (name : String) :
    (memberDocuments members).lookup (some name) = (members.lookup name).map document := by
  induction members with
  | nil => rfl
  | cons member members induction =>
      obtain ⟨key, value⟩ := member
      have keys : (some name == some key) = (name == key) := rfl
      rw [memberDocuments, List.lookup_cons, List.lookup_cons, induction, keys]
      cases name == key <;> rfl

theorem mapM_written {Item Written Taken : Type} {write : Item → Written}
    {read : Written → Option Taken} {taken : Item → Taken} {items : List Item}
    (each : ∀ item ∈ items, read (write item) = some (taken item)) :
    (items.map write).mapM read = some (items.map taken) := by
  induction items with
  | nil => rfl
  | cons item items induction =>
      have first := each item List.mem_cons_self
      have later := induction fun other member => each other (List.mem_cons_of_mem _ member)
      rw [List.map_cons, List.mapM_cons, first, later]
      rfl

theorem mapM_read_back {Item Written : Type} {write : Item → Written}
    {read : Written → Option Item} {items : List Item}
    (each : ∀ item ∈ items, read (write item) = some item) :
    (items.map write).mapM read = some items :=
  (mapM_written each).trans (congrArg some items.map_id')

namespace Document

theorem keys_member_documents (members : List (String × Json)) :
    keys? (memberDocuments members) = some (members.map Prod.fst) := by
  rw [member_documents_eq, keys?]
  exact mapM_written fun _ _ => rfl

theorem fields_present (fields : List (String × Option Json))
    (distinct : (fields.map Prod.fst).Nodup) :
    fields? (fields.map Prod.fst) (Json.object (present fields)).document =
      some (fields.map fun field => field.2.map document) := by
  have once : (fields.map Prod.fst).all
      (fun name => ((present fields).map Prod.fst).count name ≤ 1) = true := by
    apply List.all_eq_true.mpr
    intro name _
    have nodup := distinct.sublist (present_names_sublist fields)
    simpa using List.nodup_iff_count_le_one.mp nodup name
  rw [document, fields?, keys_member_documents]
  simp only [Option.bind_eq_bind, Option.bind_some, once, if_true, List.map_map,
    Option.some.injEq]
  apply List.map_congr_left
  intro field member
  change (memberDocuments (present fields)).lookup (some field.1) = _
  rw [lookup_member_documents, lookup_present distinct member]

section Parts

variable {Item : Type} {write : Item → Json} {read : Document → Option Item}

theorem list_of_item_documents {items : List Item}
    (each : ∀ item ∈ items, read (write item).document = some item) :
    (Json.array (items.map write)).document.listOf? read = some items := by
  rw [document, listOf?, item_documents_eq, List.map_map]
  exact mapM_read_back each

theorem optional_document {value : Option Item}
    (present : ∀ item ∈ value, (write item).document ≠ .null ∧
      read (write item).document = some item) :
    optional? read (value.map fun item => (write item).document) = some value := by
  cases value with
  | none => rfl
  | some item =>
      obtain ⟨solid, readBack⟩ := present item rfl
      rw [Option.map_some, optional?]
      · rw [readBack, Option.map_some]
      · exact solid

end Parts

end Document

end RouteManifest.Json
