import Mathlib.Data.List.Nodup

/-!
Records with optional fields. A record is given by the names of its fields, each with its value
or without one, and only the fields that are present are written. With distinct names every
field is found again among them, so what is present determines the whole record.
-/

namespace RouteManifest

variable {Item : Type}

def present (fields : List (String × Option Item)) : List (String × Item) :=
  fields.flatMap fun field => (field.2.map fun item => (field.1, item)).toList

theorem present_cons (name : String) (value : Option Item)
    (fields : List (String × Option Item)) :
    present ((name, value) :: fields) =
      (value.map fun item => (name, item)).toList ++ present fields := rfl

theorem present_names_sublist (fields : List (String × Option Item)) :
    ((present fields).map Prod.fst).Sublist (fields.map Prod.fst) := by
  induction fields with
  | nil => exact .slnil
  | cons field fields induction =>
      obtain ⟨name, value⟩ := field
      cases value with
      | none => exact induction.cons name
      | some value => exact induction.cons_cons name

theorem lookup_present_of_not_mem {fields : List (String × Option Item)} {name : String}
    (absent : name ∉ fields.map Prod.fst) : (present fields).lookup name = none := by
  apply List.lookup_eq_none_iff.mpr
  intro item member
  apply bne_iff_ne.mpr
  intro same
  apply absent
  rw [same]
  exact (present_names_sublist fields).subset (List.mem_map_of_mem member)

theorem lookup_present {fields : List (String × Option Item)}
    (distinct : (fields.map Prod.fst).Nodup) {field : String × Option Item}
    (member : field ∈ fields) : (present fields).lookup field.1 = field.2 := by
  induction fields with
  | nil => simp at member
  | cons first fields induction =>
      obtain ⟨name, value⟩ := first
      have fresh : name ∉ fields.map Prod.fst := (List.nodup_cons.mp distinct).1
      rw [present_cons, List.lookup_append]
      rcases List.mem_cons.mp member with same | later
      · subst same
        cases value with
        | none => simpa using lookup_present_of_not_mem fresh
        | some value => simp
      · have other : field.1 ≠ name := by
          intro same
          apply fresh
          rw [← same]
          exact List.mem_map_of_mem later
        rw [induction (List.nodup_cons.mp distinct).2 later]
        cases value with
        | none => simp
        | some value => simp [List.lookup_cons, beq_false_of_ne other]

theorem fields_eq_lookup {fields : List (String × Option Item)}
    (distinct : (fields.map Prod.fst).Nodup) :
    fields = (fields.map Prod.fst).map fun name => (name, (present fields).lookup name) := by
  have same : ∀ field ∈ fields, (field.1, (present fields).lookup field.1) = id field := by
    intro field member
    rw [lookup_present distinct member]
    rfl
  rw [List.map_map]
  exact ((List.map_congr_left same).trans (List.map_id fields)).symm

theorem present_inj {left right : List (String × Option Item)}
    (names : left.map Prod.fst = right.map Prod.fst) (distinct : (left.map Prod.fst).Nodup)
    (same : present left = present right) : left = right := by
  rw [fields_eq_lookup distinct, names, same]
  rw [names] at distinct
  exact (fields_eq_lookup distinct).symm

end RouteManifest
