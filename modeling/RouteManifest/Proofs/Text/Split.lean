/-!
Texts cut at a separator. The parts hold every other character, in order, and parts without
separators are what their join is cut into.
-/

namespace RouteManifest.Text

variable {separator character : Char}

theorem split_on_flatten (separator : Char) (text : List Char) :
    (text.splitOn separator).flatten = text.filter (· ≠ separator) := by
  induction text with
  | nil => rfl
  | cons character rest induction =>
      rw [List.splitOn_cons_eq_if_modifyHead]
      obtain ⟨part, parts, shape⟩ :=
        List.exists_cons_of_ne_nil (List.splitOn_ne_nil separator rest)
      rw [shape, List.flatten_cons] at induction
      by_cases cut : character = separator
      · simpa [cut, shape] using induction
      · simpa [cut, shape] using induction

theorem mem_split_on_part {text : List Char} :
    (∃ part ∈ text.splitOn separator, character ∈ part) ↔
      character ∈ text ∧ character ≠ separator := by
  rw [← List.mem_flatten, split_on_flatten]
  simp

/-- The parts of a text are the only ones without separators that make it up. -/
theorem split_on_eq_iff {text : List Char} {parts : List (List Char)} (nonempty : parts ≠ []) :
    text.splitOn separator = parts ↔
      text = [separator].intercalate parts ∧ ∀ part ∈ parts, separator ∉ part := by
  constructor
  · rintro rfl
    refine ⟨(List.intercalate_splitOn separator).symm, ?_⟩
    intro part member inside
    exact (mem_split_on_part.mp ⟨part, member, inside⟩).2 rfl
  · rintro ⟨rfl, whole⟩
    exact List.splitOn_intercalate separator whole nonempty

theorem split_on_join {mark : String} (single : mark.toList = [separator]) {parts : List String}
    (nonempty : parts ≠ []) (whole : ∀ part ∈ parts, separator ∉ part.toList) :
    (mark.intercalate parts).toList.splitOn separator = parts.map String.toList := by
  rw [String.toList_intercalate, single]
  apply List.splitOn_intercalate
  · intro text member
    obtain ⟨part, inside, rfl⟩ := List.mem_map.mp member
    exact whole part inside
  · simpa using nonempty

theorem mem_join_iff {mark : String} (unmarked : character ∉ mark.toList) (parts : List String) :
    character ∈ (mark.intercalate parts).toList ↔ ∃ part ∈ parts, character ∈ part.toList := by
  induction parts with
  | nil => simp
  | cons part rest induction =>
      cases rest with
      | nil => simp
      | cons other rest =>
          rw [String.intercalate_cons_cons, String.toList_append, String.toList_append,
            List.mem_append, List.mem_append, or_iff_left unmarked, induction]
          simp

end RouteManifest.Text
