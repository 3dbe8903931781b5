import RouteManifest.Text.Blank

/-!
What trimming does to a text and its parts. A text keeps its end exactly when its last
character is not dropped, and what stands in front of a kept character is kept as well.
-/

namespace RouteManifest.Text

variable {accept : Char → Bool}

theorem drop_end_while_append_of_kept (front : List Char) {back : List Char}
    (kept : back.all accept = false) :
    dropEndWhile accept (front ++ back) = front ++ dropEndWhile accept back := by
  induction front with
  | nil => rfl
  | cons character front induction =>
      have nonempty : front ++ dropEndWhile accept back ≠ [] := by
        intro none
        have dropped := drop_end_while_eq_nil_iff.mp (List.append_eq_nil_iff.mp none).2
        simp [kept] at dropped
      rw [List.cons_append, dropEndWhile, induction]
      split
      · exact absurd (by assumption) nonempty
      · rfl

theorem drop_end_while_append_of_dropped (front : List Char) {back : List Char}
    (dropped : back.all accept = true) :
    dropEndWhile accept (front ++ back) = dropEndWhile accept front := by
  induction front with
  | nil => exact drop_end_while_eq_nil_iff.mpr dropped
  | cons character front induction => rw [List.cons_append, dropEndWhile, induction, dropEndWhile]

theorem drop_end_while_append_singleton (text : List Char) {last : Char}
    (kept : accept last = false) : dropEndWhile accept (text ++ [last]) = text ++ [last] := by
  rw [drop_end_while_append_of_kept text (by simpa using kept)]
  simp [dropEndWhile, kept]

theorem drop_end_while_is_start (text : List Char) : dropEndWhile accept text <+: text := by
  induction text with
  | nil => simp [dropEndWhile]
  | cons character rest induction =>
      rw [dropEndWhile]
      split
      · split <;> simp
      · next kept => simpa [kept] using induction

theorem mem_drop_end_while_iff {text : List Char} {character : Char}
    (kept : accept character = false) : character ∈ dropEndWhile accept text ↔ character ∈ text := by
  constructor
  · exact fun member => (drop_end_while_is_start text).subset member
  · intro member
    induction text with
    | nil => exact member
    | cons first rest induction =>
        rw [dropEndWhile]
        rcases List.mem_cons.mp member with rfl | later
        · split <;> simp [kept]
        · split
          · next none => simp [none] at induction later; exact absurd later induction
          · exact List.mem_cons_of_mem _ (induction later)

theorem drop_end_while_eq_self_iff {text : List Char} :
    dropEndWhile accept text = text ↔ text.getLast?.any accept = false := by
  rcases List.eq_nil_or_concat text with rfl | ⟨front, last, rfl⟩
  · simp [dropEndWhile]
  · rw [List.concat_eq_append, List.getLast?_append]
    simp only [List.getLast?_singleton, Option.some_or, Option.any_some]
    constructor
    · intro same
      apply Bool.eq_false_iff.mpr
      intro dropped
      rw [drop_end_while_append_of_dropped front (by simpa using dropped)] at same
      have shorter : (dropEndWhile accept front).length ≤ front.length :=
        (drop_end_while_is_start front).length_le
      rw [same, List.length_append, List.length_singleton] at shorter
      omega
    · exact drop_end_while_append_singleton front

theorem drop_end_while_getLast (text : List Char) :
    (dropEndWhile accept text).getLast?.any accept = false := by
  induction text with
  | nil => simp [dropEndWhile]
  | cons character rest induction =>
      rw [dropEndWhile]
      split
      · split <;> simp_all
      · next kept =>
          obtain ⟨front, last, shape⟩ := List.eq_nil_or_concat _ |>.resolve_left kept
          rw [List.concat_eq_append] at shape
          rw [shape] at induction ⊢
          rw [List.getLast?_append] at induction
          rw [← List.cons_append, List.getLast?_append]
          exact induction

theorem trim_right_cons {character : Char} {rest : List Char}
    (solid : isBlank character = false) :
    trimRight (character :: rest) = character :: trimRight rest := by
  by_cases blank : rest.all isBlank = true
  · have end_gone := drop_end_while_append_of_dropped [character] blank
    have rest_gone := drop_end_while_eq_nil_iff.mpr blank
    simp only [trimRight, List.singleton_append, rest_gone] at end_gone ⊢
    rw [end_gone]
    simp [dropEndWhile, solid]
  · exact drop_end_while_append_of_kept [character] (by simpa using blank)

theorem trim_eq_nil_iff {text : List Char} : trim text = [] ↔ isBlankText text = true := by
  rw [trim, trim_right_eq_nil_iff]
  constructor
  · intro blank
    have split := List.takeWhile_append_dropWhile (p := isBlank) (l := text)
    rw [isBlankText, ← split, List.all_append, Bool.and_eq_true]
    exact ⟨List.all_takeWhile, blank⟩
  · intro blank
    exact List.all_eq_true.mpr fun character member =>
      List.all_eq_true.mp blank character (List.dropWhile_subset isBlank member)

theorem trim_right_trim_right (text : List Char) : trimRight (trimRight text) = trimRight text :=
  drop_end_while_eq_self_iff.mpr (drop_end_while_getLast text)

theorem trim_cons_of_blank {character : Char} {rest : List Char}
    (blank : isBlank character = true) : trim (character :: rest) = trim rest := by
  rw [trim, trimLeft, List.dropWhile_cons_of_pos blank, trim, trimLeft]

theorem trim_cons_of_solid {character : Char} {rest : List Char}
    (solid : isBlank character = false) :
    trim (character :: rest) = character :: trimRight rest := by
  rw [trim, trimLeft, List.dropWhile_cons_of_neg (by simp [solid]), trim_right_cons solid]

theorem trim_trim_right (text : List Char) : trim (trimRight text) = trim text := by
  induction text with
  | nil => rfl
  | cons character rest induction =>
      cases blank : isBlank character with
      | false =>
          rw [trim_right_cons blank, trim_cons_of_solid blank, trim_cons_of_solid blank,
            trim_right_trim_right]
      | true =>
          rw [trim_cons_of_blank blank]
          by_cases gone : isBlankText rest = true
          · have allGone : isBlankText (character :: rest) = true := by
              rw [isBlankText, List.all_cons, blank, Bool.true_and]
              exact gone
            rw [trim_right_eq_nil_iff.mpr allGone, trim_eq_nil_iff.mpr gone]
            rfl
          · have kept : trimRight (character :: rest) = character :: trimRight rest :=
              drop_end_while_append_of_kept [character] (by simpa [isBlankText] using gone)
            rw [kept, trim_cons_of_blank blank, induction]

theorem trim_is_part (text : List Char) : trim text <:+: text :=
  (drop_end_while_is_start (trimLeft text)).isInfix.trans (List.dropWhile_suffix isBlank).isInfix

theorem trim_left_head (text : List Char) : (trimLeft text).head?.any isBlank = false := by
  have first := List.head?_dropWhile_not isBlank text
  rw [trimLeft]
  cases start : (text.dropWhile isBlank).head? with
  | none => rfl
  | some character => simpa [start] using first

theorem trim_head (text : List Char) : (trim text).head?.any isBlank = false := by
  obtain ⟨dropped, whole⟩ : trim text <+: trimLeft text := drop_end_while_is_start (trimLeft text)
  have first := trim_left_head text
  cases kept : trim text with
  | nil => rfl
  | cons character rest =>
      rw [← whole, kept] at first
      exact first

theorem trim_getLast (text : List Char) : (trim text).getLast?.any isBlank = false :=
  drop_end_while_getLast (trimLeft text)

theorem trim_eq_self {text : List Char} (front : text.head?.any isBlank = false)
    (back : text.getLast?.any isBlank = false) : trim text = text := by
  have left : trimLeft text = text := by
    cases text with
    | nil => rfl
    | cons character rest => exact List.dropWhile_cons_of_neg (by simpa using front)
  rw [trim, left]
  exact drop_end_while_eq_self_iff.mpr back

theorem trim_of_solid {text : List Char} (solid : ∀ character ∈ text, isBlank character = false) :
    trim text = text := by
  apply trim_eq_self
  · cases first : text.head? with
    | none => rfl
    | some character => exact solid character (List.mem_of_head? first)
  · cases last : text.getLast? with
    | none => rfl
    | some character => exact solid character (List.mem_of_getLast? last)

end RouteManifest.Text
