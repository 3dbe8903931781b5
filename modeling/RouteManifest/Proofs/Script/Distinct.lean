import RouteManifest.Proofs.Script.Source

/-!
When different scripts have different texts. A line gives its label back, but not always its
depth: a name that begins with spaces is written as it stands, and its line looks like that of a
deeper node. So a text determines its script among those in which only nodes on the lowest
level have such names, a level that is fixed beforehand.
-/

namespace RouteManifest.Script

open RouteManifest.Text

theorem write_string_inj {left right : List Char} (same : writeString left = writeString right) :
    left = right := by
  have quoted : ∀ {plain content : List Char}, isPlain plain = true →
      plain ≠ Quoted.encode content := by
    intro plain content isPlain same
    apply (not_mem_of_is_plain isPlain).2.1
    rw [same]
    exact List.mem_cons_self
  rw [write_string_eq, write_string_eq] at same
  split at same
  · next plain =>
      split at same
      · exact same
      · exact absurd same (quoted plain)
  · split at same
    · next plain => exact absurd same.symm (quoted plain)
    · have decoded := congrArg (fun text => Quoted.decode (text ++ [])) same
      simp only [Quoted.decode_encode, Option.some.injEq, Prod.mk.injEq, and_true] at decoded
      exact decoded

theorem write_value_inj {left right : Value} (exactLeft : left.isDecimal = false)
    (exactRight : right.isDecimal = false) (same : writeValue left = writeValue right) :
    left = right := by
  have readBack : (.ok left.restored : Except LineFault Value) = .ok right.restored := by
    rw [← read_value_write exactLeft, ← read_value_write exactRight, same]
  have restored : left.restored = right.restored := Except.ok.inj readBack
  cases left with
  | string text =>
      cases right with
      | string other =>
          have texts : writeString text.toList = writeString other.toList := same
          exact congrArg Value.string (String.toList_injective (write_string_inj texts))
      | _ => simp [Value.restored] at restored
  | bool flag => cases right <;> simp_all [Value.restored]
  | int number => cases right <;> simp_all [Value.restored]
  | decimal number => simp [Value.isDecimal] at exactLeft

def cutName (text : List Char) : Option (List Char × List Char) :=
  if startsQuoted text then Quoted.decode text
  else some (text.takeWhile (!isColon ·), text.dropWhile (!isColon ·))

theorem cut_name_write (name : List Char) {tail : List Char}
    (colon : tail = [] ∨ ∃ rest, tail = ':' :: rest) :
    cutName (writeName name ++ tail) = some (name, tail) := by
  rw [write_name_eq]
  split
  · next plainName =>
      obtain ⟨noColon, noQuote, -⟩ := not_mem_of_is_plain (is_plain_of_is_plain_name plainName)
      have unquoted : startsQuoted (name ++ tail) = false := by
        cases name with
        | nil => simp [isPlainName] at plainName
        | cons first rest =>
            have different : first ≠ '"' := fun same => noQuote (by simp [same])
            simpa [startsQuoted] using different
      have stops : tail.takeWhile (!isColon ·) = [] ∧ tail.dropWhile (!isColon ·) = tail := by
        cases colon with
        | inl nothing => simp [nothing]
        | inr further =>
            obtain ⟨rest, shape⟩ := further
            simp [shape, isColon]
      have passed := passes_colon noColon
      rw [cutName, if_neg (by simp [unquoted]), List.takeWhile_append_of_pos passed,
        List.dropWhile_append_of_pos passed, stops.1, stops.2, List.append_nil]
  · rw [cutName, if_pos (starts_quoted_encode name tail), Quoted.decode_encode]

theorem Label.write_inj {left right : Label}
    (exactLeft : left.value.any Value.isDecimal = false)
    (exactRight : right.value.any Value.isDecimal = false) (same : left.write = right.write) :
    left = right := by
  have cut (label : Label) : ∃ tail, cutName label.write = some (label.name.toList, tail) ∧
      tail = label.value.elim [] (':' :: writeValue ·) := by
    refine ⟨_, ?_, rfl⟩
    obtain ⟨name, value⟩ := label
    cases value with
    | none => exact cut_name_write name.toList (.inl rfl)
    | some value => exact cut_name_write name.toList (.inr ⟨_, rfl⟩)
  obtain ⟨tail, cutLeft, tailLeft⟩ := cut left
  obtain ⟨other, cutRight, tailRight⟩ := cut right
  rw [same, cutRight] at cutLeft
  obtain ⟨names, tails⟩ := Prod.mk.inj (Option.some.inj cutLeft)
  obtain ⟨name, value⟩ := left
  obtain ⟨otherName, otherValue⟩ := right
  obtain rfl : otherName = name := String.toList_injective names
  rw [tailLeft, tailRight] at tails
  cases value with
  | none => cases otherValue <;> simp_all
  | some value =>
      cases otherValue with
      | none => simp at tails
      | some other =>
          have texts : writeValue other = writeValue value := (List.cons.inj tails).2
          have values := write_value_inj (by simpa using exactRight) (by simpa using exactLeft) texts
          rw [values]

namespace OutlineEntry

/-- The line of an entry shows its depth, up to a lowest level. -/
structure ShowsDepth (lowest : Nat) (entry : OutlineEntry) : Prop where
  le : entry.depth ≤ lowest
  flush : entry.depth < lowest → startsIndented entry.label.write = false
  exact : entry.label.value.any Value.isDecimal = false

theorem le_indentation_line (entry : OutlineEntry) :
    levelWidth * entry.depth ≤ indentation entry.line := by
  rw [indentation, line, List.takeWhile_append_of_pos (replicate_space _), List.length_append,
    List.length_replicate]
  exact Nat.le_add_right _ _

theorem ShowsDepth.depth_eq {lowest : Nat} {entry : OutlineEntry}
    (shows : entry.ShowsDepth lowest) :
    entry.depth = min (indentation entry.line / levelWidth) lowest := by
  have le := shows.le
  by_cases deepest : entry.depth = lowest
  · have atLeast : entry.depth ≤ indentation entry.line / levelWidth :=
      (Nat.le_div_iff_mul_le (by decide)).mpr (by
        rw [Nat.mul_comm]
        exact entry.le_indentation_line)
    omega
  · have divided : indentation entry.line / levelWidth = entry.depth := by
      rw [indentation_line (shows.flush (by omega))]
      exact Nat.mul_div_cancel_left _ (by decide)
    omega

theorem ShowsDepth.line_inj {lowest : Nat} {left right : OutlineEntry}
    (showsLeft : left.ShowsDepth lowest) (showsRight : right.ShowsDepth lowest)
    (same : left.line = right.line) : left = right := by
  have depths : left.depth = right.depth := by
    rw [showsLeft.depth_eq, showsRight.depth_eq, same]
  rw [line, line, depths] at same
  have labels := Label.write_inj showsLeft.exact showsRight.exact (List.append_cancel_left same)
  obtain ⟨depth, label⟩ := left
  obtain ⟨otherDepth, otherLabel⟩ := right
  exact congrArg₂ OutlineEntry.mk depths labels

theorem lines_inj {lowest : Nat} {left right : List OutlineEntry}
    (showLeft : ∀ entry ∈ left, entry.ShowsDepth lowest)
    (showRight : ∀ entry ∈ right, entry.ShowsDepth lowest)
    (same : left.map line = right.map line) : left = right := by
  induction left generalizing right with
  | nil => exact (List.map_eq_nil_iff.mp same.symm).symm
  | cons entry left induction =>
      cases right with
      | nil => simp at same
      | cons other right =>
          obtain ⟨firsts, laters⟩ := List.cons.inj same
          have first := (showLeft entry List.mem_cons_self).line_inj
            (showRight other List.mem_cons_self) firsts
          have later := induction (fun each member => showLeft each (List.mem_cons_of_mem _ member))
            (fun each member => showRight each (List.mem_cons_of_mem _ member)) laters
          rw [first, later]

end OutlineEntry

/-- Forests whose lines show their depths have different texts. -/
theorem forest_text_inj {lowest : Nat} {left right : List Node}
    (showLeft : ∀ entry ∈ Node.outlineAll 0 left, entry.ShowsDepth lowest)
    (showRight : ∀ entry ∈ Node.outlineAll 0 right, entry.ShowsDepth lowest)
    (same : forestText left = forestText right) : left = right := by
  have written : writeOutline (Node.outlineAll 0 left) = writeOutline (Node.outlineAll 0 right) :=
    String.ofList_injective same
  have lines := congrArg (lines '\n' '\r') written
  rw [lines_write_outline fun entry member => (showLeft entry member).exact,
    lines_write_outline fun entry member => (showRight entry member).exact] at lines
  exact outline_all_inj (OutlineEntry.lines_inj showLeft showRight lines)

end RouteManifest.Script
