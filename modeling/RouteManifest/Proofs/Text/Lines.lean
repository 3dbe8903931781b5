import RouteManifest.Text.Lines

/-!
Texts that are built line by line. Lines that hold neither mark are given back as they
were, one for each newline, and the lines of any text make up the text again.
-/

namespace RouteManifest.Text

variable {Symbol : Type} [DecidableEq Symbol]

theorem split_lines_terminated {newline : Symbol} {line : List Symbol} (rest : List Symbol)
    (whole : newline ∉ line) :
    splitLines newline (line ++ newline :: rest) =
      (line :: (splitLines newline rest).1, (splitLines newline rest).2) := by
  induction line with
  | nil => simp [splitLines]
  | cons symbol line induction =>
      have different : symbol ≠ newline := fun same => whole (by simp [same])
      have later : newline ∉ line := fun member => whole (List.mem_cons_of_mem _ member)
      rw [List.cons_append, splitLines, induction later]
      simp [different]

theorem drop_last_of_not_mem {mark : Symbol} {line : List Symbol} (absent : mark ∉ line) :
    dropLast mark line = line := by
  fun_induction dropLast mark line with
  | case1 => rfl
  | case2 => simp at absent
  | case3 symbol different => rfl
  | case4 symbol next rest induction =>
      rw [induction fun member => absent (List.mem_cons_of_mem _ member)]

theorem split_lines_append {newline : Symbol} {texts : List (List Symbol)} (rest : List Symbol)
    (whole : ∀ text ∈ texts, newline ∉ text) :
    splitLines newline (texts.flatMap (· ++ [newline]) ++ rest) =
      (texts ++ (splitLines newline rest).1, (splitLines newline rest).2) := by
  induction texts with
  | nil => rfl
  | cons text texts induction =>
      have later := induction fun other member => whole other (List.mem_cons_of_mem _ member)
      rw [List.flatMap_cons, List.append_assoc, List.append_assoc, List.singleton_append,
        split_lines_terminated _ (whole text List.mem_cons_self), later]
      rfl

theorem lines_of_terminated {newline mark : Symbol} {texts : List (List Symbol)}
    (whole : ∀ text ∈ texts, newline ∉ text ∧ mark ∉ text) :
    lines newline mark (texts.flatMap (· ++ [newline])) = texts := by
  have split := split_lines_append [] fun text member => (whole text member).1
  have same : ∀ text ∈ texts, dropLast mark text = id text :=
    fun text member => drop_last_of_not_mem (whole text member).2
  have kept : texts.map (dropLast mark) = texts := by
    rw [List.map_congr_left same, List.map_id]
  rw [List.append_nil] at split
  simp [lines, split, splitLines, kept]

theorem count_terminated (newline : Symbol) (texts : List (List Symbol)) :
    (texts.flatMap (· ++ [newline])).count newline =
      texts.length + texts.flatten.count newline := by
  induction texts with
  | nil => rfl
  | cons text texts induction =>
      simp only [List.flatMap_cons, List.flatten_cons, List.count_append, List.count_singleton_self,
        List.length_cons, induction]
      omega

/-- The lines and what follows them make up the text, and hold no newlines themselves. -/
theorem split_lines_joined (newline : Symbol) (text : List Symbol) :
    text = (splitLines newline text).1.flatMap (· ++ [newline]) ++ (splitLines newline text).2 ∧
      (∀ line ∈ (splitLines newline text).1, newline ∉ line) ∧
      newline ∉ (splitLines newline text).2 := by
  induction text with
  | nil => simp [splitLines]
  | cons symbol rest induction =>
      rw [splitLines]
      generalize splitLines newline rest = split at induction ⊢
      obtain ⟨whole, tail⟩ := split
      obtain ⟨joined, plain, plainTail⟩ := induction
      dsimp only at joined plain plainTail ⊢
      by_cases ends : symbol = newline
      · rw [if_pos ends]
        subst ends
        refine ⟨by simp [← joined], List.forall_mem_cons.mpr ⟨List.not_mem_nil, plain⟩, plainTail⟩
      · rw [if_neg ends]
        have other : newline ≠ symbol := Ne.symm ends
        cases whole with
        | nil =>
            refine ⟨by simpa using joined, List.forall_mem_nil _, ?_⟩
            exact List.not_mem_cons_of_ne_of_not_mem other plainTail
        | cons line later =>
            obtain ⟨plainLine, plainLater⟩ := List.forall_mem_cons.mp plain
            refine ⟨by simpa using joined, ?_, plainTail⟩
            exact List.forall_mem_cons.mpr ⟨by simp [other, plainLine], plainLater⟩

theorem split_lines_of_closed {newline : Symbol} {text : List Symbol}
    (closed : text = [] ∨ text.getLast? = some newline) : (splitLines newline text).2 = [] := by
  obtain ⟨joined, -, plain⟩ := split_lines_joined newline text
  rcases closed with rfl | ends
  · rfl
  · generalize (splitLines newline text).2 = tail at joined plain ⊢
    rcases List.eq_nil_or_concat tail with rfl | ⟨front, last, rfl⟩
    · rfl
    · rw [joined, List.concat_eq_append, ← List.append_assoc, List.getLast?_concat] at ends
      exact absurd (Option.some.inj ends).symm fun same => plain (by simp [same])

/-- The lines of a text that is empty or ends with a newline stay the same when more follows. -/
theorem lines_append {newline mark : Symbol} {front : List Symbol} (back : List Symbol)
    (closed : front = [] ∨ front.getLast? = some newline) :
    lines newline mark (front ++ back) = lines newline mark front ++ lines newline mark back := by
  obtain ⟨joined, plain, -⟩ := split_lines_joined newline front
  have ends := split_lines_of_closed closed
  rw [ends, List.append_nil] at joined
  have split := split_lines_append back plain
  rw [← joined] at split
  simp [lines, split, ends]

theorem split_lines_of_not_mem {newline : Symbol} {text : List Symbol} (whole : newline ∉ text) :
    splitLines newline text = ([], text) := by
  induction text with
  | nil => rfl
  | cons symbol rest induction =>
      have different : symbol ≠ newline := fun same => whole (by simp [same])
      rw [splitLines, induction fun member => whole (List.mem_cons_of_mem _ member)]
      simp [different]

theorem lines_of_not_mem {newline mark : Symbol} {text : List Symbol} (some : text ≠ [])
    (whole : newline ∉ text) : lines newline mark text = [text] := by
  simp [lines, split_lines_of_not_mem whole, some]

theorem drop_last_eq (mark : Symbol) (line : List Symbol) :
    dropLast mark line = if line.getLast? = some mark then line.dropLast else line := by
  fun_induction dropLast mark line with
  | case1 => rfl
  | case2 => simp
  | case3 symbol different => simp [different]
  | case4 symbol next rest induction =>
      rw [induction, List.getLast?_cons_cons]
      split <;> simp

theorem mem_of_mem_split_lines {newline symbol : Symbol} {text line : List Symbol}
    (member : line ∈ (splitLines newline text).1 ∨ line = (splitLines newline text).2)
    (inside : symbol ∈ line) : symbol ∈ text := by
  induction text generalizing line with
  | nil => rcases member with listed | rfl <;> simp_all [splitLines]
  | cons first rest induction =>
      rw [splitLines] at member
      obtain ⟨whole, tail⟩ := splitLines newline rest
      grind

theorem mem_of_mem_drop_last {mark symbol : Symbol} {line : List Symbol}
    (inside : symbol ∈ dropLast mark line) : symbol ∈ line := by
  fun_induction dropLast mark line with
  | case1 => exact inside
  | case2 => simp at inside
  | case3 => exact inside
  | case4 first next rest induction =>
      rcases List.mem_cons.mp inside with rfl | later
      · exact List.mem_cons_self
      · exact List.mem_cons_of_mem _ (induction later)

theorem mem_of_mem_lines {newline mark symbol : Symbol} {text line : List Symbol}
    (member : line ∈ lines newline mark text) (inside : symbol ∈ line) : symbol ∈ text := by
  simp only [lines, List.mem_append, List.mem_map] at member
  rcases member with ⟨whole, listed, rfl⟩ | last
  · exact mem_of_mem_split_lines (.inl listed) (mem_of_mem_drop_last inside)
  · split at last
    · simp at last
    · exact mem_of_mem_split_lines (.inr (List.mem_singleton.mp last)) inside

end RouteManifest.Text
