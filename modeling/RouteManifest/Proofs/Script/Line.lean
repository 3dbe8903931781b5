import RouteManifest.Proofs.Script.Label
import RouteManifest.Script.Text

/-!
The written line of an outline entry. It is read back as the entry exactly when its label
is restorable: a name that begins with a space would change the indentation or vanish, one
that begins with a tab is refused, and blanks at the end of the line are dropped.
-/

namespace RouteManifest.Script

open RouteManifest.Text

def OutlineEntry.line (entry : OutlineEntry) : List Char :=
  List.replicate (levelWidth * entry.depth) ' ' ++ entry.label.write

theorem Label.write_tail (label : Label) :
    label.write = writeName label.name.toList ∨
      ∃ tail, label.write = writeName label.name.toList ++ ':' :: tail := by
  obtain ⟨name, value⟩ := label
  cases value with
  | none => exact .inl (List.append_nil _)
  | some value => exact .inr ⟨writeValue value, rfl⟩

theorem starts_indented_append {front : List Char} (back : List Char) (some : front ≠ []) :
    startsIndented (front ++ back) = startsIndented front := by
  cases front with
  | nil => exact absurd rfl some
  | cons => rfl

theorem Label.starts_indented_write (label : Label) :
    startsIndented label.write =
      (isPlainName label.name.toList && startsIndented label.name.toList) := by
  rw [Label.write, write_name_eq]
  cases plainName : isPlainName label.name.toList with
  | true =>
      have some : label.name.toList ≠ [] := by
        intro none
        simp [isPlainName, none] at plainName
      exact starts_indented_append _ some
  | false => rfl

theorem not_space_of_not_indented {text : List Char} (flush : startsIndented text = false) :
    text.head? ≠ some ' ' ∧ text.head? ≠ some '\t' := by
  constructor <;> intro first <;> simp [startsIndented, first] at flush

theorem drop_spaces_of_not_space {text : List Char} (flush : text.head? ≠ some ' ') :
    text.dropWhile isSpace = text ∧ text.takeWhile isSpace = [] := by
  cases text with
  | nil => exact ⟨rfl, rfl⟩
  | cons character rest =>
      have different : character ≠ ' ' := fun same => flush (by simp [same])
      have stays : ¬ isSpace character = true := by simpa [isSpace] using different
      exact ⟨List.dropWhile_cons_of_neg stays, List.takeWhile_cons_of_neg stays⟩

theorem replicate_space (count : Nat) :
    ∀ character ∈ List.replicate count ' ', isSpace character = true := by
  intro character member
  rw [List.eq_of_mem_replicate member]
  rfl

theorem OutlineEntry.unindented_line (entry : OutlineEntry) :
    unindented entry.line = entry.label.write.dropWhile isSpace :=
  List.dropWhile_append_of_pos (replicate_space _)

theorem OutlineEntry.unindented_line_of_flush {entry : OutlineEntry}
    (flush : startsIndented entry.label.write = false) :
    unindented entry.line = entry.label.write := by
  rw [entry.unindented_line]
  exact (drop_spaces_of_not_space (not_space_of_not_indented flush).1).1

theorem OutlineEntry.indentation_line {entry : OutlineEntry}
    (flush : startsIndented entry.label.write = false) :
    indentation entry.line = levelWidth * entry.depth := by
  have stops := (drop_spaces_of_not_space (not_space_of_not_indented flush).1).2
  rw [indentation, OutlineEntry.line, List.takeWhile_append_of_pos (replicate_space _), stops,
    List.append_nil, List.length_replicate]

theorem Label.Restorable.flush {label : Label} (restorable : label.Restorable) :
    startsIndented label.write = false := by
  rw [label.starts_indented_write]
  cases plainName : isPlainName label.name.toList with
  | true => simpa using restorable.name_start plainName
  | false => rfl

theorem Label.Restorable.not_blank {label : Label} (restorable : label.Restorable) :
    isBlankText label.write = false := by
  apply Bool.eq_false_iff.mpr
  intro blank
  have all := List.all_eq_true.mp blank
  cases plainName : isPlainName label.name.toList with
  | false =>
      have quote : '"' ∈ label.write := by
        rw [Label.write, write_name_eq, plainName]
        simp [Quoted.encode]
      exact absurd (all '"' quote) (by decide)
  | true =>
      rcases label.write_tail with alone | ⟨tail, followed⟩
      · -- Without a value the name is the whole line, and its last character is not blank.
        obtain ⟨name, value⟩ := label
        cases value with
        | some value =>
            exact absurd (all ':' (List.mem_append_right _ List.mem_cons_self)) (by decide)
        | none =>
            rw [alone, write_name_eq, plainName] at all
            have kept := restorable.name_end plainName rfl
            cases last : name.toList.getLast? with
            | none =>
                rw [List.getLast?_eq_none_iff.mp last] at plainName
                exact absurd plainName (by decide)
            | some character =>
                have blankEnd := all character (List.mem_of_getLast? last)
                exact kept (by simpa [endsBlank, last] using blankEnd)
      · have colon : ':' ∈ label.write := by
          rw [followed]
          exact List.mem_append_right _ List.mem_cons_self
        exact absurd (all ':' colon) (by decide)

theorem starts_comment_append_colon {name : List Char} (tail : List Char)
    (noComment : startsComment name = false) : startsComment (name ++ ':' :: tail) = false := by
  rw [starts_comment_eq] at noComment ⊢
  cases name with
  | nil => rfl
  | cons first rest =>
      cases rest with
      | nil => simp [List.isPrefixOf]
      | cons second others => simpa [List.isPrefixOf] using noComment

theorem Label.starts_comment_write (label : Label) : startsComment label.write = false := by
  have name : startsComment (writeName label.name.toList) = false := by
    rw [write_name_eq]
    cases plainName : isPlainName label.name.toList with
    | false => rfl
    | true =>
        simp only [isPlainName, Bool.and_eq_true, Bool.not_eq_true'] at plainName
        rw [if_pos rfl, starts_comment_eq]
        exact plainName.2
  rcases label.write_tail with alone | ⟨tail, followed⟩
  · rw [alone, name]
  · rw [followed, starts_comment_append_colon tail name]

theorem OutlineEntry.read_line {entry : OutlineEntry} {level : Nat}
    (exact : entry.label.value.any Value.isDecimal = false) (restorable : entry.label.Restorable)
    (le : entry.depth ≤ level) :
    isSignificant entry.line = true ∧ readLine level entry.line = .ok entry := by
  have flush := restorable.flush
  have text := OutlineEntry.unindented_line_of_flush flush
  have spaces := OutlineEntry.indentation_line flush
  have kept : entry.label.restored = entry.label :=
    Label.restored_eq_self_iff.mpr ⟨restorable.name_end, restorable.value_end⟩
  constructor
  · simp [isSignificant, text, restorable.not_blank, entry.label.starts_comment_write]
  · have noTab := (not_space_of_not_indented flush).2
    have divided : levelWidth * entry.depth / levelWidth = entry.depth :=
      Nat.mul_div_cancel_left _ (by decide)
    simp only [readLine, text, spaces, Nat.mul_mod_right, divided]
    rw [if_neg (by simpa using noTab), if_neg (by simp), if_neg (by omega),
      Label.read_write exact, kept]
    rfl

theorem read_line_eq_ok_iff {level : Nat} {line : List Char} {entry : OutlineEntry} :
    readLine level line = .ok entry ↔
      (unindented line).head? ≠ some '\t' ∧ indentation line = levelWidth * entry.depth ∧
        entry.depth ≤ level ∧ Label.read (unindented line) = .ok entry.label := by
  obtain ⟨depth, label⟩ := entry
  have divides (spaces : Nat) : spaces = levelWidth * depth ↔
      spaces % levelWidth = 0 ∧ spaces / levelWidth = depth := by
    simp only [levelWidth]
    omega
  simp only [readLine, beq_iff_eq, divides]
  by_cases tab : (unindented line).head? = some '\t'
  · simp [tab]
  rw [if_neg tab]
  by_cases even : indentation line % levelWidth = 0
  case neg =>
    rw [if_pos even]
    simp [even]
  rw [if_neg (not_not_intro even)]
  by_cases skipped : level < indentation line / levelWidth
  · rw [if_pos skipped]
    simp only [reduceCtorEq, false_iff, not_and]
    rintro _ ⟨_, rfl⟩ le
    omega
  · rw [if_neg skipped]
    cases read : Label.read (unindented line) with
    | error fault => simp [Except.map]
    | ok found =>
        simp only [Except.map, Except.ok.injEq, OutlineEntry.mk.injEq]
        constructor
        · rintro ⟨rfl, rfl⟩
          exact ⟨tab, ⟨even, rfl⟩, Nat.le_of_not_lt skipped, rfl⟩
        · rintro ⟨-, ⟨-, rfl⟩, -, rfl⟩
          exact ⟨rfl, rfl⟩

theorem Label.name_is_start {text : List Char} {label : Label}
    (unquoted : startsQuoted text = false) (read : Label.read text = .ok label) :
    label.name.toList <+: text := by
  have named : ∃ name rest, readName text = .ok (name, rest) ∧ name <+: text := by
    rw [readName, unquoted]
    cases split : splitColon? text with
    | none => exact ⟨_, _, rfl, drop_end_while_is_start text⟩
    | some parts =>
        refine ⟨_, _, rfl, ?_⟩
        unfold splitColon? at split
        split at split
        · simp at split
        · cases split
          exact List.takeWhile_prefix _
  obtain ⟨name, rest, split, start⟩ := named
  rw [Label.read, split] at read
  have same : label.name = String.ofList name := by
    simp only [bind, Except.bind] at read
    split at read
    · cases read
      rfl
    · split at read
      · cases read
      · cases read
        rfl
    · cases read
  rw [same, String.toList_ofList]
  exact start

theorem not_space_of_drop_spaces (text : List Char) :
    (text.dropWhile isSpace).head? ≠ some ' ' := by
  intro first
  have stops := List.head?_dropWhile_not isSpace text
  rw [first] at stops
  exact absurd stops (by decide)

theorem Label.unquoted_of_plain_name {label : Label}
    (plainName : isPlainName label.name.toList = true) :
    startsQuoted (label.write.dropWhile isSpace) = false := by
  obtain ⟨-, noQuote, -⟩ := not_mem_of_is_plain (is_plain_of_is_plain_name plainName)
  apply Bool.eq_false_iff.mpr
  intro quoted
  have first : (label.write.dropWhile isSpace).head? = some '"' := by
    simpa [startsQuoted] using quoted
  have name : writeName label.name.toList = label.name.toList := by
    rw [write_name_eq, plainName]
    rfl
  have inName (tail : List Char) (colon : tail.head?.all (· == ':') = true) :
      ((label.name.toList ++ tail).dropWhile isSpace).head? ≠ some '"' := by
    intro head
    rw [List.dropWhile_append] at head
    split at head
    · cases tail with
      | nil => simp at head
      | cons character rest =>
          have same : character = ':' := by simpa using colon
          subst same
          exact absurd head (by simp [isSpace])
    · next some =>
        rw [List.head?_append] at head
        cases kept : label.name.toList.dropWhile isSpace with
        | nil => simp [kept] at some
        | cons character rest =>
            have quote : character = '"' := by simpa [kept] using head
            have inside : character ∈ label.name.toList.dropWhile isSpace := by simp [kept]
            exact noQuote (quote ▸ List.dropWhile_subset isSpace inside)
  rcases label.write_tail with alone | ⟨tail, followed⟩
  · rw [alone, name] at first
    exact inName [] rfl (by simpa using first)
  · rw [followed, name] at first
    exact inName (':' :: tail) rfl first

/-- Only restorable labels are read back from their lines. -/
theorem OutlineEntry.restorable_of_read_line {entry : OutlineEntry} {level : Nat}
    (exact : entry.label.value.any Value.isDecimal = false)
    (read : readLine level entry.line = .ok entry) : entry.label.Restorable := by
  obtain ⟨noTab, -, -, readLabel⟩ := read_line_eq_ok_iff.mp read
  rw [entry.unindented_line] at noTab readLabel
  have start : isPlainName entry.label.name.toList →
      ¬ startsIndented entry.label.name.toList := by
    intro plainName indented
    have unquoted := Label.unquoted_of_plain_name plainName
    have inText := Label.name_is_start unquoted readLabel
    have flushText := not_space_of_drop_spaces entry.label.write
    -- The name is the start of what is left without spaces, where no space or tab can stand.
    cases name : entry.label.name.toList with
    | nil => simp [name, isPlainName] at plainName
    | cons first rest =>
        obtain ⟨more, shape⟩ := inText
        rw [name] at shape
        rw [← shape] at noTab flushText
        simp [startsIndented, name] at indented
        rcases indented with rfl | rfl
        · exact flushText rfl
        · exact noTab rfl
  have flush : startsIndented entry.label.write = false := by
    rw [entry.label.starts_indented_write]
    cases plainName : isPlainName entry.label.name.toList with
    | true => simpa using start plainName
    | false => rfl
  rw [(drop_spaces_of_not_space (not_space_of_not_indented flush).1).1,
    Label.read_write exact] at readLabel
  have ends := Label.restored_eq_self_iff.mp (Except.ok.inj readLabel)
  exact ⟨start, ends.1, ends.2⟩

theorem ends_blank_append (front : List Char) {back : List Char} (some : back ≠ []) :
    endsBlank (front ++ back) = endsBlank back := by
  obtain ⟨start, last, rfl⟩ := (List.eq_nil_or_concat back).resolve_left some
  simp [endsBlank, List.getLast?_append]

theorem read_value_unquoted_end {text : List Char} {content : String} (noQuote : '"' ∉ text)
    (solid : endsBlank text = false) (read : readValue text = .ok (.string content)) :
    endsBlank content.toList = false := by
  rw [readValue, starts_quoted_of_not_mem noQuote] at read
  cases split : splitColon? text with
  | none =>
      simp only [split, Bool.false_eq_true, if_false, Except.ok.injEq, Value.string.injEq] at read
      rw [← read, String.toList_ofList, solid]
  | some parts =>
      obtain ⟨typeName, tail⟩ := parts
      have shape := (split_colon_eq_some_iff.mp split).1
      have noQuoteTail : '"' ∉ tail := fun member => noQuote (by simp [shape, member])
      have solidTail : endsBlank tail = false := by
        cases tail with
        | nil => rfl
        | cons first rest =>
            rw [shape, ← List.singleton_append, ← List.append_assoc,
              ends_blank_append _ (by simp)] at solid
            exact solid
      simp only [split, Bool.false_eq_true, if_false] at read
      cases typed : readTyped? (String.ofList typeName) tail with
      | none =>
          simp only [typed, Option.getD_none, Except.ok.injEq, Value.string.injEq] at read
          rw [← read, String.toList_ofList, solid]
      | some result =>
          simp only [typed, Option.getD_some] at read
          subst read
          have plain : content = String.ofList tail := by
            simp only [readTyped?, readFlag, starts_quoted_of_not_mem noQuoteTail] at typed
            grind
          rw [plain, String.toList_ofList, solidTail]

theorem Label.restorable_of_unquoted {text : List Char} {label : Label} (noQuote : '"' ∉ text)
    (flush : startsIndented text = false) (read : Label.read text = .ok label) :
    label.Restorable := by
  have unquoted := starts_quoted_of_not_mem noQuote
  obtain ⟨more, shape⟩ := Label.name_is_start unquoted read
  have start : isPlainName label.name.toList → ¬ startsIndented label.name.toList := by
    intro plainName indented
    have some : label.name.toList ≠ [] := by
      intro none
      simp [isPlainName, none] at plainName
    rw [← shape, starts_indented_append more some] at flush
    exact absurd indented (by simp [flush])
  rw [Label.read, readName, unquoted] at read
  cases split : splitColon? text with
  | none =>
      simp only [split, Bool.false_eq_true, if_false, bind, Except.bind, trimRight,
        dropEndWhile, Except.ok.injEq] at read
      subst read
      refine ⟨start, fun _ _ => ?_, fun _ value => by simp at value⟩
      rw [String.toList_ofList, endsBlank, drop_end_while_getLast]
      simp
  | some parts =>
      obtain ⟨name, tail⟩ := parts
      have inText := (split_colon_eq_some_iff.mp split).1
      have kept : trimRight (':' :: tail) = ':' :: trimRight tail := trim_right_cons (by decide)
      simp only [split, Bool.false_eq_true, if_false, bind, Except.bind, kept] at read
      cases readBack : readValue (trimRight tail) with
      | error fault => simp [readBack] at read
      | ok value =>
          simp only [readBack, Except.ok.injEq] at read
          subst read
          refine ⟨start, fun _ value => by simp at value, fun content same _ => ?_⟩
          have noQuoteTail : '"' ∉ trimRight tail := fun member =>
            noQuote (by simp [inText, (drop_end_while_is_start tail).subset member])
          simp only [Option.some.injEq] at same
          subst same
          simp [read_value_unquoted_end noQuoteTail (drop_end_while_getLast tail) readBack]

end RouteManifest.Script
