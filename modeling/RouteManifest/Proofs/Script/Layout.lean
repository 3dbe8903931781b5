import RouteManifest.Proofs.Script.Source
import RouteManifest.Proofs.Text.Quoted

/-!
Layout that makes no difference. Blanks at the end of a line are not seen by the reader, and lines
that stand for no node only shift the numbers of the lines behind them. So a source can be padded,
given other line ends, and filled up with blank lines and comments: it is read as the same script,
or refused for the same cause in the same line.
-/

namespace RouteManifest.Script

open RouteManifest.Text

section Padding

variable {padding : List Char}

theorem not_mem_of_blank {character : Char} (blank : isBlankText padding = true)
    (solid : isBlank character = false) : character ∉ padding := by
  intro member
  rw [List.all_eq_true.mp blank character member] at solid
  cases solid

theorem trim_right_append_blank (text : List Char) (blank : isBlankText padding = true) :
    trimRight (text ++ padding) = trimRight text :=
  drop_end_while_append_of_dropped text blank

theorem read_name_append_blank (text : List Char) (blank : isBlankText padding = true) :
    (readName (text ++ padding)).map (fun (name, rest) => (name, trimRight rest)) =
      (readName text).map fun (name, rest) => (name, trimRight rest) := by
  have noQuote := not_mem_of_blank blank (show isBlank '"' = false by decide)
  have noColon := not_mem_of_blank blank (show isBlank ':' = false by decide)
  have sameStart : startsQuoted (text ++ padding) = startsQuoted text := by
    cases text with
    | nil => exact starts_quoted_of_not_mem noQuote
    | cons => rfl
  rw [readName, readName, sameStart]
  split
  · rw [Quoted.decode_append text noQuote]
    cases Quoted.decode text with
    | none => rfl
    | some parts => simp [Except.map, trim_right_append_blank parts.2 blank]
  · cases split : splitColon? text with
    | none =>
        have absent := split_colon_eq_none_iff.mp split
        rw [split_colon_of_not_mem (by simp [absent, noColon])]
        simp [Except.map, trim_right_append_blank text blank]
    | some parts =>
        obtain ⟨name, tail⟩ := parts
        obtain ⟨rfl, plain⟩ := split_colon_eq_some_iff.mp split
        rw [List.append_assoc, List.cons_append, split_colon_append _ plain]
        have trimmed := trim_right_append_blank (':' :: tail) blank
        rw [List.cons_append] at trimmed
        simp [Except.map, trimmed]

theorem Label.read_append_blank (text : List Char) (blank : isBlankText padding = true) :
    Label.read (text ++ padding) = Label.read text := by
  have same := read_name_append_blank text blank
  rw [Label.read, Label.read]
  cases padded : readName (text ++ padding) with
  | error fault =>
      cases plain : readName text with
      | error other =>
          simp only [padded, plain, Except.map, Except.error.injEq] at same
          rw [same]
      | ok parts => simp [padded, plain, Except.map] at same
  | ok parts =>
      cases plain : readName text with
      | error other => simp [padded, plain, Except.map] at same
      | ok others =>
          simp only [padded, plain, Except.map, Except.ok.injEq, Prod.mk.injEq] at same
          simp only [bind, Except.bind, same]

theorem is_blank_append (text : List Char) (blank : isBlankText padding = true) :
    isBlankText (text ++ padding) = isBlankText text := by
  have all : padding.all isBlank = true := blank
  rw [isBlankText, List.all_append, all, Bool.and_true, isBlankText]

theorem starts_comment_append_blank (text : List Char) (blank : isBlankText padding = true) :
    startsComment (text ++ padding) = startsComment text := by
  have noSlash := not_mem_of_blank blank (show isBlank '/' = false by decide)
  cases text with
  | nil =>
      rw [List.nil_append]
      cases padding with
      | nil => rfl
      | cons first others =>
          have other : first ≠ '/' := fun same => noSlash (by simp [same])
          simp [starts_comment_eq, List.isPrefixOf, Ne.symm other]
  | cons first rest =>
      cases rest with
      | cons second others => simp [starts_comment_eq, List.isPrefixOf]
      | nil =>
          cases padding with
          | nil => rfl
          | cons second others =>
              have other : second ≠ '/' := fun same => noSlash (by simp [same])
              simp [starts_comment_eq, List.isPrefixOf, Ne.symm other]

theorem is_blank_unindented {line : List Char} (blank : isBlankText line = true) :
    isBlankText (unindented line) = true :=
  List.all_eq_true.mpr fun character member =>
    List.all_eq_true.mp blank character (List.dropWhile_subset isSpace member)

theorem unindented_append {line : List Char} (padding : List Char) (some : unindented line ≠ []) :
    unindented (line ++ padding) = unindented line ++ padding ∧
      indentation (line ++ padding) = indentation line := by
  have stops : (line.takeWhile isSpace).length ≠ line.length := by
    intro all
    have whole := congrArg List.length (List.takeWhile_append_dropWhile (p := isSpace) (l := line))
    rw [List.length_append, all] at whole
    exact some (List.length_eq_zero_iff.mp (by rw [unindented]; omega))
  have nonempty : (line.dropWhile isSpace).isEmpty = false := by
    simpa [unindented] using some
  constructor
  · rw [unindented, List.dropWhile_append, nonempty]
    rfl
  · rw [indentation, List.takeWhile_append, if_neg stops, indentation]

theorem is_significant_append_blank (line : List Char) (blank : isBlankText padding = true) :
    isSignificant (line ++ padding) = isSignificant line := by
  by_cases spaces : unindented line = []
  · have gone : isBlankText (unindented (line ++ padding)) = true := by
      rw [unindented] at spaces
      rw [unindented, List.dropWhile_append, spaces]
      exact is_blank_unindented blank
    rw [isSignificant, gone, isSignificant, spaces]
    rfl
  · rw [isSignificant, (unindented_append padding spaces).1, is_blank_append _ blank,
      starts_comment_append_blank _ blank, isSignificant]

theorem unindented_ne_nil {line : List Char} (significant : isSignificant line = true) :
    unindented line ≠ [] := by
  intro spaces
  rw [isSignificant, spaces] at significant
  cases significant

theorem read_line_append_blank {level : Nat} {line : List Char}
    (significant : isSignificant line = true) (blank : isBlankText padding = true) :
    readLine level (line ++ padding) = readLine level line := by
  have some := unindented_ne_nil significant
  obtain ⟨text, spaces⟩ := unindented_append padding some
  have first : (unindented line ++ padding).head? = (unindented line).head? := by
    rw [List.head?_append, Option.or_of_isSome (List.isSome_head?.mpr some)]
  rw [readLine, text, spaces, first, Label.read_append_blank _ blank, readLine]

end Padding

/-- A line is another one with blanks behind it. -/
def IsPadded (line padded : List Char) : Prop :=
  ∃ padding, isBlankText padding = true ∧ padded = line ++ padding

theorem read_lines_padded {number level : Nat} {texts others : List (List Char)}
    (padded : List.Forall₂ IsPadded texts others) :
    readLines number level others = readLines number level texts := by
  induction padded generalizing number level with
  | nil => rfl
  | cons first later induction =>
      obtain ⟨padding, blank, rfl⟩ := first
      rw [readLines, readLines, is_significant_append_blank _ blank]
      split
      · next significant =>
          rw [read_line_append_blank significant blank]
          split
          · rfl
          · rw [induction]
      · exact induction

/-- A blank line, or a comment behind any number of spaces. -/
def IsLayout (line : List Char) : Prop :=
  isBlankText line = true ∨ ∃ count rest, line = List.replicate count ' ' ++ '/' :: '/' :: rest

theorem IsLayout.not_significant {line : List Char} (layout : IsLayout line) :
    isSignificant line = false := by
  rcases layout with blank | ⟨count, rest, rfl⟩
  · rw [isSignificant, is_blank_unindented blank]
    rfl
  · have text : unindented (List.replicate count ' ' ++ '/' :: '/' :: rest) = '/' :: '/' :: rest :=
      List.dropWhile_append_of_pos (replicate_space count)
    rw [isSignificant, text]
    rfl

/-- A line of the source that is kept, or one that is put between such lines. -/
inductive LineEdit
  | kept (line : List Char)
  | added (line : List Char)

namespace LineEdit

def before? : LineEdit → Option (List Char)
  | kept line => some line
  | added _ => none

def after : LineEdit → List Char
  | kept line => line
  | added line => line

def isAdded : LineEdit → Bool
  | kept _ => false
  | added _ => true

/-- The lines in front of the edits, and the lines that come of them. -/
def linesBefore (edits : List LineEdit) : List (List Char) := edits.filterMap before?

def linesAfter (edits : List LineEdit) : List (List Char) := edits.map after

theorem lines_before_kept (line : List Char) (edits : List LineEdit) :
    linesBefore (.kept line :: edits) = line :: linesBefore edits := rfl

theorem lines_before_added (line : List Char) (edits : List LineEdit) :
    linesBefore (.added line :: edits) = linesBefore edits := rfl

theorem lines_after_cons (edit : LineEdit) (edits : List LineEdit) :
    linesAfter (edit :: edits) = edit.after :: linesAfter edits := rfl

theorem lines_before_length (edits : List LineEdit) :
    (linesBefore edits).length + edits.countP isAdded = edits.length := by
  induction edits with
  | nil => rfl
  | cons edit edits induction =>
      cases edit with
      | kept line =>
          simp only [linesBefore, List.filterMap_cons, before?, List.length_cons,
            List.countP_cons, isAdded] at induction ⊢
          simp
          omega
      | added line =>
          simp only [linesBefore, List.filterMap_cons, before?, List.length_cons,
            List.countP_cons, isAdded, if_true] at induction ⊢
          omega

end LineEdit

/-- Two readings of a source, before and after some edits: both give the same entries, or both
stop at the same kept line. -/
inductive ReadAlike (edits : List LineEdit) (number shift : Nat) :
    Except ScriptFault (List OutlineEntry) → Except ScriptFault (List OutlineEntry) → Prop
  | read (entries : List OutlineEntry) : ReadAlike edits number shift (.ok entries) (.ok entries)
  | stopped (front : List LineEdit) {back : List LineEdit} {line : List Char} {one two : Nat}
      (cause : LineFault)
      (split : edits = front ++ .kept line :: back)
      (before : one = number + (LineEdit.linesBefore front).length)
      (after : two = number + shift + front.length) :
      ReadAlike edits number shift (.error ⟨one, cause⟩) (.error ⟨two, cause⟩)

namespace ReadAlike

variable {edits : List LineEdit} {number shift : Nat} {line : List Char}
  {one two : Except ScriptFault (List OutlineEntry)}

theorem behind_added (alike : ReadAlike edits number (shift + 1) one two) :
    ReadAlike (.added line :: edits) number shift one two := by
  cases alike with
  | read entries => exact .read entries
  | stopped front cause split before after =>
      refine .stopped (.added line :: front) cause (by rw [split]; rfl) before ?_
      rw [after, List.length_cons]
      omega

theorem behind_kept (alike : ReadAlike edits (number + 1) shift one two) :
    ReadAlike (.kept line :: edits) number shift one two := by
  cases alike with
  | read entries => exact .read entries
  | stopped front cause split before after =>
      refine .stopped (.kept line :: front) cause (by rw [split]; rfl) ?_ ?_
      · rw [before, LineEdit.lines_before_kept, List.length_cons]
        omega
      · rw [after, List.length_cons]
        omega

theorem read_of_read {entries : List OutlineEntry} (alike : ReadAlike edits number shift one two)
    (read : one = .ok entries) : two = .ok entries := by
  cases alike with
  | read others => exact read
  | stopped => cases read

theorem stopped_of_stopped {place : Nat} {cause : LineFault} (alike : ReadAlike edits 1 0 one two)
    (stopped : one = .error ⟨place, cause⟩) :
    ∃ front line back, edits = front ++ .kept line :: back ∧
      place = (LineEdit.linesBefore front).length + 1 ∧
      two = .error ⟨place + front.countP LineEdit.isAdded, cause⟩ := by
  cases alike with
  | read others => cases stopped
  | @stopped front back line _ _ _ split before after =>
      cases stopped
      have count := LineEdit.lines_before_length front
      refine ⟨front, line, back, split, by omega, ?_⟩
      rw [after, before, ← count]
      congr 2
      omega

theorem cons (entry : OutlineEntry) (alike : ReadAlike edits number shift one two) :
    ReadAlike edits number shift (one.map (entry :: ·)) (two.map (entry :: ·)) := by
  cases alike with
  | read entries => exact .read (entry :: entries)
  | stopped front cause split before after => exact .stopped front cause split before after

end ReadAlike

open LineEdit in
/-- Added lines without nodes change nothing but the number of the line at fault. -/
theorem read_lines_edited {edits : List LineEdit}
    (layout : ∀ line, .added line ∈ edits → IsLayout line) (number shift level : Nat) :
    ReadAlike edits number shift (readLines number level (linesBefore edits))
      (readLines (number + shift) level (linesAfter edits)) := by
  induction edits generalizing number shift level with
  | nil => exact .read []
  | cons edit edits induction =>
      have later := induction fun line member => layout line (List.mem_cons_of_mem _ member)
      cases edit with
      | added line =>
          have skipped := (layout line List.mem_cons_self).not_significant
          rw [lines_before_added, lines_after_cons, readLines, after, skipped]
          exact (later number (shift + 1) level).behind_added
      | kept line =>
          rw [lines_before_kept, lines_after_cons, readLines, readLines, after]
          have shifted : number + shift + 1 = number + 1 + shift := by omega
          rw [shifted]
          split
          · cases readLine level line with
            | error cause => exact .stopped [] cause rfl rfl rfl
            | ok entry => exact ((later (number + 1) shift (entry.depth + 1)).cons entry).behind_kept
          · exact (later (number + 1) shift level).behind_kept

/-- The text with a return mark in front of every newline. -/
def withReturns (text : List Char) : List Char :=
  text.flatMap fun character => if character = '\n' then ['\r', '\n'] else [character]

theorem split_lines_with_returns (text : List Char) :
    splitLines '\n' (withReturns text) =
      ((splitLines '\n' text).1.map (· ++ ['\r']), (splitLines '\n' text).2) := by
  induction text with
  | nil => rfl
  | cons character rest induction =>
      rw [withReturns] at induction
      rw [withReturns, List.flatMap_cons]
      by_cases ends : character = '\n'
      · rw [if_pos ends, List.cons_append, List.singleton_append, splitLines, splitLines,
          induction, ends]
        simp [splitLines]
      · rw [if_neg ends, List.singleton_append, splitLines, induction, splitLines]
        generalize splitLines '\n' rest = split
        obtain ⟨whole, tail⟩ := split
        cases whole <;> simp [ends]

theorem is_padded_refl (line : List Char) : IsPadded line line :=
  ⟨[], rfl, (List.append_nil line).symm⟩

theorem is_padded_drop_last (line : List Char) : IsPadded (dropLast '\r' line) line := by
  rw [drop_last_eq]
  split
  · next last => exact ⟨['\r'], rfl, (List.dropLast_append_getLast? _ last).symm⟩
  · exact is_padded_refl line

theorem lines_with_returns (text : List Char) :
    List.Forall₂ IsPadded (lines '\n' '\r' text) (lines '\n' '\r' (withReturns text)) := by
  have marked (line : List Char) : dropLast '\r' (line ++ ['\r']) = line := by
    simp [drop_last_eq]
  rw [lines, lines, split_lines_with_returns]
  refine List.rel_append ?_ ?_
  · simp only [List.map_map, Function.comp_def, marked, List.forall₂_map_left_iff,
      List.forall₂_map_right_iff, List.forall₂_same]
    exact fun line _ => is_padded_drop_last line
  · exact List.forall₂_same.mpr fun line _ => is_padded_refl line

theorem parse_eq_map (source : String) :
    parse source = (readLines 1 0 (sourceLines source)).map fun entries =>
      { name := "", children := grow entries } := rfl

theorem parse_padded {source other : String}
    (padded : List.Forall₂ IsPadded (sourceLines source) (sourceLines other)) :
    parse other = parse source := by
  rw [parse_eq_map, parse_eq_map, read_lines_padded padded]

open LineEdit in
/-- Layout makes no difference to a script. Blanks behind the lines, so also return marks in front
of the newlines, leave the whole result as it is. Lines that stand for no node leave the script as
it is, and a refusal too, up to the number of the line: that counts the lines added in front. -/
theorem parse_ignores_layout (source other : String) :
    (List.Forall₂ IsPadded (sourceLines source) (sourceLines other) →
      parse other = parse source) ∧
    parse (String.ofList (withReturns source.toList)) = parse source ∧
    ∀ edits : List LineEdit, (∀ line, .added line ∈ edits → IsLayout line) →
      sourceLines source = linesBefore edits → sourceLines other = linesAfter edits →
      (∀ root, parse source = .ok root → parse other = .ok root) ∧
      ∀ number cause, parse source = .error ⟨number, cause⟩ →
        ∃ front line back, edits = front ++ .kept line :: back ∧
          number = (linesBefore front).length + 1 ∧
          parse other = .error ⟨number + front.countP isAdded, cause⟩ := by
  refine ⟨parse_padded, parse_padded ?_, ?_⟩
  · rw [sourceLines, sourceLines, String.toList_ofList]
    exact lines_with_returns source.toList
  · intro edits layout before after
    have alike := read_lines_edited layout 1 0 0
    rw [← before, ← after] at alike
    rw [parse_eq_map, parse_eq_map]
    constructor
    · intro root parsed
      cases read : readLines 1 0 (sourceLines source) with
      | error fault => simp [read, Except.map] at parsed
      | ok entries => rwa [alike.read_of_read read, ← read]
    · intro number cause refused
      cases read : readLines 1 0 (sourceLines source) with
      | ok entries => simp [read, Except.map] at refused
      | error fault =>
          rw [read] at refused
          obtain rfl : fault = ⟨number, cause⟩ := Except.error.inj refused
          obtain ⟨front, line, back, split, place, later⟩ := alike.stopped_of_stopped read
          exact ⟨front, line, back, split, place, by rw [later]; rfl⟩

open LineEdit in
/-- A source with padded lines, one with an added comment, and one that is refused in its second
line, with a comment and a blank line in front of it. -/
theorem parse_ignores_layout_in_sample :
    parse "a \t\n   b: 1\r\n" = parse "a\n   b: 1" ∧
    parse "a\n  // c\n   b: 1" = .ok { name := "", children := [
      { name := "a", children := [Node.ofText "b" " 1"] }] } ∧
    ∃ front line back,
      [added "// c".toList, kept ['a'], added [' '], kept " b".toList] =
        front ++ kept line :: back ∧
      2 = (linesBefore front).length + 1 ∧
      parse "// c\na\n \n b" = .error ⟨2 + front.countP isAdded, .unevenIndentation 1⟩ := by
  refine ⟨?_, ?_, ?_⟩
  · refine (parse_ignores_layout "a\n   b: 1" "a \t\n   b: 1\r\n").1 ?_
    exact .cons ⟨[' ', '\t'], rfl, rfl⟩ (.cons ⟨[], rfl, rfl⟩ .nil)
  · refine ((parse_ignores_layout "a\n   b: 1" "a\n  // c\n   b: 1").2.2
      [kept ['a'], added "  // c".toList, kept "   b: 1".toList] ?_ rfl rfl).1 _ rfl
    intro line member
    obtain rfl : line = "  // c".toList := by simpa using member
    exact .inr ⟨2, " c".toList, rfl⟩
  · refine ((parse_ignores_layout "a\n b" "// c\na\n \n b").2.2 _ ?_ rfl rfl).2 2 _ rfl
    intro line member
    obtain rfl | rfl : line = "// c".toList ∨ line = [' '] := by simpa using member
    · exact .inr ⟨0, " c".toList, rfl⟩
    · exact .inl rfl

end RouteManifest.Script
