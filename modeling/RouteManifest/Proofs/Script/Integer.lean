import RouteManifest.Proofs.Script.Reading
import RouteManifest.Proofs.Script.Grammar

/-!
Integers in scripts. A line with the name of an integer type is read exactly when the text behind
it, without the blanks around it, is a literal of a number of 64 bits, and then as that number.
Every other text is refused, whatever its digits, so no value is ever cut off or taken as a text.
-/

namespace RouteManifest.Script

open RouteManifest.Number RouteManifest.Text

def singleNode (label : Label) : Node :=
  { name := "", children := [{ name := label.name, value := label.value }] }

theorem parse_single_line {line : List Char} (whole : '\n' ∉ line)
    (significant : isSignificant line = true) (flush : startsIndented line = false) :
    parse (String.ofList line) =
      match Label.read line with
      | .ok label => .ok (singleNode label)
      | .error cause => .error ⟨1, cause⟩ := by
  have some : line ≠ [] := by
    rintro rfl
    cases significant
  obtain ⟨noSpace, noTab⟩ := not_space_of_not_indented flush
  obtain ⟨same, noSpaces⟩ := drop_spaces_of_not_space noSpace
  have text : unindented line = line := same
  have spaces : indentation line = 0 := by rw [indentation, noSpaces, List.length_nil]
  rw [parse, readOutline, String.toList_ofList, lines_of_not_mem some whole, readLines,
    if_pos significant, readLine, text, spaces, if_neg (by simpa using noTab), if_neg (by decide),
    if_neg (by decide)]
  cases Label.read line with
  | error cause => rfl
  | ok label => rfl

section Integers

variable {name text : List Char} {typeName : String} {result : Except LineFault Value}

theorem read_label_typed (unquoted : name.head? ≠ some '"') (noColon : ':' ∉ name)
    (typed : readTyped? typeName (trimRight text) = some result) :
    Label.read (name ++ ':' :: (typeName.toList ++ ':' :: text)) =
      result.map fun value => ⟨String.ofList name, some value⟩ := by
  have nameText : SaysName (name ++ ':' :: (typeName.toList ++ ':' :: text)) name
      (':' :: (typeName.toList ++ ':' :: text)) := .before unquoted noColon
  have trimmed : trimRight (':' :: (typeName.toList ++ ':' :: text)) =
      ':' :: (typeName.toList ++ ':' :: trimRight text) := by
    have kept : trimRight (typeName.toList ++ ':' :: text) =
        typeName.toList ++ trimRight (':' :: text) := drop_end_while_append_of_kept _ rfl
    rw [trim_right_cons (by decide), kept, trim_right_cons (by decide)]
  rw [Label.read, nameText.read]
  simp only [bind, Except.bind, trimmed, read_value_typed typed]
  cases result <;> rfl

def integerLine (typeName text : String) : String := "x:" ++ typeName ++ ":" ++ text

theorem parse_integer_line {text : String} (named : typeName ∈ integerNames)
    (whole : '\n' ∉ text.toList) :
    parse (integerLine typeName text) =
      match readInteger (trim text.toList) with
      | .ok number => .ok (singleNode ⟨"x", some (.int number)⟩)
      | .error fault => .error ⟨1,
          .invalidInteger typeName (String.ofList (trimRight text.toList)) fault⟩ := by
  have shape : integerLine typeName text =
      String.ofList ('x' :: ':' :: (typeName.toList ++ ':' :: text.toList)) := by
    apply String.toList_injective
    simp [integerLine]
  have names : ∀ typeName ∈ integerNames, '\n' ∉ typeName.toList := by decide
  have unbroken : '\n' ∉ 'x' :: ':' :: (typeName.toList ++ ':' :: text.toList) := by
    simp [names typeName named, whole]
  have typed := @read_typed_integer typeName (trimRight text.toList) named
  rw [trim_trim_right] at typed
  have read := @read_label_typed ['x'] text.toList typeName _ (by simp) (by simp) typed
  rw [List.singleton_append] at read
  rw [shape, parse_single_line unbroken rfl rfl, read]
  cases readInteger (trim text.toList) with
  | ok number => rfl
  | error fault => rfl

end Integers

theorem parse_written_integer_iff (name : String) (number : Int64) :
    parse (Node.ofValue name (.int number)).toText = .ok (singleNode ⟨name, some (.int number)⟩) ↔
      (isPlainName name.toList → ¬ startsIndented name.toList) := by
  let node : Node := Node.ofValue name (.int number)
  have outline : Node.outlineAll 0 [node] = [⟨0, ⟨name, some (.int number)⟩⟩] := rfl
  have written : node.toText = forestText [node] := by
    rw [Node.toText, forestText, Node.outlineAll, Node.outlineAll, List.append_nil]
  have exact : ∀ entry ∈ Node.outlineAll 0 [node],
      entry.label.value.any Value.isDecimal = false := by
    simp [outline, Value.isDecimal]
  have survives := parse_forest_text_iff exact
  rw [← written, outline, List.forall_mem_singleton] at survives
  refine survives.trans ⟨Label.Restorable.name_start, fun start => ?_⟩
  exact ⟨start, fun _ bare => by simp at bare, fun _ other => by simp at other⟩

/-- Of all texts behind an integer type exactly the literals of 64 bits are read, each as its
number, and every other one is refused in the first line. Every integer that is written in a line
of its own is read back, unless the name in front of it would change the indentation. -/
theorem integers_exact (typeName : String) (named : typeName ∈ integerNames) (text : String)
    (whole : '\n' ∉ text.toList) :
    (∀ number : Int64,
      parse (integerLine typeName text) = .ok (singleNode ⟨"x", some (.int number)⟩) ↔
        SpellsInteger (trim text.toList) number.toInt) ∧
    ((∃ fault, parse (integerLine typeName text) = .error ⟨1,
        .invalidInteger typeName (String.ofList (trimRight text.toList)) fault⟩) ↔
      ∀ value, SpellsInteger (trim text.toList) value →
        ¬ (-0x8000000000000000 ≤ value ∧ value ≤ 0x7FFFFFFFFFFFFFFF)) ∧
    ∀ (name : String) (number : Int64),
      parse (Node.ofValue name (.int number)).toText =
          .ok (singleNode ⟨name, some (.int number)⟩) ↔
        (isPlainName name.toList → ¬ startsIndented name.toList) := by
  have parsed := parse_integer_line named whole
  refine ⟨fun number => ?_, ?_, fun name number => ?_⟩
  · rw [parsed, ← read_integer_eq_ok_iff]
    cases readInteger (trim text.toList) with
    | ok found => simp [singleNode]
    | error fault => simp
  · constructor
    · rintro ⟨fault, failed⟩ value spells ⟨low, high⟩
      rw [parsed, spells.read low (by omega)] at failed
      cases failed
    · intro outside
      cases read : readInteger (trim text.toList) with
      | ok number =>
          have low := number.le_toInt
          have high := number.toInt_lt
          exact absurd ⟨by omega, by omega⟩ (outside _ (read_integer_eq_ok_iff.mp read))
      | error fault => exact ⟨fault, by rw [parsed, read]⟩
  · exact parse_written_integer_iff name number

/-- The least number of 64 bits is read with zeros in front of it, and the number behind the
greatest one is refused. -/
theorem integers_exact_at_limits :
    ("int" ∈ integerNames ∧ '\n' ∉ " -0009223372036854775808\t".toList ∧
      parse (integerLine "int" " -0009223372036854775808\t") =
        .ok (singleNode ⟨"x", some (.int (-0x8000000000000000))⟩)) ∧
    ("long" ∈ integerNames ∧ '\n' ∉ "+9223372036854775808".toList ∧
      ∃ fault, parse (integerLine "long" "+9223372036854775808") =
        .error ⟨1, .invalidInteger "long" "+9223372036854775808" fault⟩) := by
  have named : "int" ∈ integerNames ∧ "long" ∈ integerNames := by decide
  have least : readInteger (trim " -0009223372036854775808\t".toList) =
      .ok (-0x8000000000000000) := rfl
  have beyond : readInteger (trim "+9223372036854775808".toList) = .error .tooLarge := rfl
  have lines := integers_exact "int" named.1 " -0009223372036854775808\t" (by decide)
  have others := integers_exact "long" named.2 "+9223372036854775808" (by decide)
  refine ⟨⟨named.1, by decide, (lines.1 _).mpr (read_integer_eq_ok_iff.mp least)⟩,
    named.2, by decide, others.2.1.mpr ?_⟩
  rintro value spells ⟨low, high⟩
  rw [spells.read low (by omega)] at beyond
  cases beyond

end RouteManifest.Script
