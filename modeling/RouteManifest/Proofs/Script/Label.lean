import RouteManifest.Proofs.Number.Integer
import RouteManifest.Proofs.Text.Trim
import RouteManifest.Script.Label

/-!
What a written label reads back as. Quoted names and texts and all typed values come
back exactly; of a name or text written as it stands, blanks at the end of the line are
lost. The labels that keep all of their name and value are described by their characters
alone, without the writer.
-/

namespace RouteManifest.Script

open RouteManifest.Number RouteManifest.Text

def isPlain (text : List Char) : Bool :=
  text.all fun character => character ∉ [':', '"', '\n', '\r', '\\']

def isPlainName (name : List Char) : Bool :=
  !name.isEmpty && isPlain name && !(['/', '/'].isPrefixOf name)

def startsIndented (text : List Char) : Bool :=
  text.head?.any fun character => character == ' ' || character == '\t'

def endsBlank (text : List Char) : Bool := text.getLast?.any isBlank

/-- The label has no blanks where a reader of its line would drop or refuse them. -/
structure Label.Restorable (label : Label) : Prop where
  name_start : isPlainName label.name.toList → ¬ startsIndented label.name.toList
  name_end : isPlainName label.name.toList → label.value = none → ¬ endsBlank label.name.toList
  value_end : ∀ text, label.value = some (.string text) → isPlain text.toList →
    ¬ endsBlank text.toList

instance (label : Label) : Decidable label.Restorable :=
  decidable_of_iff
    ((isPlainName label.name.toList → ¬ startsIndented label.name.toList) ∧
      (isPlainName label.name.toList → label.value = none → ¬ endsBlank label.name.toList) ∧
      ∀ text ∈ label.value.bind Value.string?, isPlain text.toList → ¬ endsBlank text.toList)
    (by
      have same (text : String) :
          text ∈ label.value.bind Value.string? ↔ label.value = some (.string text) := by
        cases label.value with
        | none => simp
        | some value => cases value <;> simp [Value.string?, eq_comm]
      simp only [same]
      exact ⟨fun ⟨first, second, third⟩ => ⟨first, second, third⟩,
        fun restorable => ⟨restorable.name_start, restorable.name_end, restorable.value_end⟩⟩)

theorem is_plain_eq (text : List Char) : isPlain text = !needsQuotes text := by
  change _ = !text.any fun character => isSpecial character
  simp [isPlain, isSpecial, List.all_eq_not_any_not]

theorem starts_comment_eq (text : List Char) :
    startsComment text = ['/', '/'].isPrefixOf text := by
  unfold startsComment
  split
  · simp
  · next other =>
      refine (Bool.eq_false_iff.mpr fun comment => ?_).symm
      obtain ⟨rest, rfl⟩ := List.isPrefixOf_iff_prefix.mp comment
      exact other rest rfl

theorem write_string_eq (text : List Char) :
    writeString text = if isPlain text then text else Quoted.encode text := by
  rw [writeString, is_plain_eq]
  cases needsQuotes text <;> rfl

theorem write_name_eq (name : List Char) :
    writeName name = if isPlainName name then name else Quoted.encode name := by
  rw [writeName, isPlainName, is_plain_eq, ← starts_comment_eq]
  cases name.isEmpty <;> cases needsQuotes name <;> cases startsComment name <;> rfl

theorem not_mem_of_is_plain {text : List Char} (plain : isPlain text = true) :
    ':' ∉ text ∧ '"' ∉ text ∧ '\n' ∉ text ∧ '\r' ∉ text := by
  have all := List.all_eq_true.mp plain
  refine ⟨?_, ?_, ?_, ?_⟩ <;> intro member <;> simpa using all _ member

theorem is_plain_of_start {front text : List Char} (start : front <+: text)
    (plain : isPlain text = true) : isPlain front = true :=
  List.all_eq_true.mpr fun character member =>
    List.all_eq_true.mp plain character (start.subset member)

theorem starts_quoted_eq_false_iff {text : List Char} :
    startsQuoted text = false ↔ text.head? ≠ some '"' := by
  simp [startsQuoted]

theorem starts_quoted_of_not_mem {text : List Char} (absent : '"' ∉ text) :
    startsQuoted text = false := by
  rw [starts_quoted_eq_false_iff]
  exact fun first => absent (List.mem_of_head? first)

theorem starts_quoted_append_colon {name : List Char} (tail : List Char)
    (unquoted : name.head? ≠ some '"') : startsQuoted (name ++ ':' :: tail) = false := by
  rw [starts_quoted_eq_false_iff]
  cases name with
  | nil => simp
  | cons first rest => exact unquoted

theorem starts_quoted_encode (content rest : List Char) :
    startsQuoted (Quoted.encode content ++ rest) = true := by
  simp [startsQuoted, Quoted.encode]

theorem passes_colon {text : List Char} (absent : ':' ∉ text) :
    ∀ character ∈ text, (!isColon character) = true := by
  intro character member
  have different : character ≠ ':' := fun same => absent (same ▸ member)
  simpa [isColon] using different

theorem split_colon_of_not_mem {text : List Char} (absent : ':' ∉ text) :
    splitColon? text = none := by
  have dropped : (text ++ []).dropWhile (fun character => !isColon character) =
      [].dropWhile (fun character => !isColon character) :=
    List.dropWhile_append_of_pos (passes_colon absent)
  rw [List.append_nil, List.dropWhile_nil] at dropped
  rw [splitColon?, dropped]

theorem split_colon_append {front : List Char} (tail : List Char) (absent : ':' ∉ front) :
    splitColon? (front ++ ':' :: tail) = some (front, tail) := by
  have passed := passes_colon absent
  rw [splitColon?, List.dropWhile_append_of_pos passed, List.takeWhile_append_of_pos passed]
  simp [isColon]

theorem split_colon_eq_some_iff {text front tail : List Char} :
    splitColon? text = some (front, tail) ↔ text = front ++ ':' :: tail ∧ ':' ∉ front := by
  constructor
  · intro split
    unfold splitColon? at split
    split at split
    · cases split
    · next colon rest dropped =>
        cases split
        have stops := List.head?_dropWhile_not (!isColon ·) text
        rw [dropped] at stops
        have isColonMark : colon = ':' := by simpa [isColon] using stops
        refine ⟨?_, fun member => ?_⟩
        · rw [← isColonMark, ← dropped, List.takeWhile_append_dropWhile]
        · simpa [isColon] using List.all_eq_true.mp List.all_takeWhile ':' member
  · rintro ⟨rfl, noColon⟩
    exact split_colon_append tail noColon

theorem split_colon_eq_none_iff {text : List Char} : splitColon? text = none ↔ ':' ∉ text := by
  constructor
  · intro split member
    obtain ⟨front, tail, rfl, noColon⟩ := List.eq_append_cons_of_mem member
    rw [split_colon_append tail noColon] at split
    cases split
  · exact split_colon_of_not_mem

theorem read_name_encode (content rest : List Char) :
    readName (Quoted.encode content ++ rest) = .ok (content, rest) := by
  rw [readName, if_pos (starts_quoted_encode content rest), Quoted.decode_encode]

theorem read_name_write_append (name tail : List Char) :
    readName (writeName name ++ ':' :: tail) = .ok (name, ':' :: tail) := by
  rw [write_name_eq]
  split
  · next plainName =>
      simp only [isPlainName, Bool.and_eq_true] at plainName
      obtain ⟨noColon, noQuote, -⟩ := not_mem_of_is_plain plainName.1.2
      have unquoted : name.head? ≠ some '"' := fun first => noQuote (List.mem_of_head? first)
      rw [readName, starts_quoted_append_colon tail unquoted, split_colon_append tail noColon]
      rfl
  · exact read_name_encode name _

theorem read_name_write (name : List Char) :
    readName (writeName name) =
      .ok (if isPlainName name then trimRight name else name, []) := by
  rw [write_name_eq]
  split
  · next plainName =>
      simp only [isPlainName, Bool.and_eq_true] at plainName
      obtain ⟨noColon, noQuote, -⟩ := not_mem_of_is_plain plainName.1.2
      rw [readName, starts_quoted_of_not_mem noQuote, split_colon_of_not_mem noColon]
      rfl
  · simpa using read_name_encode name []

def Value.restored : Value → Value
  | .string text =>
      .string (if isPlain text.toList then String.ofList (trimRight text.toList) else text)
  | value => value

theorem is_blank_of_is_digit {character : Char} (digit : character.isDigit = true) :
    isBlank character = false := by
  obtain ⟨low, high⟩ := Char.isDigit_iff_toNat.mp digit
  have small : character.toNat < 58 := Nat.lt_succ_of_le high
  have large : 48 ≤ character.toNat := low
  simp only [isBlank, blankRanges, List.any_cons, List.any_nil, Bool.or_eq_false_iff,
    Bool.and_eq_false_iff, decide_eq_false_iff_not, and_true]
  omega

theorem write_integer_solid (value : Int) :
    ∀ character ∈ writeInteger value, isBlank character = false := by
  intro character member
  rcases mem_write_integer member with rfl | digit
  · decide
  · exact is_blank_of_is_digit digit

theorem trim_right_of_solid {text : List Char}
    (solid : ∀ character ∈ text, isBlank character = false) : trimRight text = text := by
  apply drop_end_while_eq_self_iff.mpr
  cases last : text.getLast? with
  | none => rfl
  | some character => exact solid character (List.mem_of_getLast? last)

theorem read_literal_encode (content : List Char) :
    readLiteral (Quoted.encode content) = .ok (String.ofList content) := by
  have decoded := Quoted.decode_encode content []
  rw [List.append_nil] at decoded
  rw [readLiteral, decoded]
  rfl

theorem read_value_write_int (number : Int64) :
    readValue (trimRight (writeValue (.int number))) = .ok (.int number) := by
  have solid := write_integer_solid number.toInt
  have kept : trimRight (writeValue (.int number)) = writeValue (.int number) := by
    apply trim_right_of_solid
    intro character member
    simp only [writeValue, typeName?, List.cons_append, List.nil_append, List.mem_cons,
      Value.write] at member
    rcases member with rfl | rfl | rfl | rfl | rfl | digit
    iterate 5 decide
    exact solid character digit
  have split : splitColon? (writeValue (.int number)) =
      some (['l', 'o', 'n', 'g'], writeInteger number.toInt) :=
    split_colon_append (writeInteger number.toInt) (by decide)
  have plainStart : startsQuoted (writeValue (.int number)) = false := rfl
  have typed : readTyped? (String.ofList ['l', 'o', 'n', 'g']) (writeInteger number.toInt) =
      some (.ok (.int number)) := by
    have keyword : String.ofList ['l', 'o', 'n', 'g'] = "long" := by decide
    simp [readTyped?, keyword, trim_of_solid solid, read_integer_write_integer]
  rw [kept, readValue, plainStart, split]
  simp [typed]

theorem read_value_write_string (text : String) :
    readValue (trimRight (writeValue (.string text))) =
      .ok (Value.restored (.string text)) := by
  change readValue (trimRight (writeString text.toList)) = _
  rw [write_string_eq, Value.restored]
  split
  · next plain =>
      have start : trimRight text.toList <+: text.toList := drop_end_while_is_start _
      obtain ⟨noColon, noQuote, -⟩ :=
        not_mem_of_is_plain (is_plain_of_start start plain)
      rw [readValue, starts_quoted_of_not_mem noQuote, split_colon_of_not_mem noColon]
      rfl
  · have kept : trimRight (Quoted.encode text.toList) = Quoted.encode text.toList :=
      drop_end_while_append_singleton ('"' :: text.toList.flatMap Quoted.escape) (by decide)
    have quoted := starts_quoted_encode text.toList []
    rw [List.append_nil] at quoted
    rw [kept, readValue, quoted, read_literal_encode]
    simp [Except.map]

theorem read_value_write {value : Value} (exact : value.isDecimal = false) :
    readValue (trimRight (writeValue value)) = .ok value.restored := by
  cases value with
  | bool flag => cases flag <;> rfl
  | int number => exact read_value_write_int number
  | decimal number => simp [Value.isDecimal] at exact
  | string text => exact read_value_write_string text

/-- What reading gives for a written label. -/
def Label.restored (label : Label) : Label where
  name :=
    if label.value.isNone && isPlainName label.name.toList then
      String.ofList (trimRight label.name.toList)
    else label.name
  value := label.value.map Value.restored

theorem Label.read_write {label : Label} (exact : label.value.any Value.isDecimal = false) :
    Label.read label.write = .ok label.restored := by
  obtain ⟨name, value⟩ := label
  cases value with
  | none =>
      rw [Label.write, List.append_nil, Label.read, read_name_write]
      cases plainName : isPlainName name.toList <;>
        simp [bind, Except.bind, trimRight, dropEndWhile, Label.restored, plainName]
  | some value =>
      have readBack := @read_value_write value (by simpa using exact)
      have kept : trimRight (':' :: writeValue value) = ':' :: trimRight (writeValue value) :=
        trim_right_cons (by decide)
      rw [Label.write, Label.read, read_name_write_append]
      simp [bind, Except.bind, kept, readBack, Label.restored]

theorem ends_blank_eq_false_iff {text : List Char} :
    endsBlank text = false ↔ trimRight text = text :=
  drop_end_while_eq_self_iff.symm

theorem of_list_trim_right_eq_iff {text : String} :
    String.ofList (trimRight text.toList) = text ↔ endsBlank text.toList = false := by
  rw [ends_blank_eq_false_iff]
  constructor
  · intro same
    simpa using congrArg String.toList same
  · intro same
    rw [same, String.ofList_toList]

/-- Exactly the labels with the right ends are read back as they were. -/
theorem Label.restored_eq_self_iff {label : Label} :
    label.restored = label ↔
      (isPlainName label.name.toList → label.value = none → ¬ endsBlank label.name.toList) ∧
      (∀ text, label.value = some (.string text) → isPlain text.toList →
        ¬ endsBlank text.toList) := by
  obtain ⟨name, value⟩ := label
  cases value with
  | none =>
      cases plainName : isPlainName name.toList with
      | false => simp [Label.restored, plainName]
      | true => simp [Label.restored, plainName, of_list_trim_right_eq_iff]
  | some value =>
      cases value with
      | string text =>
          cases plain : isPlain text.toList with
          | false => simp [Label.restored, Value.restored, plain]
          | true => simp [Label.restored, Value.restored, plain, of_list_trim_right_eq_iff]
      | _ => simp [Label.restored, Value.restored]

theorem not_break_of_mem_encode {content : List Char} {character : Char}
    (member : character ∈ Quoted.encode content) : character ≠ '\n' ∧ character ≠ '\r' := by
  simp only [Quoted.encode, List.mem_append, List.mem_cons, List.mem_flatMap, List.not_mem_nil,
    or_false] at member
  rcases member with (rfl | ⟨original, -, escaped⟩) | rfl
  · decide
  · unfold Quoted.escape at escaped
    split at escaped
    case h_6 _ _ _ noNewline noReturn _ =>
      rw [List.mem_singleton] at escaped
      subst escaped
      exact ⟨noNewline, noReturn⟩
    all_goals
      simp only [List.mem_cons, List.not_mem_nil, or_false] at escaped
      rcases escaped with rfl | rfl <;> decide
  · decide

theorem not_break_of_mem_plain_or_encode {text : List Char} {character : Char} {choice : Bool}
    (plain : choice = true → isPlain text = true)
    (member : character ∈ if choice then text else Quoted.encode text) :
    character ≠ '\n' ∧ character ≠ '\r' := by
  split at member
  · next chosen =>
      obtain ⟨-, -, noNewline, noReturn⟩ := not_mem_of_is_plain (plain chosen)
      exact ⟨fun same => noNewline (same ▸ member), fun same => noReturn (same ▸ member)⟩
  · exact not_break_of_mem_encode member

theorem is_plain_of_is_plain_name {name : List Char} (plainName : isPlainName name = true) :
    isPlain name = true := by
  simp only [isPlainName, Bool.and_eq_true] at plainName
  exact plainName.1.2

theorem write_value_unbroken {value : Value} (exact : value.isDecimal = false) :
    ∀ character ∈ writeValue value, character ≠ '\n' ∧ character ≠ '\r' := by
  cases value with
  | bool flag => cases flag <;> simp [writeValue, typeName?, Value.write]
  | int number =>
      intro character member
      simp only [writeValue, typeName?, Value.write, List.cons_append, List.nil_append,
        List.mem_cons] at member
      rcases member with rfl | rfl | rfl | rfl | rfl | digit
      iterate 5 decide
      rcases mem_write_integer digit with rfl | isDigit
      · decide
      · constructor <;> rintro rfl <;> exact absurd isDigit (by decide)
  | decimal number => simp [Value.isDecimal] at exact
  | string text =>
      intro character member
      change character ∈ writeString text.toList at member
      rw [write_string_eq] at member
      exact not_break_of_mem_plain_or_encode (fun plain => plain) member

theorem Label.write_unbroken {label : Label} (exact : label.value.any Value.isDecimal = false) :
    ∀ character ∈ label.write, character ≠ '\n' ∧ character ≠ '\r' := by
  intro character member
  obtain ⟨name, value⟩ := label
  rw [Label.write, List.mem_append, write_name_eq] at member
  rcases member with inName | inValue
  · exact not_break_of_mem_plain_or_encode is_plain_of_is_plain_name inName
  · cases value with
    | none => simp at inValue
    | some value =>
        rcases List.mem_cons.mp inValue with rfl | inside
        · decide
        · exact write_value_unbroken (by simpa using exact) character inside

end RouteManifest.Script
