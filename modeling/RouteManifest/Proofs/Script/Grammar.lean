import RouteManifest.Proofs.Script.Line
import RouteManifest.Proofs.Text.Quoted

/-!
The grammar of a line behind its indentation. A name is a quoted literal, or what stands in front
of the first colon, or the whole line. A value is a quoted literal, or the name of a type with a
colon and a text that fits the type, or any other text as it stands. The grammar is stated by the
characters of a line, without the reader, and the reader accepts exactly its lines.
-/

namespace RouteManifest.Script

open RouteManifest.Number RouteManifest.Text

/-- A quoted literal with its content, and nothing but blanks behind it. -/
def IsLiteral (text content : List Char) : Prop :=
  ∃ inside blanks, text = '"' :: (inside ++ '"' :: blanks) ∧ Quoted.Means inside content ∧
    isBlankText blanks = true

def integerNames : List String := ["int", "long"]

def decimalNames : List String := ["decimal", "double", "float"]

def typeNames : List String := "string" :: "bool" :: (integerNames ++ decimalNames)

/-- What a text says behind the name of a type and a colon. -/
inductive TypedAs (typeName : String) (tail : List Char) : Value → Prop
  | text (named : typeName = "string") (unquoted : tail.head? ≠ some '"') :
      TypedAs typeName tail (.string (String.ofList tail))
  | literal {content : List Char} (named : typeName = "string")
      (isLiteral : IsLiteral tail content) :
      TypedAs typeName tail (.string (String.ofList content))
  | true (named : typeName = "bool") (word : trim tail = ['t', 'r', 'u', 'e']) :
      TypedAs typeName tail (.bool true)
  | false (named : typeName = "bool") (word : trim tail = ['f', 'a', 'l', 's', 'e']) :
      TypedAs typeName tail (.bool false)
  | integer {number : Int64} (named : typeName ∈ integerNames)
      (spells : SpellsInteger (trim tail) number.toInt) : TypedAs typeName tail (.int number)
  | decimal {number : Binary64} (named : typeName ∈ decimalNames)
      (accepted : readDecimal (trim tail) = .ok number) : TypedAs typeName tail (.decimal number)

/-- What a text says behind the colon of a name. -/
inductive SaysValue : List Char → Value → Prop
  | literal {text content : List Char} (isLiteral : IsLiteral text content) :
      SaysValue text (.string (String.ofList content))
  | typed {typeName tail : List Char} {value : Value} (noColon : ':' ∉ typeName)
      (typedAs : TypedAs (String.ofList typeName) tail value) :
      SaysValue (typeName ++ ':' :: tail) value
  | plain {text : List Char} (unquoted : text.head? ≠ some '"')
      (untyped : ∀ typeName tail, ':' ∉ typeName → text = typeName ++ ':' :: tail →
        String.ofList typeName ∉ typeNames) :
      SaysValue text (.string (String.ofList text))

/-- The name at the start of a line, and what stands behind it. -/
inductive SaysName : List Char → List Char → List Char → Prop
  | quoted {inside name rest : List Char} (means : Quoted.Means inside name) :
      SaysName ('"' :: (inside ++ '"' :: rest)) name rest
  | before {name tail : List Char} (unquoted : name.head? ≠ some '"') (noColon : ':' ∉ name) :
      SaysName (name ++ ':' :: tail) name (':' :: tail)
  | whole {text : List Char} (unquoted : text.head? ≠ some '"') (noColon : ':' ∉ text) :
      SaysName text (trimRight text) []

/-- A line with its label: a name, and a value when a colon follows the name. -/
inductive SaysLabel : List Char → Label → Prop
  | bare {text name rest : List Char} (saysName : SaysName text name rest)
      (nothing : trimRight rest = []) : SaysLabel text ⟨String.ofList name, none⟩
  | valued {text name rest valueText : List Char} {value : Value}
      (saysName : SaysName text name rest) (colon : trimRight rest = ':' :: valueText)
      (saysValue : SaysValue valueText value) : SaysLabel text ⟨String.ofList name, some value⟩

theorem read_literal_eq_ok_iff {text : List Char} {content : String} :
    readLiteral text = .ok content ↔ IsLiteral text content.toList := by
  rw [readLiteral]
  cases read : Quoted.decode text with
  | none =>
      simp only [reduceCtorEq, false_iff]
      rintro ⟨inside, blanks, shape, means, -⟩
      have closed := Quoted.decode_eq_some_iff.mpr ⟨inside, shape, means⟩
      rw [read] at closed
      cases closed
  | some parts =>
      obtain ⟨found, rest⟩ := parts
      obtain ⟨inside, shape, means⟩ := Quoted.decode_eq_some_iff.mp read
      dsimp only
      constructor
      · intro accepted
        split at accepted
        · next blank =>
            obtain rfl := Except.ok.inj accepted
            rw [String.toList_ofList]
            exact ⟨inside, rest, shape, means, blank⟩
        · cases accepted
      · rintro ⟨other, blanks, otherShape, otherMeans, blank⟩
        have again := Quoted.decode_eq_some_iff.mpr ⟨other, otherShape, otherMeans⟩
        obtain ⟨rfl, rfl⟩ := Prod.mk.inj (Option.some.inj (read.symm.trans again))
        rw [if_pos blank, String.ofList_toList]

theorem IsLiteral.starts_quoted {text content : List Char} (isLiteral : IsLiteral text content) :
    startsQuoted text = true := by
  obtain ⟨inside, blanks, rfl, -, -⟩ := isLiteral
  rfl

theorem map_eq_ok_iff {Found Item : Type} {read : Except LineFault Found} {make : Found → Item}
    {item : Item} : read.map make = .ok item ↔ ∃ found, read = .ok found ∧ make found = item := by
  cases read <;> simp [Except.map]

theorem read_literal_value_iff {text : List Char} {value : Value} :
    (readLiteral text).map Value.string = .ok value ↔
      ∃ content, IsLiteral text content ∧ value = .string (String.ofList content) := by
  rw [map_eq_ok_iff]
  constructor
  · rintro ⟨content, read, rfl⟩
    exact ⟨content.toList, read_literal_eq_ok_iff.mp read, by rw [String.ofList_toList]⟩
  · rintro ⟨content, isLiteral, rfl⟩
    refine ⟨String.ofList content, read_literal_eq_ok_iff.mpr ?_, rfl⟩
    rwa [String.toList_ofList]

section Typed

variable {typeName : String} {tail : List Char} {value : Value}

theorem read_typed_integer (named : typeName ∈ integerNames) :
    readTyped? typeName tail = some (match readInteger (trim tail) with
      | .ok number => .ok (.int number)
      | .error fault => .error (.invalidInteger typeName (String.ofList tail) fault)) := by
  simp only [integerNames, List.mem_cons, List.not_mem_nil, or_false] at named
  rcases named with rfl | rfl <;> rfl

theorem read_typed_decimal (named : typeName ∈ decimalNames) :
    readTyped? typeName tail = some (match readDecimal (trim tail) with
      | .ok number => .ok (.decimal number)
      | .error fault => .error (.invalidDecimal typeName (String.ofList tail) fault)) := by
  simp only [decimalNames, List.mem_cons, List.not_mem_nil, or_false] at named
  rcases named with rfl | rfl | rfl <;> rfl

theorem mem_type_names_iff : typeName ∈ typeNames ↔
    typeName = "string" ∨ typeName = "bool" ∨ typeName ∈ integerNames ∨
      typeName ∈ decimalNames := by
  simp [typeNames]

/-- Only behind other names is a text taken as it stands. -/
theorem read_typed_eq_none_iff : readTyped? typeName tail = none ↔ typeName ∉ typeNames := by
  constructor
  · intro untyped known
    rcases mem_type_names_iff.mp known with rfl | rfl | named | named
    · cases untyped
    · cases untyped
    · rw [read_typed_integer named] at untyped
      cases untyped
    · rw [read_typed_decimal named] at untyped
      cases untyped
  · intro unknown
    simp only [typeNames, integerNames, decimalNames, List.cons_append, List.nil_append,
      List.mem_cons, List.not_mem_nil, or_false, not_or] at unknown
    simp [readTyped?, unknown]

theorem known_of_read_typed {result : Except LineFault Value}
    (typed : readTyped? typeName tail = some result) : typeName ∈ typeNames := by
  apply Decidable.not_not.mp
  intro unknown
  rw [read_typed_eq_none_iff.mpr unknown] at typed
  cases typed

theorem TypedAs.read (typedAs : TypedAs typeName tail value) :
    readTyped? typeName tail = some (.ok value) := by
  cases typedAs with
  | text named unquoted =>
      subst named
      change some (if startsQuoted tail then _ else _) = _
      rw [starts_quoted_eq_false_iff.mpr unquoted]
      rfl
  | @literal content named isLiteral =>
      subst named
      change some (if startsQuoted tail then (readLiteral tail).map Value.string else _) = _
      rw [if_pos isLiteral.starts_quoted, read_literal_value_iff.mpr ⟨content, isLiteral, rfl⟩]
  | true named word =>
      subst named
      change some (readFlag (trim tail)) = _
      rw [word]
      rfl
  | false named word =>
      subst named
      change some (readFlag (trim tail)) = _
      rw [word]
      rfl
  | integer named spells =>
      rw [read_typed_integer named, read_integer_eq_ok_iff.mpr spells]
  | decimal named accepted => rw [read_typed_decimal named, accepted]

theorem typed_as_of_read (read : readTyped? typeName tail = some (.ok value)) :
    TypedAs typeName tail value := by
  rcases mem_type_names_iff.mp (known_of_read_typed read) with rfl | rfl | named | named
  · change some (if startsQuoted tail then (readLiteral tail).map Value.string else _) = _ at read
    rw [Option.some.injEq] at read
    split at read
    · obtain ⟨content, isLiteral, rfl⟩ := read_literal_value_iff.mp read
      exact .literal rfl isLiteral
    · next unquoted =>
        obtain rfl := Except.ok.inj read
        exact .text rfl (starts_quoted_eq_false_iff.mp (by simpa using unquoted))
  · change some (readFlag (trim tail)) = _ at read
    rw [Option.some.injEq, readFlag] at read
    split at read
    · next word =>
        obtain rfl := Except.ok.inj read
        exact .true rfl word
    · split at read
      · next word =>
          obtain rfl := Except.ok.inj read
          exact .false rfl word
      · cases read
  · rw [read_typed_integer named] at read
    cases inner : readInteger (trim tail) with
    | error fault => simp [inner] at read
    | ok number =>
        simp only [inner, Option.some.injEq, Except.ok.injEq] at read
        subst read
        exact .integer named (read_integer_eq_ok_iff.mp inner)
  · rw [read_typed_decimal named] at read
    cases inner : readDecimal (trim tail) with
    | error fault => simp [inner] at read
    | ok number =>
        simp only [inner, Option.some.injEq, Except.ok.injEq] at read
        subst read
        exact .decimal named inner

end Typed

theorem type_names_plain :
    ∀ typeName ∈ typeNames, typeName.toList.head? ≠ some '"' ∧ ':' ∉ typeName.toList := by decide

theorem read_value_typed {typeName : String} {tail : List Char} {result : Except LineFault Value}
    (typed : readTyped? typeName tail = some result) :
    readValue (typeName.toList ++ ':' :: tail) = result := by
  obtain ⟨unquoted, noColon⟩ := type_names_plain typeName (known_of_read_typed typed)
  rw [readValue, starts_quoted_append_colon tail unquoted, split_colon_append tail noColon]
  simp [typed]

theorem SaysValue.read {text : List Char} {value : Value} (saysValue : SaysValue text value) :
    readValue text = .ok value := by
  cases saysValue with
  | literal isLiteral =>
      rw [readValue, if_pos isLiteral.starts_quoted, read_literal_value_iff]
      exact ⟨_, isLiteral, rfl⟩
  | typed noColon typedAs =>
      have read := read_value_typed typedAs.read
      rwa [String.toList_ofList] at read
  | plain unquoted untyped =>
      rw [readValue, starts_quoted_eq_false_iff.mpr unquoted]
      cases split : splitColon? text with
      | none => rfl
      | some parts =>
          obtain ⟨typeName, tail⟩ := parts
          obtain ⟨shape, noColon⟩ := split_colon_eq_some_iff.mp split
          simp [read_typed_eq_none_iff.mpr (untyped typeName tail noColon shape)]

theorem says_value_of_read {text : List Char} {value : Value} (read : readValue text = .ok value) :
    SaysValue text value := by
  rw [readValue] at read
  split at read
  · obtain ⟨content, isLiteral, rfl⟩ := read_literal_value_iff.mp read
    exact .literal isLiteral
  · next quoted =>
      have unquoted := starts_quoted_eq_false_iff.mp (by simpa using quoted)
      cases split : splitColon? text with
      | none =>
          simp only [split, Except.ok.injEq] at read
          subst read
          refine .plain unquoted fun typeName tail noColon shape => ?_
          exact absurd (shape ▸ by simp) (split_colon_eq_none_iff.mp split)
      | some parts =>
          obtain ⟨typeName, tail⟩ := parts
          obtain ⟨rfl, noColon⟩ := split_colon_eq_some_iff.mp split
          simp only [split] at read
          cases typed : readTyped? (String.ofList typeName) tail with
          | some result =>
              rw [typed, Option.getD_some] at read
              subst read
              exact .typed noColon (typed_as_of_read typed)
          | none =>
              rw [typed, Option.getD_none, Except.ok.injEq] at read
              subst read
              refine .plain unquoted fun other rest noOther shape => ?_
              have same := split_colon_eq_some_iff.mpr ⟨shape, noOther⟩
              obtain ⟨rfl, rfl⟩ := Prod.mk.inj (Option.some.inj (split.symm.trans same))
              exact read_typed_eq_none_iff.mp typed

theorem SaysName.read {text name rest : List Char} (saysName : SaysName text name rest) :
    readName text = .ok (name, rest) := by
  cases saysName with
  | @quoted inside _ _ means =>
      have isQuoted : startsQuoted ('"' :: (inside ++ '"' :: rest)) = true := rfl
      rw [readName, if_pos isQuoted, Quoted.decode_eq_some_iff.mpr ⟨inside, rfl, means⟩]
  | before unquoted noColon =>
      rw [readName, starts_quoted_append_colon _ unquoted, split_colon_append _ noColon]
      rfl
  | whole unquoted noColon =>
      rw [readName, starts_quoted_eq_false_iff.mpr unquoted, split_colon_of_not_mem noColon]
      rfl

theorem says_name_of_read {text name rest : List Char} (read : readName text = .ok (name, rest)) :
    SaysName text name rest := by
  rw [readName] at read
  split at read
  · cases decoded : Quoted.decode text with
    | none => simp [decoded] at read
    | some parts =>
        simp only [decoded, Except.ok.injEq] at read
        subst read
        obtain ⟨inside, rfl, means⟩ := Quoted.decode_eq_some_iff.mp decoded
        exact .quoted means
  · next quoted =>
      have unquoted := starts_quoted_eq_false_iff.mp (by simpa using quoted)
      cases split : splitColon? text with
      | none =>
          simp only [split, Except.ok.injEq, Prod.mk.injEq] at read
          obtain ⟨rfl, rfl⟩ := read
          exact .whole unquoted (split_colon_eq_none_iff.mp split)
      | some parts =>
          obtain ⟨front, tail⟩ := parts
          obtain ⟨rfl, noColon⟩ := split_colon_eq_some_iff.mp split
          simp only [split, Except.ok.injEq, Prod.mk.injEq] at read
          obtain ⟨rfl, rfl⟩ := read
          refine .before ?_ noColon
          cases front with
          | nil => simp
          | cons first others => exact unquoted

theorem SaysLabel.read {text : List Char} {label : Label} (saysLabel : SaysLabel text label) :
    Label.read text = .ok label := by
  cases saysLabel with
  | bare saysName nothing =>
      simp only [Label.read, saysName.read, bind, Except.bind, nothing]
  | valued saysName colon saysValue =>
      simp only [Label.read, saysName.read, bind, Except.bind, colon, saysValue.read]

theorem says_label_of_read {text : List Char} {label : Label} (read : Label.read text = .ok label) :
    SaysLabel text label := by
  rw [Label.read] at read
  cases named : readName text with
  | error fault => simp [named, bind, Except.bind] at read
  | ok parts =>
      obtain ⟨name, rest⟩ := parts
      have saysName := says_name_of_read named
      simp only [named, bind, Except.bind] at read
      split at read
      · next nothing =>
          obtain rfl := Except.ok.inj read
          exact .bare saysName nothing
      · next valueText colon =>
          cases valued : readValue valueText with
          | error fault => simp [valued] at read
          | ok value =>
              simp only [valued, Except.ok.injEq] at read
              subst read
              exact .valued saysName colon (says_value_of_read valued)
      · cases read

/-- A line is read exactly when it is one of the grammar, and as the label that the grammar gives
it. Every other line is refused. -/
theorem read_label_by_grammar (text : List Char) :
    (∀ label, Label.read text = .ok label ↔ SaysLabel text label) ∧
      ((∃ fault, Label.read text = .error fault) ↔ ∀ label, ¬ SaysLabel text label) := by
  have accepts : ∀ label, Label.read text = .ok label ↔ SaysLabel text label :=
    fun label => ⟨says_label_of_read, SaysLabel.read⟩
  refine ⟨accepts, ?_⟩
  simp only [← accepts]
  cases Label.read text <;> simp

end RouteManifest.Script
