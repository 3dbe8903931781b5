import RouteManifest.Json.Document
import RouteManifest.Proofs.Json.Numeral
import RouteManifest.Proofs.Json.String

/-!
Values written and read back as documents. The text of a value, read inside open containers,
delivers the document of the value to the innermost one, and goes on with what follows. So
every value is written as one document, on one line.
-/

namespace RouteManifest.Json

open RouteManifest.Number

/-- The numeral of a number; numbers that are not finite have none. -/
def numeralOf? (number : JsonNumber) : Option Numeral :=
  (readNumeral (writeNumber number)).map Prod.fst

def numberDocument (number : JsonNumber) : Document :=
  match numeralOf? number with
  | some numeral => .number numeral
  | none => .null

mutual
/-- What the text of a value says. -/
def document : Json → Document
  | null => .null
  | bool flag => .bool flag
  | number value => numberDocument value
  | string text => .string (some text)
  | array items => .array (itemDocuments items)
  | object members => .object (memberDocuments members)
def itemDocuments : List Json → List Document
  | [] => []
  | item :: rest => item.document :: itemDocuments rest
def memberDocuments : List (String × Json) → List (Option String × Document)
  | [] => []
  | (key, value) :: rest => (some key, value.document) :: memberDocuments rest
end

namespace Document

def readValue (pending : List Pending) (text : List Char) : Option Document :=
  (tokens text).bind (assemble pending)

def readBehind (value : Document) (pending : List Pending) (text : List Char) : Option Document :=
  (tokens text).bind (deliver value pending)

end Document

section Tokens

variable {text suffix rest : List Char} {token : Token} {pending : List Pending}

theorem tokens_of_read_token {character : Char} (space : isSpace character = false)
    (read : readToken (character :: rest) = some (token, suffix)) :
    tokens (character :: rest) = (tokens suffix).map (token :: ·) := by
  rw [tokens]
  simp only [space, Bool.false_eq_true, if_false]
  split <;> simp_all

/-- A text that starts with a token which neither is a blank nor ends an array. -/
def StartsValue (text : List Char) : Prop :=
  ∃ character others, text = character :: others ∧ isSpace character = false ∧ character ≠ ']'

theorem StartsValue.append (starts : StartsValue text) (rest : List Char) :
    StartsValue (text ++ rest) := by
  obtain ⟨character, others, rfl, space, other⟩ := starts
  exact ⟨character, others ++ rest, rfl, space, other⟩

theorem read_token_ne_end {character : Char} (other : character ≠ ']') :
    readToken (character :: rest) ≠ some (.endArray, suffix) := by
  unfold readToken
  split <;> simp_all

theorem tokens_of_starts_value (starts : StartsValue text) {others : List Token}
    (listed : tokens text = some others) : others.head? ≠ some .endArray := by
  obtain ⟨character, behind, rfl, space, other⟩ := starts
  cases read : readToken (character :: behind) with
  | none =>
      rw [tokens] at listed
      simp only [space, Bool.false_eq_true, if_false] at listed
      split at listed <;> simp_all
  | some found =>
      obtain ⟨token, suffix⟩ := found
      rw [tokens_of_read_token space read, Option.map_eq_some_iff] at listed
      obtain ⟨later, -, rfl⟩ := listed
      rintro same
      obtain rfl : token = .endArray := Option.some.inj same
      exact read_token_ne_end other read

/-- A text is one token, in front of whatever does not go on with a numeral. -/
structure IsToken (text : List Char) (token : Token) : Prop where
  starts : StartsValue text
  read : ∀ rest, EndsNumeral rest → readToken (text ++ rest) = some (token, rest)

theorem IsToken.tokens_append (isToken : IsToken text token) (ends : EndsNumeral rest) :
    tokens (text ++ rest) = (tokens rest).map (token :: ·) := by
  obtain ⟨character, others, rfl, space, -⟩ := isToken.starts
  exact tokens_of_read_token space (isToken.read rest ends)

theorem is_token_null : IsToken ['n', 'u', 'l', 'l'] .null where
  starts := ⟨'n', _, rfl, by decide, by decide⟩
  read _ _ := rfl

theorem is_token_bool (flag : Bool) : IsToken (bool flag).write (.bool flag) := by
  cases flag with
  | true => exact ⟨⟨'t', _, rfl, by decide, by decide⟩, fun _ _ => rfl⟩
  | false => exact ⟨⟨'f', _, rfl, by decide, by decide⟩, fun _ _ => rfl⟩

theorem is_token_string (text : String) :
    IsToken (writeString text.toList) (.string (some text)) where
  starts := ⟨'"', _, rfl, by decide, by decide⟩
  read rest _ := read_token_write_string text rest

theorem ne_of_is_digit {character other : Char} (digit : isDigit character = true)
    (different : isDigit other = false) : character ≠ other := by
  rintro rfl
  simp [digit] at different

theorem is_space_of_digit {character : Char} (digit : isDigit character = true) :
    isSpace character = false := by
  simp only [isSpace, List.mem_cons, List.not_mem_nil, or_false, decide_eq_false_iff_not, not_or]
  exact ⟨ne_of_is_digit digit (by decide), ne_of_is_digit digit (by decide),
    ne_of_is_digit digit (by decide), ne_of_is_digit digit (by decide)⟩

theorem read_token_numeral {character : Char} (first : isDigit character = true ∨ character = '-') :
    readToken (character :: rest) =
      (readNumeral (character :: rest)).map fun (numeral, suffix) => (.number numeral, suffix) := by
  rcases first with digit | rfl
  · unfold readToken
    split <;> first | rfl | (next same => simp_all [isDigit])
  · rfl

theorem Spells.start {numeral : Numeral} (spells : Spells text numeral) :
    ∃ character others, text = character :: others ∧
      (isDigit character = true ∨ character = '-') := by
  obtain ⟨isWhole, fraction, exponent, -, -, rfl⟩ := spells
  cases numeral.negative with
  | true => exact ⟨'-', _, rfl, .inr rfl⟩
  | false =>
      obtain ⟨digit, others, shape⟩ := List.exists_cons_of_ne_nil isWhole.nonempty
      refine ⟨digit, others ++ (fraction ++ exponent), by simp [signText, shape], .inl ?_⟩
      exact isWhole.all digit (by simp [shape])

theorem is_token_numeral {numeral : Numeral} (spells : Spells text numeral) :
    IsToken text (.number numeral) := by
  obtain ⟨character, others, rfl, first⟩ := spells.start
  refine ⟨⟨character, others, rfl, ?_, ?_⟩, ?_⟩
  · rcases first with digit | rfl
    · exact is_space_of_digit digit
    · rfl
  · rcases first with digit | rfl
    · exact ne_of_is_digit digit (by decide)
    · decide
  · intro rest ends
    rw [List.cons_append, read_token_numeral first]
    have read := read_numeral_spelled spells ends
    rw [List.cons_append] at read
    rw [read]
    rfl

end Tokens

namespace Document

section Steps

variable {text rest : List Char} {value : Document} {pending : List Pending}
  {items : List Document} {members : List (Option String × Document)} {key : Option String}

theorem read_value_scalar {token : Token} (isToken : IsToken text token)
    (scalar : ∀ others, assemble pending (token :: others) = deliver value pending others)
    (ends : EndsNumeral rest) :
    readValue pending (text ++ rest) = readBehind value pending rest := by
  rw [readValue, isToken.tokens_append ends, readBehind]
  cases tokens rest with
  | none => rfl
  | some others => exact scalar others

theorem read_value_empty_array :
    readValue pending ('[' :: ']' :: rest) = readBehind (.array []) pending rest := by
  have opened : tokens ('[' :: ']' :: rest) = (tokens (']' :: rest)).map (.beginArray :: ·) :=
    tokens_of_read_token rfl rfl
  have closed : tokens (']' :: rest) = (tokens rest).map (.endArray :: ·) :=
    tokens_of_read_token rfl rfl
  rw [readValue, opened, closed, readBehind]
  cases tokens rest <;> simp [assemble]

theorem read_value_array (starts : StartsValue text) :
    readValue pending ('[' :: text) = readValue (.array [] :: pending) text := by
  have opened : tokens ('[' :: text) = (tokens text).map (.beginArray :: ·) :=
    tokens_of_read_token rfl rfl
  rw [readValue, opened, readValue]
  cases listed : tokens text with
  | none => rfl
  | some others =>
      have first := tokens_of_starts_value starts listed
      simp only [Option.map_some, Option.bind_some]
      rw [assemble]
      rintro more rfl
      exact first rfl

theorem read_value_empty_object :
    readValue pending ('\x7b' :: '\x7d' :: rest) = readBehind (.object []) pending rest := by
  have opened : tokens ('\x7b' :: '\x7d' :: rest) =
      (tokens ('\x7d' :: rest)).map (.beginObject :: ·) := tokens_of_read_token rfl rfl
  have closed : tokens ('\x7d' :: rest) = (tokens rest).map (.endObject :: ·) :=
    tokens_of_read_token rfl rfl
  rw [readValue, opened, closed, readBehind]
  cases tokens rest <;> simp [assemble]

theorem tokens_key (name : String) (rest : List Char) :
    tokens (writeString name.toList ++ ':' :: rest) =
      (tokens rest).map fun others => .string (some name) :: .colon :: others := by
  have colon : tokens (':' :: rest) = (tokens rest).map (.colon :: ·) :=
    tokens_of_read_token rfl rfl
  have ends : EndsNumeral (':' :: rest) := rfl
  rw [(is_token_string name).tokens_append ends, colon, Option.map_map]
  rfl

theorem read_value_object (name : String) :
    readValue pending ('\x7b' :: (writeString name.toList ++ ':' :: rest)) =
      readValue (.object [] (some name) :: pending) rest := by
  have opened : tokens ('\x7b' :: (writeString name.toList ++ ':' :: rest)) =
      (tokens (writeString name.toList ++ ':' :: rest)).map (.beginObject :: ·) :=
    tokens_of_read_token rfl rfl
  rw [readValue, opened, tokens_key, readValue]
  cases tokens rest <;> simp [assemble]

theorem read_behind_item :
    readBehind value (.array items :: pending) (',' :: rest) =
      readValue (.array (value :: items) :: pending) rest := by
  have comma : tokens (',' :: rest) = (tokens rest).map (.comma :: ·) :=
    tokens_of_read_token rfl rfl
  rw [readBehind, comma, readValue]
  cases tokens rest <;> simp [deliver]

theorem read_behind_items :
    readBehind value (.array items :: pending) (']' :: rest) =
      readBehind (.array (value :: items).reverse) pending rest := by
  have closed : tokens (']' :: rest) = (tokens rest).map (.endArray :: ·) :=
    tokens_of_read_token rfl rfl
  rw [readBehind, closed, readBehind]
  cases tokens rest <;> simp [deliver]

theorem read_behind_member (name : String) :
    readBehind value (.object members key :: pending)
        (',' :: (writeString name.toList ++ ':' :: rest)) =
      readValue (.object ((key, value) :: members) (some name) :: pending) rest := by
  have comma : tokens (',' :: (writeString name.toList ++ ':' :: rest)) =
      (tokens (writeString name.toList ++ ':' :: rest)).map (.comma :: ·) :=
    tokens_of_read_token rfl rfl
  rw [readBehind, comma, tokens_key, readValue]
  cases tokens rest <;> simp [deliver]

theorem read_behind_members :
    readBehind value (.object members key :: pending) ('\x7d' :: rest) =
      readBehind (.object ((key, value) :: members).reverse) pending rest := by
  have closed : tokens ('\x7d' :: rest) = (tokens rest).map (.endObject :: ·) :=
    tokens_of_read_token rfl rfl
  rw [readBehind, closed, readBehind]
  cases tokens rest <;> simp [deliver]

end Steps

end Document

def behindPart (parts : List (List Char)) (closing : Char) (rest : List Char) : List Char :=
  parts.flatMap (',' :: ·) ++ closing :: rest

theorem behind_part_nil (closing : Char) (rest : List Char) :
    behindPart [] closing rest = closing :: rest := rfl

theorem behind_part_cons (part : List Char) (parts : List (List Char)) (closing : Char)
    (rest : List Char) :
    behindPart (part :: parts) closing rest = ',' :: (part ++ behindPart parts closing rest) := by
  simp [behindPart]

theorem join_with_cons (part : List Char) (parts : List (List Char)) (closing : Char)
    (rest : List Char) :
    joinWith [','] (part :: parts) ++ closing :: rest = part ++ behindPart parts closing rest := by
  induction parts generalizing part with
  | nil => rfl
  | cons next parts induction =>
      rw [joinWith, List.append_assoc, induction, behind_part_cons, List.append_assoc]
      rfl

theorem behind_part_ends (parts : List (List Char)) {closing : Char}
    (other : continuesNumeral closing = false) (rest : List Char) :
    EndsNumeral (behindPart parts closing rest) := by
  cases parts with
  | nil => simpa [behindPart, EndsNumeral] using other
  | cons part parts => rfl

theorem numeral_of_spelled {number : JsonNumber} {numeral : Numeral}
    (spells : Spells (writeNumber number) numeral) : numeralOf? number = some numeral := by
  have ends : EndsNumeral [] := rfl
  have read := read_numeral_spelled spells ends
  rw [List.append_nil] at read
  rw [numeralOf?, read]
  rfl

theorem number_document_spelled {number : JsonNumber} {numeral : Numeral}
    (spells : Spells (writeNumber number) numeral) : numberDocument number = .number numeral := by
  rw [numberDocument, numeral_of_spelled spells]

theorem read_value_number (number : JsonNumber) (pending : List Pending) {rest : List Char}
    (ends : EndsNumeral rest) :
    Document.readValue pending (writeNumber number ++ rest) =
      Document.readBehind (numberDocument number) pending rest := by
  rcases write_number_spells number with written | ⟨numeral, spells⟩
  · have none : numberDocument number = .null := by
      rw [numberDocument, numeralOf?, written]
      rfl
    rw [written, none]
    exact Document.read_value_scalar is_token_null (fun _ => by simp [Document.assemble]) ends
  · rw [number_document_spelled spells]
    exact Document.read_value_scalar (is_token_numeral spells)
      (fun _ => by simp [Document.assemble]) ends

theorem write_starts_value (value : Json) : StartsValue value.write := by
  cases value with
  | null => exact is_token_null.starts
  | bool flag => exact (is_token_bool flag).starts
  | number value =>
      rw [write]
      rcases write_number_spells value with written | ⟨numeral, spells⟩
      · rw [written]
        exact is_token_null.starts
      · exact (is_token_numeral spells).starts
  | string text => exact (is_token_string text).starts
  | array items => exact ⟨'[', _, rfl, by decide, by decide⟩
  | object members => exact ⟨'\x7b', _, rfl, by decide, by decide⟩

mutual
/-- The text of a value delivers its document. -/
theorem read_value_write (value : Json) (pending : List Pending) {rest : List Char}
    (ends : EndsNumeral rest) :
    Document.readValue pending (value.write ++ rest) =
      Document.readBehind value.document pending rest := by
  cases value with
  | null =>
      exact Document.read_value_scalar is_token_null
        (fun _ => by simp [Document.assemble, document]) ends
  | bool flag =>
      exact Document.read_value_scalar (is_token_bool flag)
        (fun _ => by simp [Document.assemble, document]) ends
  | number value => exact read_value_number value pending ends
  | string text =>
      exact Document.read_value_scalar (is_token_string text)
        (fun _ => by simp [Document.assemble, document]) ends
  | array items =>
      cases items with
      | nil => exact Document.read_value_empty_array
      | cons item items =>
          have starts := (write_starts_value item).append (behindPart (writeItems items) ']' rest)
          rw [write, writeItems, List.cons_append, List.cons_append, List.append_assoc,
            List.singleton_append, join_with_cons, Document.read_value_array starts,
            read_value_write item _ (behind_part_ends _ rfl rest), read_behind_items]
          rfl
  | object members =>
      cases members with
      | nil => exact Document.read_value_empty_object
      | cons member members =>
          rw [write, writeMembers, List.cons_append, List.cons_append, List.append_assoc,
            List.singleton_append, join_with_cons, List.append_assoc, List.cons_append, Document.read_value_object,
            read_value_write member.2 _ (behind_part_ends _ rfl rest), read_behind_members]
          rfl
theorem read_behind_items (items : List Json) (value : Document) (before : List Document)
    (pending : List Pending) (rest : List Char) :
    Document.readBehind value (.array before :: pending) (behindPart (writeItems items) ']' rest) =
      Document.readBehind (.array ((value :: before).reverse ++ itemDocuments items)) pending
        rest := by
  cases items with
  | nil =>
      rw [writeItems, behind_part_nil, Document.read_behind_items, itemDocuments, List.append_nil]
  | cons item items =>
      rw [writeItems, behind_part_cons, Document.read_behind_item,
        read_value_write item _ (behind_part_ends _ rfl rest), read_behind_items items,
        List.reverse_cons, List.append_assoc]
      rfl
theorem read_behind_members (members : List (String × Json)) (value : Document)
    (before : List (Option String × Document)) (key : Option String) (pending : List Pending)
    (rest : List Char) :
    Document.readBehind value (.object before key :: pending)
        (behindPart (writeMembers members) '\x7d' rest) =
      Document.readBehind (.object (((key, value) :: before).reverse ++ memberDocuments members))
        pending rest := by
  cases members with
  | nil =>
      rw [writeMembers, behind_part_nil, Document.read_behind_members, memberDocuments,
        List.append_nil]
  | cons member members =>
      rw [writeMembers, behind_part_cons, List.append_assoc, List.cons_append,
        Document.read_behind_member, read_value_write member.2 _ (behind_part_ends _ rfl rest),
        read_behind_members members, List.reverse_cons, List.append_assoc]
      rfl
end

/-- Every value is written as one document. -/
theorem parse_write (value : Json) : Document.parse value.write = some value.document := by
  have ends : EndsNumeral [] := rfl
  have read := read_value_write value [] ends
  have none : tokens [] = some [] := by rw [tokens]
  rw [List.append_nil, Document.readBehind, none] at read
  rw [Option.bind_some, Document.deliver] at read
  exact read

theorem join_with_one_line {parts : List (List Char)} (all : ∀ part ∈ parts, OneLine part) :
    OneLine (joinWith [','] parts) := by
  fun_induction joinWith [','] parts with
  | case1 => exact one_line_nil
  | case2 part => exact all part List.mem_cons_self
  | case3 part next rest induction =>
      simp only [one_line_append, one_line_cons]
      refine ⟨⟨all part List.mem_cons_self, by decide, one_line_nil⟩, induction ?_⟩
      exact fun other member => all other (List.mem_cons_of_mem _ member)

theorem write_number_one_line (number : JsonNumber) : OneLine (writeNumber number) := by
  rcases write_number_spells number with written | ⟨numeral, spells⟩
  · rw [written]
    exact one_line_of_all rfl
  · exact spells.one_line

mutual
theorem write_one_line (value : Json) : OneLine value.write := by
  cases value with
  | null => exact one_line_of_all rfl
  | bool flag => cases flag <;> exact one_line_of_all rfl
  | number value => exact write_number_one_line value
  | string text => exact write_string_one_line text.toList
  | array items =>
      have inner := join_with_one_line (write_items_one_line items)
      rw [write, List.cons_append, one_line_cons, one_line_append, one_line_cons]
      exact ⟨by decide, inner, by decide, one_line_nil⟩
  | object members =>
      have inner := join_with_one_line (write_members_one_line members)
      rw [write, List.cons_append, one_line_cons, one_line_append, one_line_cons]
      exact ⟨by decide, inner, by decide, one_line_nil⟩
theorem write_items_one_line (items : List Json) : ∀ part ∈ writeItems items, OneLine part := by
  cases items with
  | nil => exact List.forall_mem_nil _
  | cons item items =>
      exact List.forall_mem_cons.mpr ⟨write_one_line item, write_items_one_line items⟩
theorem write_members_one_line (members : List (String × Json)) :
    ∀ part ∈ writeMembers members, OneLine part := by
  cases members with
  | nil => exact List.forall_mem_nil _
  | cons member members =>
      have first : OneLine (writeString member.1.toList ++ ':' :: member.2.write) := by
        rw [one_line_append, one_line_cons]
        exact ⟨write_string_one_line _, by decide, write_one_line member.2⟩
      exact List.forall_mem_cons.mpr ⟨first, write_members_one_line members⟩
end

end RouteManifest.Json
