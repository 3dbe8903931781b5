import RouteManifest.Json.Token
import RouteManifest.Json.Write

/-!
Strings written and read back. Every character is written as one piece, either as itself or by
an escape, and the pieces up to the closing quote give the text back. What is written holds no
control characters, so it stays on one line.
-/

namespace RouteManifest.Json

open RouteManifest.Number

/-- What the escape of a character is read as: most control characters are units. -/
def pieceOf (character : Char) : Piece :=
  if character.toNat < 0x20 ∧ character ∉ ['\n', '\r', '\t', '\x08', '\x0c'] then
    .unit character.toNat
  else .character character

theorem hex_unit_of_control : ∀ value < 0x20,
    hexUnit? '0' '0' (hexDigit (value / 16)) (hexDigit (value % 16)) = some value := by
  decide

theorem read_pieces_simple {escaped character : Char}
    (simple : simpleEscape? escaped = some character) (rest : List Char) :
    readPieces ('\\' :: escaped :: rest) =
      (readPieces rest).map fun (pieces, suffix) => (.character character :: pieces, suffix) := by
  rw [readPieces]
  · simp only [simple]
    cases readPieces rest <;> rfl
  · rintro _ _ _ _ _ rfl
    simp [simpleEscape?] at simple

theorem read_pieces_escape (character : Char) (rest : List Char) :
    readPieces (escape character ++ rest) =
      (readPieces rest).map fun (pieces, suffix) => (pieceOf character :: pieces, suffix) := by
  unfold escape
  split
  case h_8 quote backslash newline carriage tab backspace feed =>
    split
    · next control =>
        have unit := hex_unit_of_control character.toNat control
        have piece : pieceOf character = .unit character.toNat := by
          rw [pieceOf, if_pos]
          simp only [List.mem_cons, List.not_mem_nil, or_false, not_or]
          exact ⟨control, newline, carriage, tab, backspace, feed⟩
        rw [List.cons_append, List.cons_append]
        simp only [List.cons_append, List.nil_append, readPieces, unit, piece]
        cases readPieces rest <;> rfl
    · next printed =>
        have piece : pieceOf character = .character character := by simp [pieceOf, printed]
        rw [List.singleton_append, readPieces]
        · rw [if_neg (by simpa [printed] using backslash), piece]
        · exact quote
        · intro _ _ _ _ _ escaped
          exact absurd escaped backslash
        · intro _ _ escaped
          exact absurd escaped backslash
  all_goals exact read_pieces_simple rfl rest

theorem read_pieces_write (text rest : List Char) :
    readPieces (text.flatMap escape ++ '"' :: rest) = some (text.map pieceOf, rest) := by
  induction text with
  | nil => rw [List.flatMap_nil, List.nil_append, readPieces, List.map_nil]
  | cons character text induction =>
      rw [List.flatMap_cons, List.append_assoc, read_pieces_escape, induction]
      rfl

theorem join_pieces_write (text : List Char) : joinPieces (text.map pieceOf) = some text := by
  induction text with
  | nil => rfl
  | cons character text induction =>
      rw [List.map_cons, pieceOf]
      split
      · next control =>
          have high : isHighSurrogate character.toNat = false := by
            simp only [isHighSurrogate]; simp; omega
          have low : isLowSurrogate character.toNat = false := by
            simp only [isLowSurrogate]; simp; omega
          rw [joinPieces.eq_def]
          simp [high, low, induction]
      · rw [joinPieces, induction]
        rfl

/-- A string that was written is read as one token, with its text as content. -/
theorem read_token_write_string (text : String) (rest : List Char) :
    readToken (writeString text.toList ++ rest) = some (.string (some text), rest) := by
  rw [writeString, List.append_assoc, List.cons_append, List.singleton_append, readToken,
    read_pieces_write]
  simp [join_pieces_write]

def isControl (character : Char) : Bool := character.toNat < 0x20

/-- The text holds no control characters, so nothing in it ends a line. -/
def OneLine (text : List Char) : Prop := ∀ symbol ∈ text, isControl symbol = false

theorem one_line_of_all {text : List Char} (all : text.all (!isControl ·) = true) :
    OneLine text := by
  intro symbol member
  simpa using List.all_eq_true.mp all symbol member

theorem one_line_nil : OneLine [] := one_line_of_all rfl

theorem one_line_cons {character : Char} {text : List Char} :
    OneLine (character :: text) ↔ isControl character = false ∧ OneLine text :=
  List.forall_mem_cons

theorem one_line_append {front back : List Char} :
    OneLine (front ++ back) ↔ OneLine front ∧ OneLine back := List.forall_mem_append

theorem OneLine.no_line_end {text : List Char} (oneLine : OneLine text) :
    '\n' ∉ text ∧ '\r' ∉ text :=
  ⟨fun member => absurd (oneLine _ member) (by decide),
    fun member => absurd (oneLine _ member) (by decide)⟩

theorem hex_digit_not_control : ∀ value < 16, isControl (hexDigit value) = false := by decide

theorem escape_one_line (character : Char) : OneLine (escape character) := by
  unfold escape
  split
  case h_8 =>
    split
    · next control =>
        have first := hex_digit_not_control (character.toNat / 16) (by omega)
        have second := hex_digit_not_control (character.toNat % 16) (by omega)
        simp only [one_line_cons, first, second, one_line_nil]
        decide
    · next printed => exact one_line_cons.mpr ⟨by simpa [isControl] using printed, one_line_nil⟩
  all_goals exact one_line_of_all rfl

theorem write_string_one_line (text : List Char) : OneLine (writeString text) := by
  have escaped : OneLine (text.flatMap escape) := by
    intro symbol member
    obtain ⟨character, -, inside⟩ := List.mem_flatMap.mp member
    exact escape_one_line character symbol inside
  rw [writeString, List.cons_append, one_line_cons, one_line_append, one_line_cons]
  exact ⟨by decide, escaped, by decide, one_line_nil⟩

end RouteManifest.Json
