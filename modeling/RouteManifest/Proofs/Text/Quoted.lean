import Mathlib.Data.List.Forall2
import RouteManifest.Text.Quoted

/-!
Quoted literals by their characters. The inside of a literal consists of pairs, a backslash and
one more character each, and of characters that are neither a quote nor a backslash. A literal
is read up to the first quote that is not part of a pair, so what is put behind it changes the
rest only. Which quotes are part of a pair is said without the reader: the text is cut into pairs
from the left, through all quotes and up to its end.
-/

namespace RouteManifest.Text.Quoted

variable {text inside content rest more : List Char}

/-- The inside of a literal, and the content it stands for. -/
inductive Means : List Char → List Char → Prop
  | nothing : Means [] []
  | character {symbol : Char} {inside content : List Char} (noQuote : symbol ≠ '"')
      (noBackslash : symbol ≠ '\\') (later : Means inside content) :
      Means (symbol :: inside) (symbol :: content)
  | pair {second : Char} {inside content : List Char} (later : Means inside content) :
      Means ('\\' :: second :: inside) (unescape second :: content)

theorem decode_body_of_means (means : Means inside content) (rest : List Char) :
    decodeBody (inside ++ '"' :: rest) = some (content, rest) := by
  induction means with
  | nothing => rfl
  | character noQuote noBackslash later induction =>
      rw [List.cons_append, decodeBody, induction, Option.map_some]
      · exact noQuote
      · exact fun same _ => noBackslash same
      · exact fun _ _ same _ => noBackslash same
  | pair later induction =>
      rw [List.cons_append, List.cons_append, decodeBody, induction, Option.map_some]

theorem means_of_decode_body (read : decodeBody text = some (content, rest)) :
    ∃ inside, text = inside ++ '"' :: rest ∧ Means inside content := by
  fun_induction decodeBody text generalizing content rest with
  | case1 => cases read
  | case2 rest =>
      cases read
      exact ⟨[], rfl, .nothing⟩
  | case3 => cases read
  | case4 second later induction =>
      obtain ⟨⟨others, suffix⟩, inner, same⟩ := Option.map_eq_some_iff.mp read
      cases same
      obtain ⟨inside, shape, means⟩ := induction inner
      exact ⟨'\\' :: second :: inside, by rw [shape]; rfl, .pair means⟩
  | case5 symbol later noQuote lone noPair induction =>
      obtain ⟨⟨others, suffix⟩, inner, same⟩ := Option.map_eq_some_iff.mp read
      cases same
      obtain ⟨inside, shape, means⟩ := induction inner
      have noBackslash : symbol ≠ '\\' := by
        intro same
        cases later with
        | nil => exact lone same rfl
        | cons second later => exact noPair second later same rfl
      exact ⟨symbol :: inside, by rw [shape]; rfl, .character noQuote noBackslash means⟩

/-- A literal is read exactly when a quote behind its inside closes it. -/
theorem decode_eq_some_iff : decode text = some (content, rest) ↔
    ∃ inside, text = '"' :: (inside ++ '"' :: rest) ∧ Means inside content := by
  constructor
  · intro read
    unfold decode at read
    split at read
    · obtain ⟨inside, rfl, means⟩ := means_of_decode_body read
      exact ⟨inside, rfl, means⟩
    · cases read
  · rintro ⟨inside, rfl, means⟩
    exact decode_body_of_means means rest

theorem decode_append (text : List Char) (noQuote : '"' ∉ more) :
    decode (text ++ more) = (decode text).map fun (content, rest) => (content, rest ++ more) := by
  cases read : decode text with
  | some parts =>
      obtain ⟨content, rest⟩ := parts
      obtain ⟨inside, rfl, means⟩ := decode_eq_some_iff.mp read
      exact decode_eq_some_iff.mpr ⟨inside, by simp, means⟩
  | none =>
      rw [Option.map_none, Option.eq_none_iff_forall_ne_some]
      rintro ⟨content, rest⟩ longer
      obtain ⟨inside, shape, means⟩ := decode_eq_some_iff.mp longer
      rw [← List.cons_append] at shape
      -- The closing quote stands in the text, so the text is a literal by itself.
      rcases List.append_eq_append_iff.mp shape with ⟨between, -, behind⟩ | ⟨between, front, behind⟩
      · exact noQuote (by simp [behind])
      · cases between with
        | nil =>
            rw [List.nil_append] at behind
            exact noQuote (behind ▸ List.mem_cons_self)
        | cons quote between =>
            obtain ⟨rfl, -⟩ := List.cons.inj behind
            have closed : decode text = some (content, between) :=
              decode_eq_some_iff.mpr ⟨inside, front, means⟩
            rw [read] at closed
            cases closed

/-- A text cut into pairs and single characters. A backslash that ends the text stays single. -/
def pieces : List Char → List (List Char)
  | [] => []
  | '\\' :: second :: rest => ['\\', second] :: pieces rest
  | symbol :: rest => [symbol] :: pieces rest

/-- The character that a piece stands for. A single backslash stands for none. -/
inductive Stands : List Char → Char → Prop
  | plain {symbol : Char} (noBackslash : symbol ≠ '\\') : Stands [symbol] symbol
  | newline : Stands ['\\', 'n'] '\n'
  | carriageReturn : Stands ['\\', 'r'] '\r'
  | tab : Stands ['\\', 't'] '\t'
  | itself {second : Char} (noNewline : second ≠ 'n') (noReturn : second ≠ 'r')
      (noTab : second ≠ 't') : Stands ['\\', second] second

theorem pieces_flatten (text : List Char) : (pieces text).flatten = text := by
  fun_induction pieces text with
  | case1 => rfl
  | case2 second rest induction => rw [List.flatten_cons, induction]; rfl
  | case3 symbol rest noPair induction => rw [List.flatten_cons, induction]; rfl

theorem pieces_cons {symbol : Char} (noBackslash : symbol ≠ '\\') (rest : List Char) :
    pieces (symbol :: rest) = [symbol] :: pieces rest := by
  rw [pieces]
  exact fun _ _ same _ => noBackslash same

theorem stands_pair_iff {second symbol : Char} :
    Stands ['\\', second] symbol ↔ unescape second = symbol := by
  constructor
  · intro stands
    cases stands with
    | newline => rfl
    | carriageReturn => rfl
    | tab => rfl
    | itself noNewline noReturn noTab => rw [unescape] <;> assumption
  · rintro rfl
    unfold unescape
    split
    · exact .newline
    · exact .carriageReturn
    · exact .tab
    · next noNewline noReturn noTab => exact .itself noNewline noReturn noTab

theorem pieces_of_means (means : Means inside content) (rest : List Char) :
    ∃ before, pieces (inside ++ '"' :: rest) = before ++ ['"'] :: pieces rest ∧
      ['"'] ∉ before ∧ List.Forall₂ Stands before content := by
  induction means with
  | nothing => exact ⟨[], pieces_cons (by decide) rest, List.not_mem_nil, .nil⟩
  | @character symbol inside content noQuote noBackslash later induction =>
      obtain ⟨before, cut, paired, stands⟩ := induction
      have other : ['"'] ≠ [symbol] := fun same => noQuote (List.cons.inj same).1.symm
      refine ⟨[symbol] :: before, ?_, ?_, .cons (.plain noBackslash) stands⟩
      · rw [List.cons_append, pieces_cons noBackslash, cut, List.cons_append]
      · exact List.not_mem_cons_of_ne_of_not_mem other paired
  | @pair second inside content later induction =>
      obtain ⟨before, cut, paired, stands⟩ := induction
      have other : ['"'] ≠ ['\\', second] := by simp
      refine ⟨['\\', second] :: before, ?_, ?_, .cons (stands_pair_iff.mpr rfl) stands⟩
      · rw [List.cons_append, List.cons_append, pieces, cut, List.cons_append]
      · exact List.not_mem_cons_of_ne_of_not_mem other paired

theorem means_of_stands {before : List (List Char)} (stands : List.Forall₂ Stands before content)
    (paired : ['"'] ∉ before) : Means before.flatten content := by
  induction stands with
  | nil => exact .nothing
  | @cons piece symbol before content stands later induction =>
      obtain ⟨other, paired⟩ := List.ne_and_not_mem_of_not_mem_cons paired
      have inner := induction paired
      rw [List.flatten_cons]
      cases stands with
      | plain noBackslash =>
          have noQuote : symbol ≠ '"' := fun same => other (by rw [same])
          exact .character noQuote noBackslash inner
      | newline => exact .pair inner
      | carriageReturn => exact .pair inner
      | tab => exact .pair inner
      | itself noNewline noReturn noTab =>
          have same : unescape symbol = symbol :=
            stands_pair_iff.mp (.itself noNewline noReturn noTab)
          have pair : Means ('\\' :: symbol :: before.flatten) (unescape symbol :: content) :=
            .pair inner
          rwa [same] at pair

/-- A literal is closed exactly when some quote of the text is unpaired. -/
theorem decode_body_is_some_iff (text : List Char) :
    (decodeBody text).isSome ↔ ['"'] ∈ pieces text := by
  fun_induction decodeBody text with
  | case1 => simp [pieces]
  | case2 rest => simp [pieces_cons]
  | case3 => simp [pieces]
  | case4 second rest induction =>
      rw [Option.isSome_map, induction, pieces]
      simp
  | case5 symbol rest noQuote lone noPair induction =>
      have cut : pieces (symbol :: rest) = [symbol] :: pieces rest := by
        rw [pieces]
        exact noPair
      rw [Option.isSome_map, induction, cut]
      simp [Ne.symm noQuote]

/-- Behind an opening quote a literal is read exactly when the text, cut into pairs from the left,
has an unpaired quote. The first of them closes the literal: every piece in front of it gives one
character of the content, and what stands behind it is the rest. So a text that was written is
read back with whatever follows it. -/
theorem decode_up_to_unpaired_quote :
    (∀ body : List Char, (decode ('"' :: body)).isSome ↔ ['"'] ∈ pieces body) ∧
    (∀ body content rest : List Char, decode ('"' :: body) = some (content, rest) ↔
      ∃ before after, pieces body = before ++ ['"'] :: after ∧ ['"'] ∉ before ∧
        List.Forall₂ Stands before content ∧ after.flatten = rest) ∧
    ∀ content rest : List Char, decode (encode content ++ rest) = some (content, rest) := by
  refine ⟨decode_body_is_some_iff, ?_, decode_encode⟩
  intro body content rest
  constructor
  · intro read
    obtain ⟨inside, shape, means⟩ := decode_eq_some_iff.mp read
    obtain rfl := (List.cons.inj shape).2
    obtain ⟨before, cut, paired, stands⟩ := pieces_of_means means rest
    exact ⟨before, pieces rest, cut, paired, stands, pieces_flatten rest⟩
  · rintro ⟨before, after, cut, paired, stands, rfl⟩
    have shape : body = before.flatten ++ '"' :: after.flatten := by
      rw [← pieces_flatten body, cut, List.flatten_append, List.flatten_cons, List.singleton_append]
    rw [shape]
    exact decode_body_of_means (means_of_stands stands paired) after.flatten

/-- Of three backslashes the last one pairs with the quote behind them. -/
example : decode ['"', '\\', '\\', '\\', '"', '"', 'u'] = some (['\\', '"'], ['u']) := by decide

end RouteManifest.Text.Quoted
