import Mathlib.Data.List.Forall2
import RouteManifest.Proofs.Json.Document

/-!
Pretty texts. A value that is written over several lines has the same tokens as on one line,
since nothing but blanks between tokens is added. So both texts say the same document.
-/

namespace RouteManifest.Json

section Tokens

variable {rest behind : List Char}

theorem tokens_blank {character : Char} (space : isSpace character = true) :
    tokens (character :: rest) = tokens rest := by
  rw [tokens, if_pos space]

theorem tokens_indent (depth : Nat) : tokens (indent depth ++ rest) = tokens rest := by
  rw [indent]
  generalize 2 * depth = count
  induction count with
  | zero => rfl
  | succ count induction =>
      rw [List.replicate_succ, List.cons_append, tokens_blank rfl, induction]

/-- The character is a token by itself, and no part of a numeral. -/
structure IsMark (mark : Char) (token : Token) : Prop where
  solid : isSpace mark = false
  ends : continuesNumeral mark = false
  read : ∀ rest, readToken (mark :: rest) = some (token, rest)

theorem IsMark.tokens_cons {mark : Char} {token : Token} (isMark : IsMark mark token)
    (same : tokens rest = tokens behind) : tokens (mark :: rest) = tokens (mark :: behind) := by
  rw [tokens_of_read_token isMark.solid (isMark.read rest),
    tokens_of_read_token isMark.solid (isMark.read behind), same]

theorem is_mark_comma : IsMark ',' .comma := ⟨rfl, rfl, fun _ => rfl⟩

theorem is_mark_colon : IsMark ':' .colon := ⟨rfl, rfl, fun _ => rfl⟩

end Tokens

/-- Two texts have the same tokens wherever what follows them has the same tokens. -/
def SameTokens (one two : List Char) : Prop :=
  ∀ rest behind, EndsNumeral rest → EndsNumeral behind → tokens rest = tokens behind →
    tokens (one ++ rest) = tokens (two ++ behind)

theorem IsToken.same_tokens {text : List Char} {token : Token} (isToken : IsToken text token) :
    SameTokens text text := by
  intro rest behind ends stops same
  rw [isToken.tokens_append ends, isToken.tokens_append stops, same]

section Containers

variable {depth : Nat} {parts others : List (List Char)}

theorem join_same_tokens (same : List.Forall₂ SameTokens parts others) :
    SameTokens (joinWith [',', '\n'] (parts.map (indent depth ++ ·))) (joinWith [','] others) := by
  induction same with
  | nil => exact fun _ _ _ _ same => same
  | @cons part other parts others first later induction =>
      intro rest behind ends stops same
      cases later with
      | nil =>
          simp only [List.map_cons, List.map_nil, joinWith, List.append_assoc]
          rw [tokens_indent]
          exact first rest behind ends stops same
      | cons =>
          simp only [List.map_cons, joinWith, List.append_assoc, List.cons_append,
            List.nil_append] at induction ⊢
          rw [tokens_indent]
          refine first _ _ rfl rfl ?_
          apply is_mark_comma.tokens_cons
          rw [tokens_blank rfl]
          have further := induction rest behind ends stops same
          simpa only [List.append_assoc] using further

theorem block_same_tokens {opening closing : Char} {start stop : Token}
    (opens : IsMark opening start) (closes : IsMark closing stop)
    (same : List.Forall₂ SameTokens parts others) :
    SameTokens (writeBlock opening closing depth parts)
      (opening :: joinWith [','] others ++ [closing]) := by
  intro rest behind ends stops later
  have closed := closes.tokens_cons later
  cases same with
  | nil => exact opens.tokens_cons closed
  | cons first further =>
      rw [writeBlock, if_neg (by simp)]
      simp only [List.cons_append, List.append_assoc, List.nil_append]
      apply opens.tokens_cons
      rw [tokens_blank rfl]
      apply join_same_tokens (.cons first further)
      · rfl
      · simpa [EndsNumeral] using closes.ends
      · rw [tokens_blank rfl, tokens_indent, closed]

end Containers

theorem write_number_same_tokens (number : JsonNumber) :
    SameTokens (writeNumber number) (writeNumber number) := by
  rcases write_number_spells number with written | ⟨numeral, spells⟩
  · rw [written]
    exact is_token_null.same_tokens
  · exact (is_token_numeral spells).same_tokens

mutual
/-- The pretty and the compact text of a value have the same tokens. -/
theorem pretty_same_tokens (depth : Nat) (value : Json) :
    SameTokens (value.writePretty depth) value.write := by
  cases value with
  | null => exact is_token_null.same_tokens
  | bool flag => cases flag with
      | true => exact (is_token_bool true).same_tokens
      | false => exact (is_token_bool false).same_tokens
  | number number => exact write_number_same_tokens number
  | string text => exact (is_token_string text).same_tokens
  | array items =>
      have opens : IsMark '[' .beginArray := ⟨rfl, rfl, fun _ => rfl⟩
      have closes : IsMark ']' .endArray := ⟨rfl, rfl, fun _ => rfl⟩
      exact block_same_tokens opens closes (pretty_items_same_tokens (depth + 1) items)
  | object members =>
      have opens : IsMark '\x7b' .beginObject := ⟨rfl, rfl, fun _ => rfl⟩
      have closes : IsMark '\x7d' .endObject := ⟨rfl, rfl, fun _ => rfl⟩
      exact block_same_tokens opens closes (pretty_members_same_tokens (depth + 1) members)
theorem pretty_items_same_tokens (depth : Nat) (items : List Json) :
    List.Forall₂ SameTokens (prettyItems depth items) (writeItems items) := by
  cases items with
  | nil => exact .nil
  | cons item items =>
      exact .cons (pretty_same_tokens depth item) (pretty_items_same_tokens depth items)
theorem pretty_members_same_tokens (depth : Nat) (members : List (String × Json)) :
    List.Forall₂ SameTokens (prettyMembers depth members) (writeMembers members) := by
  cases members with
  | nil => exact .nil
  | cons member members =>
      apply List.Forall₂.cons _ (pretty_members_same_tokens depth members)
      intro rest behind ends stops same
      simp only [List.append_assoc, List.cons_append]
      refine (is_token_string member.1).same_tokens _ _ rfl rfl ?_
      apply is_mark_colon.tokens_cons
      rw [tokens_blank rfl]
      exact pretty_same_tokens depth member.2 rest behind ends stops same
end

theorem parse_pretty (value : Json) : Document.parse (value.writePretty 0) = some value.document := by
  have nothing : EndsNumeral [] := rfl
  have same := pretty_same_tokens 0 value [] [] nothing nothing rfl
  rw [List.append_nil, List.append_nil] at same
  rw [← parse_write value, Document.parse, Document.parse, same]

end RouteManifest.Json
