/-!
Blank characters and trimming. A character is blank when it has the Unicode
property White_Space; the table below lists all twenty-five of them. Script
values, role lists and protocol lines are trimmed by this one rule.
-/

namespace RouteManifest.Text

/-- The first and last code point of every run of blank characters. -/
def blankRanges : List (Nat × Nat) :=
  [(0x09, 0x0D), (0x20, 0x20), (0x85, 0x85), (0xA0, 0xA0), (0x1680, 0x1680),
   (0x2000, 0x200A), (0x2028, 0x2029), (0x202F, 0x202F), (0x205F, 0x205F), (0x3000, 0x3000)]

def isBlank (character : Char) : Bool :=
  blankRanges.any fun (first, last) => first ≤ character.toNat && character.toNat ≤ last

def trimLeft (text : List Char) : List Char := text.dropWhile isBlank

/-- Drops the longest end whose characters are all accepted. -/
def dropEndWhile (accept : Char → Bool) : List Char → List Char
  | [] => []
  | character :: rest =>
      match dropEndWhile accept rest with
      | [] => if accept character then [] else [character]
      | kept => character :: kept

def trimRight (text : List Char) : List Char := dropEndWhile isBlank text

def trim (text : List Char) : List Char := trimRight (trimLeft text)

/-- Every character is blank; the empty text is blank too. -/
def isBlankText (text : List Char) : Bool := text.all isBlank

theorem drop_end_while_eq_nil_iff {accept : Char → Bool} {text : List Char} :
    dropEndWhile accept text = [] ↔ text.all accept = true := by
  induction text with
  | nil => simp [dropEndWhile]
  | cons character rest induction =>
      rw [dropEndWhile]
      simp only [List.all_cons, Bool.and_eq_true]
      cases dropped : dropEndWhile accept rest with
      | nil =>
          have all := induction.mp dropped
          by_cases head : accept character = true <;> simp [head, all]
      | cons kept more =>
          have notAll := mt induction.mpr (by simp [dropped])
          simp [notAll]

theorem trim_right_eq_nil_iff {text : List Char} :
    trimRight text = [] ↔ isBlankText text = true := drop_end_while_eq_nil_iff

end RouteManifest.Text
