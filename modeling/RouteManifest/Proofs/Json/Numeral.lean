import RouteManifest.Proofs.Json.String
import RouteManifest.Proofs.Number.Rounding
import RouteManifest.Proofs.Number.Shortest

/-!
Numbers written and read back as numerals. A numeral is spelled by its parts, and a text that
spells one is read as it whenever what follows cannot be a part of it. Every number is written
as the spelling of a numeral, or as null when it is not finite.
-/

namespace RouteManifest.Json

open RouteManifest.Number

/-- Digits, and no zero in front of others. -/
structure IsWhole (digits : List Char) : Prop where
  nonempty : digits ≠ []
  all : ∀ digit ∈ digits, isDigit digit = true
  zero : digits.head? = some '0' → digits.length = 1

/-- A point with the digits behind it, or nothing. -/
inductive FractionText : List Char → List Char → Prop
  | none : FractionText [] []
  | some {digits : List Char} (nonempty : digits ≠ [])
      (all : ∀ digit ∈ digits, isDigit digit = true) : FractionText ('.' :: digits) digits

/-- The exponent mark with a sign and digits, or nothing. -/
inductive ExponentText : List Char → Option (Bool × List Char) → Prop
  | none : ExponentText [] none
  | some {negative : Bool} {digits : List Char} (nonempty : digits ≠ [])
      (all : ∀ digit ∈ digits, isDigit digit = true) :
      ExponentText ('e' :: (if negative then '-' else '+') :: digits) (some (negative, digits))

def signText (negative : Bool) : List Char := if negative then ['-'] else []

/-- The text consists of the parts of the numeral. -/
structure Spells (text : List Char) (numeral : Numeral) : Prop where
  whole : IsWhole numeral.whole
  parts : ∃ fraction exponent, FractionText fraction numeral.fraction ∧
    ExponentText exponent numeral.exponent ∧
    text = signText numeral.negative ++ (numeral.whole ++ (fraction ++ exponent))

def continuesNumeral (character : Char) : Bool :=
  isDigit character || character = '.' || character = 'e' || character = 'E'

/-- What follows does not go on with a numeral. -/
def EndsNumeral (rest : List Char) : Prop := rest.head?.any continuesNumeral = false

section Reading

variable {rest : List Char}

theorem head_append {front back : List Char} (nonempty : front ≠ []) :
    (front ++ back).head? = front.head? := by
  rw [List.head?_append, Option.or_of_isSome (List.isSome_head?.mpr nonempty)]

theorem take_digits {digits : List Char} (all : ∀ digit ∈ digits, isDigit digit = true)
    (stops : rest.head?.any isDigit = false) :
    (digits ++ rest).takeWhile isDigit = digits ∧ (digits ++ rest).dropWhile isDigit = rest := by
  have nothing : rest.takeWhile isDigit = [] ∧ rest.dropWhile isDigit = rest := by
    cases rest with
    | nil => exact ⟨rfl, rfl⟩
    | cons character rest =>
        have other : isDigit character = false := by simpa using stops
        simp [other]
  rw [List.takeWhile_append_of_pos all, List.dropWhile_append_of_pos all, nothing.1, nothing.2,
    List.append_nil]
  exact ⟨rfl, rfl⟩

theorem EndsNumeral.no_digit (ends : EndsNumeral rest) : rest.head?.any isDigit = false := by
  cases rest with
  | nil => rfl
  | cons character rest =>
      have other : continuesNumeral character = false := by simpa [EndsNumeral] using ends
      simp only [continuesNumeral, Bool.or_eq_false_iff] at other
      simpa using other.1.1.1

theorem read_exponent_spelled {text : List Char} {exponent : Option (Bool × List Char)}
    (spelled : ExponentText text exponent) (ends : EndsNumeral rest) :
    readExponentPart (text ++ rest) = some (exponent, rest) := by
  cases spelled with
  | none =>
      cases rest with
      | nil => rfl
      | cons character rest =>
          have other : continuesNumeral character = false := by simpa [EndsNumeral] using ends
          simp only [continuesNumeral, Bool.or_eq_false_iff, decide_eq_false_iff_not] at other
          simp [readExponentPart, other]
  | @some negative digits nonempty all =>
      have cut := take_digits all ends.no_digit
      cases negative <;> simp [readExponentPart, readSign, cut, nonempty]

theorem exponent_no_digit {text : List Char} {exponent : Option (Bool × List Char)}
    (spelled : ExponentText text exponent) (ends : EndsNumeral rest) :
    (text ++ rest).head?.any isDigit = false := by
  cases spelled with
  | none => exact ends.no_digit
  | some => rfl

theorem read_fraction_spelled {text fraction : List Char} (spelled : FractionText text fraction)
    (stops : rest.head?.any isDigit = false) (noPoint : rest.head? ≠ some '.') :
    readFraction (text ++ rest) = some (fraction, rest) := by
  cases spelled with
  | none =>
      rw [List.nil_append]
      unfold readFraction
      split
      · exact absurd rfl noPoint
      · rfl
  | some nonempty all =>
      have cut := take_digits all stops
      simp [readFraction, cut, nonempty]

theorem exponent_no_point {text : List Char} {exponent : Option (Bool × List Char)}
    (spelled : ExponentText text exponent) (ends : EndsNumeral rest) :
    (text ++ rest).head? ≠ some '.' := by
  cases spelled with
  | none =>
      intro point
      have here : rest.head? = some '.' := point
      simp [EndsNumeral, here, continuesNumeral] at ends
  | some => simp

theorem fraction_no_digit {text fraction : List Char} (spelled : FractionText text fraction)
    (stops : rest.head?.any isDigit = false) : (text ++ rest).head?.any isDigit = false := by
  cases spelled with
  | none => exact stops
  | some => rfl

theorem read_unsigned_spelled {whole fractionText fraction exponentText : List Char}
    {exponent : Option (Bool × List Char)} (negative : Bool) (isWhole : IsWhole whole)
    (fractionSpelled : FractionText fractionText fraction)
    (exponentSpelled : ExponentText exponentText exponent) (ends : EndsNumeral rest) :
    readUnsigned negative (whole ++ (fractionText ++ (exponentText ++ rest))) =
      some (⟨negative, whole, fraction, exponent⟩, rest) := by
  have exponentStops := exponent_no_digit exponentSpelled ends
  have cut := take_digits isWhole.all (fraction_no_digit fractionSpelled exponentStops)
  have fractionRead := read_fraction_spelled fractionSpelled exponentStops
    (exponent_no_point exponentSpelled ends)
  have exponentRead := read_exponent_spelled exponentSpelled ends
  have accepted : ¬ (whole.isEmpty || (whole.head? == some '0' && 1 < whole.length)) = true := by
    simp only [Bool.or_eq_true, List.isEmpty_iff, Bool.and_eq_true, beq_iff_eq, decide_eq_true_eq]
    rintro (empty | ⟨zero, long⟩)
    · exact isWhole.nonempty empty
    · exact absurd (isWhole.zero zero) (by omega)
  simp [readUnsigned, cut, accepted, fractionRead, exponentRead]

/-- A spelled numeral is read, and what follows it is left. -/
theorem read_numeral_spelled {text : List Char} {numeral : Numeral} (spells : Spells text numeral)
    (ends : EndsNumeral rest) : readNumeral (text ++ rest) = some (numeral, rest) := by
  obtain ⟨negative, whole, fraction, exponent⟩ := numeral
  obtain ⟨isWhole, fractionText, exponentText, fractionSpelled, exponentSpelled, rfl⟩ := spells
  have read := read_unsigned_spelled negative isWhole fractionSpelled exponentSpelled ends
  simp only [List.append_assoc]
  cases negative with
  | true => exact read
  | false =>
      rw [signText, if_neg (by decide), List.nil_append]
      unfold readNumeral
      split
      · next minus =>
          have first : whole.head? = some '-' := by
            have heads := congrArg List.head? minus
            rwa [head_append isWhole.nonempty] at heads
          exact absurd (isWhole.all '-' (List.mem_of_head? first)) (by decide)
      · exact read

end Reading

theorem digits_one_line {digits : List Char} (all : ∀ digit ∈ digits, isDigit digit = true) :
    OneLine digits := by
  intro digit member
  have isOne := all digit member
  simp only [isDigit, Bool.and_eq_true, decide_eq_true_eq, Char.le_def,
    UInt32.le_iff_toNat_le] at isOne
  have low : 48 ≤ digit.toNat := isOne.1
  simp only [isControl, decide_eq_false_iff_not]
  omega

theorem Spells.one_line {text : List Char} {numeral : Numeral} (spells : Spells text numeral) :
    OneLine text := by
  obtain ⟨isWhole, fraction, exponent, fractionSpelled, exponentSpelled, rfl⟩ := spells
  simp only [one_line_append]
  refine ⟨?_, digits_one_line isWhole.all, ?_, ?_⟩
  · cases numeral.negative <;> simp [signText, one_line_cons, one_line_nil, isControl]
  · generalize numeral.fraction = digits at fractionSpelled
    cases fractionSpelled with
    | none => exact one_line_nil
    | some nonempty all => exact one_line_cons.mpr ⟨by decide, digits_one_line all⟩
  · generalize numeral.exponent = digits at exponentSpelled
    cases exponentSpelled with
    | none => exact one_line_nil
    | @some negative digits nonempty all =>
        simp only [one_line_cons]
        exact ⟨by decide, by cases negative <;> decide, digits_one_line all⟩

theorem is_whole_to_digits (value : Nat) : IsWhole (Nat.toDigits 10 value) where
  nonempty := Nat.toDigits_ne_nil
  all := to_digits_all value
  zero head := by
    rw [head_to_digits head]
    rfl

theorem is_whole_zero : IsWhole ['0'] where
  nonempty := List.cons_ne_nil _ _
  all := List.all_eq_true.mp rfl
  zero _ := rfl

/-- The numeral without sign that a text spells. -/
def SpellsUnsigned (text : List Char) : Prop :=
  ∃ whole fraction exponent, Spells text ⟨false, whole, fraction, exponent⟩

theorem spells_unsigned_of_parts {whole fractionText fraction exponentText : List Char}
    {exponent : Option (Bool × List Char)} (isWhole : IsWhole whole)
    (fractionSpelled : FractionText fractionText fraction)
    (exponentSpelled : ExponentText exponentText exponent) :
    SpellsUnsigned (whole ++ (fractionText ++ exponentText)) :=
  ⟨whole, fraction, exponent, isWhole, _, _, fractionSpelled, exponentSpelled, rfl⟩

theorem spells_signed {text : List Char} (unsigned : SpellsUnsigned text) :
    ∃ numeral, Spells ('-' :: text) numeral := by
  obtain ⟨whole, fraction, exponent, isWhole, _, _, fractionSpelled, exponentSpelled, rfl⟩ :=
    unsigned
  exact ⟨⟨true, whole, fraction, exponent⟩, isWhole, _, _, fractionSpelled, exponentSpelled, rfl⟩

theorem write_positional_spells {digits : List Char} {exponent : Int} (isWhole : IsWhole digits)
    (zero : digits.head? = some '0' → exponent = 0) :
    SpellsUnsigned (writePositional true digits exponent) := by
  unfold writePositional
  split
  · next nonnegative =>
      have point : FractionText ['.', '0'] ['0'] := .some is_whole_zero.nonempty is_whole_zero.all
      have extended : IsWhole (digits ++ List.replicate exponent.toNat '0') := by
        refine ⟨by simp [isWhole.nonempty], ?_, ?_⟩
        · intro digit member
          rcases List.mem_append.mp member with inside | added
          · exact isWhole.all digit inside
          · rw [(List.mem_replicate.mp added).2]
            rfl
        · intro head
          rw [head_append isWhole.nonempty] at head
          simp [zero head, isWhole.zero head]
      have spelled := spells_unsigned_of_parts extended point .none
      simpa using spelled
  · next negative =>
      have noZero : digits.head? ≠ some '0' := by
        intro head
        have none := zero head
        omega
      dsimp only
      split
      · next inside =>
          have front : IsWhole (digits.take (digits.length - (-exponent).toNat)) := by
            refine ⟨?_, fun digit member => isWhole.all digit (List.mem_of_mem_take member), ?_⟩
            · simp only [Ne, List.take_eq_nil_iff, isWhole.nonempty, or_false]
              omega
            · intro head
              rw [List.head?_take, if_neg (by omega)] at head
              exact absurd head noZero
          have back : FractionText ('.' :: digits.drop (digits.length - (-exponent).toNat))
              (digits.drop (digits.length - (-exponent).toNat)) := by
            refine .some ?_ fun digit member => isWhole.all digit (List.mem_of_mem_drop member)
            simp only [Ne, List.drop_eq_nil_iff]
            omega
          simpa using spells_unsigned_of_parts front back .none
      · have behind : FractionText
            ('.' :: (List.replicate ((-exponent).toNat - digits.length) '0' ++ digits))
            (List.replicate ((-exponent).toNat - digits.length) '0' ++ digits) := by
          refine .some (by simp [isWhole.nonempty]) ?_
          intro digit member
          rcases List.mem_append.mp member with added | inside
          · rw [(List.mem_replicate.mp added).2]
            rfl
          · exact isWhole.all digit inside
        simpa using spells_unsigned_of_parts is_whole_zero behind .none

theorem write_scientific_spells {digits : List Char} {exponent : Int} (isWhole : IsWhole digits) :
    SpellsUnsigned (writeScientific digits exponent) := by
  obtain ⟨digit, others, rfl⟩ := List.exists_cons_of_ne_nil isWhole.nonempty
  have first : IsWhole [digit] :=
    ⟨by simp, fun other member => isWhole.all other (by simp_all), fun _ => rfl⟩
  have power : ExponentText
      ('e' :: (if exponent < 0 then '-' else '+') :: Nat.toDigits 10 exponent.natAbs)
      (some (exponent < 0, Nat.toDigits 10 exponent.natAbs)) := by
    have spelled : ExponentText _ (some (decide (exponent < 0), _)) :=
      .some Nat.toDigits_ne_nil (to_digits_all exponent.natAbs)
    simpa using spelled
  cases others with
  | nil => simpa [writeScientific] using spells_unsigned_of_parts first .none power
  | cons next others =>
      have point : FractionText ('.' :: next :: others) (next :: others) :=
        .some (by simp) fun other member => isWhole.all other (List.mem_cons_of_mem _ member)
      simpa [writeScientific] using spells_unsigned_of_parts first point power

theorem write_magnitude_spells (number : Binary64) :
    SpellsUnsigned (numberLayout.writeMagnitude number) := by
  unfold Layout.writeMagnitude
  split
  · exact write_positional_spells is_whole_zero fun _ => rfl
  · have isWhole := is_whole_to_digits (shortest numberLayout.tie number).digits
    dsimp only
    split
    · apply write_positional_spells isWhole
      intro head
      rcases shortest_digits numberLayout.tie number with digits | zero
      · exact absurd (head_to_digits head) digits
      · rw [zero]
    · exact write_scientific_spells isWhole

theorem write_integer_spells (value : Int) :
    Spells (writeInteger value) ⟨decide (value < 0), Nat.toDigits 10 value.natAbs, [], none⟩ where
  whole := is_whole_to_digits value.natAbs
  parts := by
    refine ⟨[], [], .none, .none, ?_⟩
    rw [writeInteger]
    split
    · next negative => simp [signText, negative]
    · next nonnegative => simp [signText, nonnegative]

theorem write_finite_spells {number : Binary64} (finite : number.isFinite = true) :
    ∃ numeral, Spells (writeNumber (.real number)) numeral := by
  have unsigned := write_magnitude_spells number
  have ordinary := Binary64.is_finite_iff.mp finite
  have noNaN : ¬ number.isNaN = true := by simp [Binary64.isNaN, ordinary]
  have noInfinity : ¬ number.isInfinite = true := by simp [Binary64.isInfinite, ordinary]
  rw [writeNumber, Layout.write, if_neg noNaN, if_neg noInfinity]
  split
  · exact spells_signed unsigned
  · obtain ⟨whole, fraction, exponent, spells⟩ := unsigned
    exact ⟨_, spells⟩

theorem write_not_finite {number : Binary64} (infinite : ¬ number.isFinite = true) :
    writeNumber (.real number) = ['n', 'u', 'l', 'l'] := by
  have special : number.field = Binary64.specialField :=
    Decidable.not_not.mp fun ordinary => infinite (Binary64.is_finite_iff.mpr ordinary)
  rw [writeNumber, Layout.write]
  split
  · rfl
  · next noNaN =>
      simp only [Binary64.isNaN, special, decide_true, Bool.true_and, decide_eq_true_eq,
        Decidable.not_not] at noNaN
      rw [if_pos (by simp [Binary64.isInfinite, special, noNaN])]
      split <;> rfl

/-- A number is written as null, or so that it can be read as a numeral. -/
theorem write_number_spells (number : JsonNumber) :
    writeNumber number = ['n', 'u', 'l', 'l'] ∨ ∃ numeral, Spells (writeNumber number) numeral := by
  cases number with
  | whole value => exact .inr ⟨_, write_integer_spells value⟩
  | real value =>
      by_cases finite : value.isFinite = true
      · exact .inr (write_finite_spells finite)
      · exact .inl (write_not_finite finite)

/-- The whole numbers that have a 64-bit form, with a sign or without. -/
def IsStored (value : Int) : Prop := -0x8000000000000000 ≤ value ∧ value ≤ 0xFFFFFFFFFFFFFFFF

theorem absorb_of_le {digits : List Char} {value : Nat}
    (fits : Nat.ofDigitChars 10 digits value ≤ significandLimit) :
    absorb value digits = (Nat.ofDigitChars 10 digits value, []) := by
  induction digits generalizing value with
  | nil => rfl
  | cons digit rest induction =>
      rw [Nat.ofDigitChars_cons] at fits ⊢
      have within := Nat.le_trans (le_of_digit_chars rest _) fits
      have taken : 10 * value + digitValue digit ≤ significandLimit := within
      rw [absorb, if_pos taken]
      exact induction fits

theorem absorb_le {digits : List Char} {value : Nat} (fits : value ≤ significandLimit) :
    (absorb value digits).1 ≤ significandLimit := by
  fun_induction absorb value digits with
  | case1 => exact fits
  | case2 value digit rest extended within induction => exact induction within
  | case3 => exact fits

theorem whole_number_stored {negative : Bool} {significand : Nat} {value : Int}
    (fits : significand ≤ significandLimit)
    (taken : wholeNumber negative significand = .whole value) : IsStored value := by
  simp only [significandLimit] at fits
  unfold wholeNumber at taken
  split at taken
  · cases taken
    exact ⟨by omega, by omega⟩
  · split at taken
    · cases taken
    · next small =>
        simp only [Bool.or_eq_true, decide_eq_true_eq, not_or, Nat.not_lt] at small
        cases taken
        exact ⟨by omega, by omega⟩

theorem numeral_value_stored {numeral : Numeral} {value : Int}
    (read : numeral.value? = some (.whole value)) : IsStored value := by
  unfold Numeral.value? at read
  dsimp only at read
  split at read
  · split at read
    · exact whole_number_stored (absorb_le (Nat.zero_le _)) (Option.some.inj read)
    · simp [signed] at read
  · split at read
    · split at read <;> simp [signed] at read
    · simp [signed] at read

theorem numeral_value_written {value : Int} (stored : IsStored value) :
    Numeral.value? ⟨decide (value < 0), Nat.toDigits 10 value.natAbs, [], none⟩ =
      some (.whole value) := by
  obtain ⟨low, high⟩ := stored
  have same : Nat.ofDigitChars 10 (Nat.toDigits 10 value.natAbs) 0 = value.natAbs := by simp
  have absorbed : absorb 0 (Nat.toDigits 10 value.natAbs) = (value.natAbs, []) := by
    rw [absorb_of_le (by rw [same, significandLimit]; omega), same]
  rw [Numeral.value?, absorbed]
  simp only [List.isEmpty_nil, Bool.and_self, if_true, Option.some.injEq, wholeNumber]
  split
  · next nonnegative =>
      simp only [Bool.not_eq_true', decide_eq_false_iff_not] at nonnegative
      exact congrArg JsonNumber.whole (by omega)
  · next negative =>
      simp only [Bool.not_eq_true', decide_eq_false_iff_not, Decidable.not_not] at negative
      rw [if_neg (by simp only [Bool.or_eq_true, decide_eq_true_eq]; omega)]
      exact congrArg JsonNumber.whole (by omega)

theorem of_significand_field {significand : Nat} (fits : significand ≤ significandLimit) :
    (Binary64.ofNat significand).field ≤ 1090 := by
  have short : significandLimit ≤ 2 ^ 64 * 1 := by decide
  have atMost : Ratio.AtMost ⟨significand, 1⟩ 64 := ⟨Nat.one_pos, Nat.le_trans fits short⟩
  exact Binary64.field_of_ratio_le atMost (by decide)

theorem le_field_ten_to (power : Nat) : 1023 ≤ (tenTo power).field :=
  Binary64.le_field_of_nat (Nat.pow_pos (by decide))

theorem scaled_finite {significand : Nat} {exponent : Int} {number : Binary64}
    (fits : significand ≤ significandLimit) (read : scaled? significand exponent = some number) :
    number.isFinite = true := by
  have field := of_significand_field fits
  unfold scaled? at read
  dsimp only at read
  split at read
  · cases read
    exact Binary64.finite_of_field_le (by omega)
  · split at read
    · cases read
    · split at read
      · split at read
        · cases read
        · next notInfinite =>
            cases read
            exact (Binary64.of_ratio_finite_or_infinite _ _).resolve_right notInfinite
      · split at read
        · cases read
          have power := le_field_ten_to (-exponent).toNat
          have once : _ ≤ 68 + 1026 := Binary64.field_div_le field (by decide) power
          exact Binary64.finite_of_field_le (by omega)
        · split at read
          · cases read
            have whole := le_field_ten_to 308
            have power := le_field_ten_to (-exponent - 308).toNat
            have once : _ ≤ 68 + 1026 := Binary64.field_div_le field (by decide) whole
            have twice : _ ≤ 72 + 1026 := Binary64.field_div_le once (by decide) power
            exact Binary64.finite_of_field_le (by omega)
          · cases read
            decide

theorem signed_finite {negative : Bool} {number value : Binary64} (finite : number.isFinite = true)
    (taken : signed negative number = .real value) : value.isFinite = true := by
  cases taken
  split
  · rw [Binary64.is_finite_iff] at finite ⊢
    rwa [Binary64.negate_field]
  · exact finite

theorem whole_number_finite {negative : Bool} {significand : Nat} {value : Binary64}
    (fits : significand ≤ significandLimit)
    (taken : wholeNumber negative significand = .real value) : value.isFinite = true := by
  unfold wholeNumber at taken
  split at taken
  · cases taken
  · split at taken
    · have field := of_significand_field fits
      exact signed_finite (Binary64.finite_of_field_le (by omega)) taken
    · cases taken

/-- A numeral has no value or a finite one. -/
theorem numeral_value_finite {numeral : Numeral} {value : Binary64}
    (read : numeral.value? = some (.real value)) : value.isFinite = true := by
  have front : (absorb 0 numeral.whole).1 ≤ significandLimit := absorb_le (Nat.zero_le _)
  have all : (absorb (absorb 0 numeral.whole).1 numeral.fraction).1 ≤ significandLimit :=
    absorb_le front
  unfold Numeral.value? at read
  dsimp only at read
  split at read
  · split at read
    · exact whole_number_finite front (Option.some.inj read)
    · obtain ⟨number, taken, same⟩ := Option.map_eq_some_iff.mp read
      exact signed_finite (scaled_finite all taken) same
  · split at read
    · split at read
      · cases read
      · exact signed_finite (by decide) (Option.some.inj read)
    · obtain ⟨number, taken, same⟩ := Option.map_eq_some_iff.mp read
      exact signed_finite (scaled_finite all taken) same

end RouteManifest.Json
