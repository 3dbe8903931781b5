import RouteManifest.Number.Literal

/-!
Integer literals by their characters. The reader extends a value digit by digit and stops at
the first one that leaves the range, so a literal is read exactly when its number stays within
the limit; the writer gives such a literal for every 64-bit integer.
-/

namespace RouteManifest.Number

theorem is_digit_iff {character : Char} : isDigit character = true ↔ character.isDigit = true := by
  simp [isDigit, Char.isDigit, Char.le_def]

theorem le_of_digit_chars (digits : List Char) (value : Nat) :
    value ≤ Nat.ofDigitChars 10 digits value := by
  induction digits generalizing value with
  | nil => simp
  | cons digit rest induction =>
      rw [Nat.ofDigitChars_cons]
      have later := induction (10 * value + (digit.toNat - '0'.toNat))
      omega

theorem read_digits_of_le {limit : Nat} {excess : IntegerFault} {digits : List Char} {value : Nat}
    (all : ∀ digit ∈ digits, digit.isDigit = true)
    (fits : Nat.ofDigitChars 10 digits value ≤ limit) :
    readDigits limit excess value digits = .ok (Nat.ofDigitChars 10 digits value) := by
  induction digits generalizing value with
  | nil => simp [readDigits]
  | cons digit rest induction =>
      rw [Nat.ofDigitChars_cons] at fits ⊢
      have isOne := is_digit_iff.mpr (all digit List.mem_cons_self)
      have within := Nat.le_trans (le_of_digit_chars rest _) fits
      have later := induction (fun other member => all other (List.mem_cons_of_mem _ member)) fits
      simp only [readDigits, isOne, if_true]
      rw [if_pos (by simpa [digitValue] using within)]
      exact later

/-- At least one digit, and the number that the digits stand for. -/
structure IsDigits (digits : List Char) (value : Nat) : Prop where
  nonempty : digits ≠ []
  all : ∀ digit ∈ digits, digit.isDigit = true
  counts : value = Nat.ofDigitChars 10 digits 0

/-- An optional sign in front of digits. Zeros may stand in front of other digits. -/
inductive SpellsInteger : List Char → Int → Prop
  | unsigned {digits : List Char} {value : Nat} (isDigits : IsDigits digits value) :
      SpellsInteger digits value
  | plus {digits : List Char} {value : Nat} (isDigits : IsDigits digits value) :
      SpellsInteger ('+' :: digits) value
  | minus {digits : List Char} {value : Nat} (isDigits : IsDigits digits value) :
      SpellsInteger ('-' :: digits) (-value)

theorem IsDigits.read {limit value : Nat} {digits : List Char} (isDigits : IsDigits digits value)
    (excess : IntegerFault) (fits : value ≤ limit) :
    readDigits limit excess 0 digits = .ok value := by
  rw [isDigits.counts] at fits ⊢
  exact read_digits_of_le isDigits.all fits

theorem read_digits_eq_ok {limit start value : Nat} {excess : IntegerFault} {digits : List Char}
    (fits : start ≤ limit) (read : readDigits limit excess start digits = .ok value) :
    (∀ digit ∈ digits, digit.isDigit = true) ∧ value = Nat.ofDigitChars 10 digits start ∧
      value ≤ limit := by
  induction digits generalizing start with
  | nil =>
      cases read
      exact ⟨List.forall_mem_nil _, rfl, fits⟩
  | cons digit rest induction =>
      simp only [readDigits] at read
      split at read
      · next isOne =>
          split at read
          · next within =>
              obtain ⟨all, counts, le⟩ := induction within read
              refine ⟨List.forall_mem_cons.mpr ⟨is_digit_iff.mp isOne, all⟩, ?_, le⟩
              rw [counts, Nat.ofDigitChars_cons]
              rfl
          · cases read
      · cases read

theorem is_digits_of_read {limit : Nat} {excess : IntegerFault} {digits : List Char}
    {toInt : Nat → Int} {number : Int64} (nonempty : digits ≠ [])
    (fits : ∀ value ≤ limit,
      -0x8000000000000000 ≤ toInt value ∧ toInt value < 0x8000000000000000)
    (read : (readDigits limit excess 0 digits).map (fun value => Int64.ofInt (toInt value)) =
      .ok number) :
    ∃ value, IsDigits digits value ∧ number.toInt = toInt value := by
  cases inner : readDigits limit excess 0 digits with
  | error fault => simp [inner, Except.map] at read
  | ok value =>
      obtain ⟨all, counts, le⟩ := read_digits_eq_ok (Nat.zero_le limit) inner
      obtain ⟨low, high⟩ := fits value le
      rw [inner] at read
      obtain rfl := Except.ok.inj read
      exact ⟨value, ⟨nonempty, all, counts⟩, Int64.toInt_ofInt_of_le (by omega) (by omega)⟩

theorem is_digits_to_digits (value : Nat) : IsDigits (Nat.toDigits 10 value) value where
  nonempty := Nat.toDigits_ne_nil
  all := fun _ member => Nat.isDigit_of_mem_toDigits (by decide) (by decide) member
  counts := by simp

theorem read_integer_minus {digits : List Char} (nonempty : digits ≠ []) :
    readInteger ('-' :: digits) =
      (readDigits smallestMagnitude .tooSmall 0 digits).map fun (value : Nat) =>
        Int64.ofInt (-(value : Int)) := by
  obtain ⟨digit, rest, rfl⟩ := List.exists_cons_of_ne_nil nonempty
  rw [readInteger]
  · cases readDigits smallestMagnitude .tooSmall 0 (digit :: rest) <;> rfl
  · simp

theorem read_integer_plus {digits : List Char} (nonempty : digits ≠ []) :
    readInteger ('+' :: digits) =
      (readDigits largestInteger .tooLarge 0 digits).map fun (value : Nat) => Int64.ofInt value := by
  obtain ⟨digit, rest, rfl⟩ := List.exists_cons_of_ne_nil nonempty
  rw [readInteger]
  · cases readDigits largestInteger .tooLarge 0 (digit :: rest) <;> rfl
  · simp

theorem read_integer_bare {digits : List Char} (nonempty : digits ≠ [])
    (noMinus : digits.head? ≠ some '-') (noPlus : digits.head? ≠ some '+') :
    readInteger digits =
      (readDigits largestInteger .tooLarge 0 digits).map fun (value : Nat) => Int64.ofInt value := by
  unfold readInteger
  split
  · exact absurd rfl nonempty
  · exact absurd rfl noPlus
  · exact absurd rfl noMinus
  · exact absurd rfl noMinus
  · exact absurd rfl noPlus
  · cases readDigits largestInteger .tooLarge 0 digits <;> rfl

theorem IsDigits.no_sign {digits : List Char} {value : Nat} (isDigits : IsDigits digits value) :
    digits.head? ≠ some '-' ∧ digits.head? ≠ some '+' := by
  constructor <;> intro sign <;>
    exact absurd (isDigits.all _ (List.mem_of_head? sign)) (by decide)

theorem spells_of_read_integer {text : List Char} {number : Int64}
    (read : readInteger text = .ok number) : SpellsInteger text number.toInt := by
  have below : ∀ value ≤ smallestMagnitude,
      -0x8000000000000000 ≤ -(value : Int) ∧ -(value : Int) < 0x8000000000000000 := by
    simp only [smallestMagnitude]
    omega
  have above : ∀ value ≤ largestInteger,
      -0x8000000000000000 ≤ (value : Int) ∧ (value : Int) < 0x8000000000000000 := by
    simp only [largestInteger]
    omega
  by_cases minus : text.head? = some '-'
  · obtain ⟨digits, rfl⟩ := List.head?_eq_some_iff.mp minus
    have nonempty : digits ≠ [] := by
      rintro rfl
      cases read
    rw [read_integer_minus nonempty] at read
    obtain ⟨value, isDigits, counts⟩ := is_digits_of_read nonempty below read
    rw [counts]
    exact .minus isDigits
  by_cases plus : text.head? = some '+'
  · obtain ⟨digits, rfl⟩ := List.head?_eq_some_iff.mp plus
    have nonempty : digits ≠ [] := by
      rintro rfl
      cases read
    rw [read_integer_plus nonempty] at read
    obtain ⟨value, isDigits, counts⟩ := is_digits_of_read nonempty above read
    rw [counts]
    exact .plus isDigits
  · have nonempty : text ≠ [] := by
      rintro rfl
      cases read
    rw [read_integer_bare nonempty minus plus] at read
    obtain ⟨value, isDigits, counts⟩ := is_digits_of_read nonempty above read
    rw [counts]
    exact .unsigned isDigits

theorem SpellsInteger.read {text : List Char} {value : Int} (spells : SpellsInteger text value)
    (low : -0x8000000000000000 ≤ value) (high : value < 0x8000000000000000) :
    readInteger text = .ok (Int64.ofInt value) := by
  cases spells with
  | unsigned isDigits =>
      rw [read_integer_bare isDigits.nonempty isDigits.no_sign.1 isDigits.no_sign.2,
        isDigits.read .tooLarge (by simp only [largestInteger]; omega)]
      rfl
  | plus isDigits =>
      rw [read_integer_plus isDigits.nonempty,
        isDigits.read .tooLarge (by simp only [largestInteger]; omega)]
      rfl
  | minus isDigits =>
      rw [read_integer_minus isDigits.nonempty,
        isDigits.read .tooSmall (by simp only [smallestMagnitude]; omega)]
      rfl

/-- Exactly the literals of numbers of 64 bits are read, each as its number. -/
theorem read_integer_eq_ok_iff {text : List Char} {number : Int64} :
    readInteger text = .ok number ↔ SpellsInteger text number.toInt := by
  constructor
  · exact spells_of_read_integer
  · intro spells
    have low := number.le_toInt
    have high := number.toInt_lt
    rw [spells.read (by omega) (by omega), Int64.ofInt_toInt]

theorem mem_write_integer {value : Int} {character : Char}
    (member : character ∈ writeInteger value) : character = '-' ∨ character.isDigit = true := by
  have digits : ∀ {magnitude : Nat}, character ∈ Nat.toDigits 10 magnitude →
      character.isDigit = true :=
    fun present => Nat.isDigit_of_mem_toDigits (by decide) (by decide) present
  unfold writeInteger at member
  split at member
  · rcases List.mem_cons.mp member with sign | digit
    · exact .inl sign
    · exact .inr (digits digit)
  · exact .inr (digits member)

theorem spells_write_integer (value : Int) : SpellsInteger (writeInteger value) value := by
  have digits := is_digits_to_digits value.natAbs
  unfold writeInteger
  split
  · have spells := SpellsInteger.minus digits
    rwa [show -(value.natAbs : Int) = value by omega] at spells
  · have spells := SpellsInteger.unsigned digits
    rwa [show (value.natAbs : Int) = value by omega] at spells

theorem read_integer_write_integer (number : Int64) :
    readInteger (writeInteger number.toInt) = .ok number :=
  read_integer_eq_ok_iff.mpr (spells_write_integer number.toInt)

end RouteManifest.Number
