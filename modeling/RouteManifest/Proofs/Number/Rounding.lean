import Mathlib.Algebra.Group.Nat.Defs
import RouteManifest.Number.Binary64

/-!
Bounds for rounded numbers. A ratio below a power of two is rounded to a number whose exponent
field stays in proportion, so quotients by numbers from one on never reach infinity. A rounded
number is finite or infinite, and never anything else.
-/

namespace RouteManifest.Number

namespace Ratio

/-- The ratio is a number and at most a power of two. -/
structure AtMost (ratio : Ratio) (limit : Nat) : Prop where
  positive : 0 < ratio.denominator
  le : ratio.numerator ≤ 2 ^ limit * ratio.denominator

theorem floor_log2_bounds (ratio : Ratio) :
    (ratio.numerator.log2 : Int) - ratio.denominator.log2 - 1 ≤ ratio.floorLog2 ∧
      ratio.floorLog2 ≤ (ratio.numerator.log2 : Int) - ratio.denominator.log2 := by
  unfold floorLog2
  dsimp only
  split <;> omega

theorem round_half_even_le (ratio : Ratio) :
    ratio.roundHalfEven ≤ ratio.numerator / ratio.denominator + 1 := by
  unfold roundHalfEven
  dsimp only
  split
  · omega
  · split
    · omega
    · split <;> omega

theorem le_round_half_even (ratio : Ratio) :
    ratio.numerator / ratio.denominator ≤ ratio.roundHalfEven := by
  unfold roundHalfEven
  dsimp only
  split
  · exact Nat.le_refl _
  · split
    · exact Nat.le_succ _
    · split <;> omega

theorem floor_log2_whole {value : Nat} (positive : 0 < value) :
    (Ratio.mk value 1).floorLog2 = value.log2 := by
  have one : Nat.log2 1 = 0 := by decide
  have below : 2 ^ value.log2 ≤ value := Nat.log2_self_le (Nat.ne_of_gt positive)
  simp only [floorLog2, one, Int.ofNat_zero, Int.sub_zero]
  rw [if_pos]
  simpa [le, scale] using below

theorem shifted_lt {numerator denominator up down width : Nat} (positive : 0 < denominator)
    (fits : numerator.log2 + 1 + up ≤ width + denominator.log2 + down) :
    numerator * 2 ^ up < 2 ^ width * (denominator * 2 ^ down) := by
  have above : numerator < 2 ^ (numerator.log2 + 1) := Nat.lt_log2_self
  have below : 2 ^ denominator.log2 ≤ denominator := Nat.log2_self_le (Nat.ne_of_gt positive)
  calc
    numerator * 2 ^ up < 2 ^ (numerator.log2 + 1) * 2 ^ up :=
      Nat.mul_lt_mul_of_pos_right above (Nat.two_pow_pos up)
    _ = 2 ^ (numerator.log2 + 1 + up) := (Nat.pow_add 2 _ _).symm
    _ ≤ 2 ^ (width + denominator.log2 + down) := Nat.pow_le_pow_right (by decide) fits
    _ = 2 ^ width * (2 ^ denominator.log2 * 2 ^ down) := by
      rw [Nat.pow_add, Nat.pow_add, Nat.mul_assoc]
    _ ≤ 2 ^ width * (denominator * 2 ^ down) :=
      Nat.mul_le_mul_left _ (Nat.mul_le_mul_right _ below)

/-- In units of a place close to its first digit a ratio has few digits. -/
theorem round_scaled_le {ratio : Ratio} {place : Int} (positive : 0 < ratio.denominator)
    (close : ratio.floorLog2 - 52 ≤ place) :
    (ratio.scale 2 (-place)).roundHalfEven ≤ 2 ^ 54 := by
  have low := ratio.floor_log2_bounds.1
  have bounded : (ratio.scale 2 (-place)).numerator / (ratio.scale 2 (-place)).denominator <
      2 ^ 54 := by
    unfold scale
    split
    · have fits : ratio.numerator.log2 + 1 + (-place).toNat ≤ 54 + ratio.denominator.log2 + 0 := by
        omega
      apply (Nat.div_lt_iff_lt_mul positive).mpr
      simpa using shifted_lt positive fits
    · have fits : ratio.numerator.log2 + 1 + 0 ≤
          54 + ratio.denominator.log2 + (- -place).toNat := by omega
      have scaled := shifted_lt positive fits
      apply (Nat.div_lt_iff_lt_mul (Nat.mul_pos positive (Nat.two_pow_pos _))).mpr
      simpa using scaled
  have rounded := (ratio.scale 2 (-place)).round_half_even_le
  omega

theorem le_round_scaled_whole {value : Nat} (positive : 0 < value) :
    2 ^ 52 ≤ (Ratio.scale 2 (-((value.log2 : Int) - 52)) ⟨value, 1⟩).roundHalfEven := by
  have below : 2 ^ value.log2 ≤ value := Nat.log2_self_le (Nat.ne_of_gt positive)
  refine Nat.le_trans ?_ (le_round_half_even _)
  unfold scale
  split
  · next short =>
      dsimp only
      rw [Nat.div_one]
      calc
        2 ^ 52 = 2 ^ (value.log2 + (-((value.log2 : Int) - 52)).toNat) :=
          congrArg (2 ^ ·) (by omega)
        _ = 2 ^ value.log2 * 2 ^ (-((value.log2 : Int) - 52)).toNat := Nat.pow_add 2 _ _
        _ ≤ value * 2 ^ (-((value.log2 : Int) - 52)).toNat := Nat.mul_le_mul_right _ below
  · next long =>
      dsimp only
      rw [Nat.one_mul]
      apply (Nat.le_div_iff_mul_le (Nat.two_pow_pos _)).mpr
      calc
        2 ^ 52 * 2 ^ (- -((value.log2 : Int) - 52)).toNat =
            2 ^ (52 + (- -((value.log2 : Int) - 52)).toNat) := (Nat.pow_add 2 _ _).symm
        _ = 2 ^ value.log2 := congrArg (2 ^ ·) (by omega)
        _ ≤ value := below

theorem AtMost.floor_log2_le {ratio : Ratio} {limit : Nat} (atMost : ratio.AtMost limit)
    (some : ratio.numerator ≠ 0) : ratio.floorLog2 ≤ limit := by
  have above : ratio.denominator < 2 ^ (ratio.denominator.log2 + 1) := Nat.lt_log2_self
  have shorter : ratio.numerator < 2 ^ (limit + (ratio.denominator.log2 + 1)) := by
    rw [Nat.pow_add]
    exact Nat.lt_of_le_of_lt atMost.le (Nat.mul_lt_mul_of_pos_left above (Nat.two_pow_pos limit))
  have length := (Nat.log2_lt some).mpr shorter
  have high := ratio.floor_log2_bounds.2
  omega

end Ratio

namespace Binary64

theorem field_of_fields {negative : Bool} {pattern : Nat} (fits : pattern < signWeight) :
    (ofFields negative pattern).field = pattern / fieldWeight := by
  simp only [signWeight] at fits
  simp only [field, ofFields, UInt64.toNat_ofNat', fieldWeight, specialField, signWeight]
  split <;> omega

theorem is_finite_iff {number : Binary64} : number.isFinite = true ↔ number.field ≠ specialField := by
  simp [isFinite]

theorem finite_of_fields {negative : Bool} {pattern : Nat}
    (small : ¬ specialField * fieldWeight ≤ pattern) :
    (ofFields negative pattern).isFinite = true := by
  simp only [specialField, fieldWeight] at small
  rw [is_finite_iff, field_of_fields (by simp only [signWeight]; omega), specialField, fieldWeight]
  omega

theorem of_ratio_finite_or_infinite (negative : Bool) (ratio : Ratio) :
    (ofRatio negative ratio).isFinite = true ∨ (ofRatio negative ratio).isInfinite = true := by
  unfold ofRatio
  dsimp only
  split
  · exact .inl (by cases negative <;> decide)
  · split
    · exact .inr (by cases negative <;> decide)
    · next small => exact .inl (finite_of_fields small)

/-- The exponent field of a rounded ratio follows the size of the ratio. -/
theorem field_of_ratio_le {negative : Bool} {ratio : Ratio} {limit : Nat}
    (atMost : ratio.AtMost limit) (small : limit ≤ 1000) :
    (ofRatio negative ratio).field ≤ limit + 1026 := by
  unfold ofRatio
  dsimp only
  split
  · rw [zero, field_of_fields (by decide), Nat.zero_div]
    exact Nat.zero_le _
  · next some =>
      have log := atMost.floor_log2_le some
      have close : ratio.floorLog2 - 52 ≤ max (ratio.floorLog2 - fractionWidth) (-1074) :=
        Int.le_max_left _ _
      have low : max (ratio.floorLog2 - fractionWidth) (-1074) + 1074 ≤ (limit : Int) + 1022 := by
        simp only [fractionWidth]
        omega
      generalize max (ratio.floorLog2 - fractionWidth) (-1074) = place at close low ⊢
      have bounded := Ratio.round_scaled_le atMost.positive close
      generalize (ratio.scale 2 (-place)).roundHalfEven = units at bounded ⊢
      have within : (place + 1074).toNat * fieldWeight + units ≤ (limit + 1026) * fieldWeight := by
        simp only [fieldWeight]
        omega
      generalize (place + 1074).toNat * fieldWeight + units = pattern at within ⊢
      simp only [fieldWeight] at within
      split
      · next large =>
          simp only [specialField, fieldWeight] at large
          omega
      · rw [field_of_fields (by simp only [signWeight]; omega), fieldWeight]
        omega

theorem le_field_of_nat {value : Nat} (positive : 0 < value) : 1023 ≤ (ofNat value).field := by
  have long := Ratio.le_round_scaled_whole positive
  have log := Ratio.floor_log2_whole positive
  have place : max ((value.log2 : Int) - fractionWidth) (-1074) = value.log2 - 52 := by
    simp only [fractionWidth]
    omega
  unfold ofNat ofRatio
  dsimp only
  rw [if_neg (Nat.ne_of_gt positive), log, place]
  generalize (Ratio.scale 2 (-((value.log2 : Int) - 52)) ⟨value, 1⟩).roundHalfEven = units at long ⊢
  have within : 1023 * fieldWeight ≤
      ((value.log2 : Int) - 52 + 1074).toNat * fieldWeight + units := by
    simp only [fieldWeight]
    omega
  generalize ((value.log2 : Int) - 52 + 1074).toNat * fieldWeight + units = pattern at within ⊢
  split
  · rw [infinity, field_of_fields (by decide)]
    decide
  · next small =>
      simp only [specialField, fieldWeight] at small
      rw [field_of_fields (by simp only [signWeight]; omega)]
      exact (Nat.le_div_iff_mul_le (by decide)).mpr within

theorem significand_lt (number : Binary64) : number.significand < 2 ^ 53 := by
  have short : number.fraction < fieldWeight := Nat.mod_lt _ (by decide)
  simp only [fieldWeight] at short
  unfold significand
  simp only [fieldWeight]
  split <;> omega

theorem magnitude_at_most {number : Binary64} {limit : Nat} (fits : number.field ≤ limit + 1022) :
    number.magnitude.AtMost limit := by
  have short := number.significand_lt
  unfold magnitude Ratio.scale exponent
  split
  · refine ⟨Nat.one_pos, ?_⟩
    dsimp only
    rw [Nat.mul_one]
    calc
      number.significand * 2 ^ (((max number.field 1 : Nat) : Int) - 1075).toNat
        ≤ 2 ^ 53 * 2 ^ (((max number.field 1 : Nat) : Int) - 1075).toNat :=
          Nat.mul_le_mul_right _ (Nat.le_of_lt short)
      _ = 2 ^ (53 + (((max number.field 1 : Nat) : Int) - 1075).toNat) := (Nat.pow_add 2 _ _).symm
      _ ≤ 2 ^ limit := Nat.pow_le_pow_right (by decide) (by omega)
  · refine ⟨Nat.mul_pos Nat.one_pos (Nat.two_pow_pos _), ?_⟩
    dsimp only
    rw [Nat.one_mul]
    calc
      number.significand ≤ 2 ^ 53 := Nat.le_of_lt short
      _ ≤ 2 ^ (limit + (-(((max number.field 1 : Nat) : Int) - 1075)).toNat) :=
        Nat.pow_le_pow_right (by decide) (by omega)
      _ = 2 ^ limit * 2 ^ (-(((max number.field 1 : Nat) : Int) - 1075)).toNat := Nat.pow_add 2 _ _

theorem one_le_magnitude {number : Binary64} (large : 1023 ≤ number.field) :
    0 < number.magnitude.numerator ∧ number.magnitude.denominator ≤ number.magnitude.numerator := by
  have normal : number.significand = number.fraction + fieldWeight := if_neg (by omega)
  have long : 2 ^ 52 ≤ number.significand := by
    rw [normal]
    exact Nat.le_add_left _ _
  unfold magnitude Ratio.scale exponent
  split
  · have positive : 0 < number.significand *
        2 ^ (((max number.field 1 : Nat) : Int) - 1075).toNat :=
      Nat.mul_pos (by omega) (Nat.two_pow_pos _)
    exact ⟨positive, positive⟩
  · refine ⟨Nat.lt_of_lt_of_le (Nat.two_pow_pos 52) long, ?_⟩
    dsimp only
    rw [Nat.one_mul]
    calc
      2 ^ (-(((max number.field 1 : Nat) : Int) - 1075)).toNat ≤ 2 ^ 52 :=
        Nat.pow_le_pow_right (by decide) (by omega)
      _ ≤ number.significand := long

/-- A division by a number from one on hardly raises the exponent field. -/
theorem field_div_le {left right : Binary64} {limit : Nat} (fits : left.field ≤ limit + 1022)
    (small : limit ≤ 1000) (large : 1023 ≤ right.field) :
    (left.div right).field ≤ limit + 1026 := by
  have above := magnitude_at_most fits
  obtain ⟨positive, wide⟩ := one_le_magnitude large
  refine field_of_ratio_le ⟨Nat.mul_pos above.positive positive, ?_⟩ small
  calc
    left.magnitude.numerator * right.magnitude.denominator
      ≤ 2 ^ limit * left.magnitude.denominator * right.magnitude.numerator :=
        Nat.mul_le_mul above.le wide
    _ = 2 ^ limit * (left.magnitude.denominator * right.magnitude.numerator) := Nat.mul_assoc _ _ _

theorem negate_field (number : Binary64) : number.negate.field = number.field := by
  rw [negate, field_of_fields (Nat.mod_lt _ (by decide)), field]
  simp only [signWeight, fieldWeight, specialField]
  omega

theorem finite_of_field_le {number : Binary64} (small : number.field ≤ 2046) :
    number.isFinite = true := by
  rw [is_finite_iff, specialField]
  omega

end Binary64

end RouteManifest.Number
