import RouteManifest.Number.Shortest
import RouteManifest.Proofs.Number.Integer

/-!
The digits of shortest decimals. A decimal that is taken from a grid has digits, and to move
zeros into the exponent leaves some, so its text starts with no zero.
-/

namespace RouteManifest.Number

theorem to_digits_all (value : Nat) : ∀ digit ∈ Nat.toDigits 10 value, isDigit digit = true :=
  fun _ member => is_digit_iff.mpr (Nat.isDigit_of_mem_toDigits (by decide) (by decide) member)

theorem head_to_digits {value : Nat} (zero : (Nat.toDigits 10 value).head? = some '0') :
    value = 0 := by
  induction value using Nat.strongRecOn with
  | ind value induction =>
      rw [Nat.toDigits_eq_if (by decide)] at zero
      split at zero
      · simpa using zero
      · next large =>
          have some : (Nat.toDigits 10 (value / 10)).head?.isSome = true :=
            List.isSome_head?.mpr Nat.toDigits_ne_nil
          rw [List.head?_append, Option.or_of_isSome some] at zero
          have front := induction (value / 10) (by omega) zero
          omega

theorem Decimal.strip_digits_ne_zero {steps : Nat} {decimal : Decimal}
    (digits : decimal.digits ≠ 0) : (decimal.strip steps).digits ≠ 0 := by
  fun_induction Decimal.strip steps decimal with
  | case1 => exact digits
  | case2 steps decimal whole induction =>
      simp only [Bool.and_eq_true, decide_eq_true_eq] at whole
      exact induction (by simp only; omega)
  | case3 => exact digits

theorem nearest_on_grid_digits {tie : Tie} {value : Ratio} {interval : Interval} {place : Int}
    {decimal : Decimal} (found : nearestOnGrid? tie value interval place = some decimal) :
    decimal.digits ≠ 0 := by
  unfold nearestOnGrid? at found
  grind

/-- A shortest decimal has digits, or it is zero without an exponent. -/
theorem shortest_digits (tie : Tie) (number : Binary64) :
    (shortest tie number).digits ≠ 0 ∨ shortest tie number = ⟨0, 0⟩ := by
  rw [shortest]
  cases found : (List.range 17).findSome? fun (more : Nat) =>
      nearestOnGrid? tie number.magnitude (Interval.of number)
        (floorLog10 number.magnitude - more) with
  | none => exact .inr rfl
  | some decimal =>
      obtain ⟨more, -, taken⟩ := List.exists_of_findSome?_eq_some found
      exact .inl (Decimal.strip_digits_ne_zero (nearest_on_grid_digits taken))

end RouteManifest.Number
