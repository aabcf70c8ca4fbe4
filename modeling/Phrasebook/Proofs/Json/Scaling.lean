import Phrasebook.Json.Lexeme
import Phrasebook.Proofs.Json.Rounding

/-!
# Significands and powers of ten

A significand and an exponent make a double if the exponent does not raise the significand, or
if what they stand for keeps some distance from the largest double.  The distance makes up for
three roundings: of the significand, of the power of ten and of their product.
-/

namespace Phrasebook.Json

open Double

namespace Double

variable {a b : Double} {n : Nat}

theorem value_nonneg (d : Double) : 0 ≤ d.value :=
  div_nonneg (Nat.cast_nonneg _) (Nat.cast_nonneg _)

/-- The largest significand and the largest step. -/
theorem significand_le_and_shift_le (d : Double) :
    d.significand ≤ 2 ^ 53 - 1 ∧ d.shift ≤ topShift + 1 := by
  have finite := d.finite
  have top : topShift = 2044 := rfl
  rw [bound_eq] at finite
  unfold significand Double.shift
  rw [fractionSteps_eq]
  split
  · omega
  · omega

/-- Every magnitude is below the limit. -/
theorem scaled_lt_limit (d : Double) : d.scaled < limit := by
  obtain ⟨significand, shift⟩ := d.significand_le_and_shift_le
  calc d.scaled = d.significand * 2 ^ d.shift := rfl
    _ ≤ (2 ^ 53 - 1) * 2 ^ (topShift + 1) :=
      Nat.mul_le_mul significand (Nat.pow_le_pow_right Nat.zero_lt_two shift)
    _ = (2 ^ 54 - 2) * 2 ^ topShift := by
      rw [Nat.pow_succ]
      ring
    _ < limit := Nat.mul_lt_mul_of_pos_right (by decide) (Nat.pow_pos Nat.zero_lt_two)

theorem exists_mul? (inRange : a.value * b.value * unit < limit) :
    ∃ c, a.mul? b = some c := by
  have positive : (0 : ℚ) < unit := by exact_mod_cast unit_pos
  apply isSome_ofRatio? (Nat.mul_pos unit_pos unit_pos)
  have product : (a.scaled * b.scaled * unit : ℚ) < unit * unit * limit := by
    rw [value, value, div_mul_div_comm, div_mul_eq_mul_div,
      div_lt_iff₀ (mul_pos positive positive)] at inRange
    linarith
  exact_mod_cast product

/-- A quotient by one or more is in range. -/
theorem exists_div? (large : 1 ≤ b.value) : ∃ c, a.div? b = some c := by
  have positive : (0 : ℚ) < unit := by exact_mod_cast unit_pos
  have one : unit ≤ b.scaled := by
    rw [value, le_div_iff₀ positive, one_mul] at large
    exact_mod_cast large
  apply isSome_ofRatio? (Nat.lt_of_lt_of_le unit_pos one)
  calc a.scaled * unit ≤ a.scaled * b.scaled := Nat.mul_le_mul_left _ one
    _ = b.scaled * a.scaled := Nat.mul_comm _ _
    _ < b.scaled * limit :=
      Nat.mul_lt_mul_of_pos_left a.scaled_lt_limit (Nat.lt_of_lt_of_le unit_pos one)

/-- A natural number below the limit is rounded to a double near it. -/
theorem exists_ofNat? (inRange : n * unit < limit) :
    ∃ d, ofNat? n = some d ∧ d.value ≤ n * (1 + 1 / 2 ^ 53) ∧ n * (1 - 1 / 2 ^ 53) ≤ d.value := by
  have place : ∃ d, ofNat? n = some d := isSome_ofRatio? Nat.one_pos (by rwa [Nat.one_mul])
  obtain ⟨d, rounded⟩ := place
  refine ⟨d, rounded, ?_⟩
  rcases Nat.eq_zero_or_pos n with zero | positive
  · subst zero
    have same : ofNat? 0 = some (Double.zero false) := by decide +kernel
    obtain rfl : Double.zero false = d := Option.some.inj (same.symm.trans rounded)
    have nothing : (Double.zero false).scaled = 0 := rfl
    rw [value, nothing, Nat.cast_zero, zero_div, zero_mul, zero_mul]
    exact ⟨le_refl _, le_refl _⟩
  · simpa using value_of_ofRatio? Nat.one_pos positive rounded

end Double

namespace Lexeme

variable {exponent : Nat} {significand : Nat} {value : Double} {negative : Bool}

/-- The powers of ten up to the largest one stay below the limit. -/
theorem pow_mul_unit_lt_limit (small : exponent ≤ 308) : 10 ^ exponent * unit < limit :=
  calc 10 ^ exponent * unit ≤ 10 ^ 308 * unit :=
        Nat.mul_le_mul_right _ (Nat.pow_le_pow_right (by decide) small)
    _ < limit := by decide +kernel

theorem powerOfTen_near (small : exponent ≤ 308) :
    (powerOfTen exponent).value ≤ 10 ^ exponent * (1 + 1 / 2 ^ 53) ∧
      10 ^ exponent * (1 - 1 / 2 ^ 53) ≤ (powerOfTen exponent).value := by
  obtain ⟨d, rounded, high, low⟩ := exists_ofNat? (pow_mul_unit_lt_limit small)
  have same : powerOfTen exponent = d := by
    rw [powerOfTen]
    exact congrArg (Option.getD · _) rounded
  rw [same]
  push_cast at high low
  exact ⟨high, low⟩

theorem one_le_powerOfTen (positive : 0 < exponent) (small : exponent ≤ 308) :
    1 ≤ (powerOfTen exponent).value := by
  have ten : (10 : ℚ) ≤ 10 ^ exponent := by
    calc (10 : ℚ) = 10 ^ 1 := (pow_one 10).symm
      _ ≤ 10 ^ exponent := pow_le_pow_right₀ (by norm_num) positive
  calc (1 : ℚ) ≤ 10 * (1 - 1 / 2 ^ 53) := by norm_num
    _ ≤ 10 ^ exponent * (1 - 1 / 2 ^ 53) := mul_le_mul_of_nonneg_right ten (by norm_num)
    _ ≤ _ := (powerOfTen_near small).2

theorem powerOfTen_zero : (powerOfTen 0).value = 1 := by
  have same : (powerOfTen 0).scaled = unit := by decide +kernel
  rw [Double.value, same, div_self]
  exact_mod_cast Nat.ne_of_gt unit_pos

/-- An exponent that does not raise a value leaves it in range. -/
theorem exists_scale_of_nonpos {exponent : Int} (lowers : exponent ≤ 0) (fuel : Nat)
    (value : Double) : ∃ result, scale fuel value exponent = some result := by
  induction fuel generalizing value exponent with
  | zero => exact ⟨value, rfl⟩
  | succ fuel ih =>
      rw [scale]
      split
      · rename_i near
        split
        · rename_i zero
          obtain rfl : exponent = 0 := by omega
          apply exists_mul?
          rw [Int.natAbs_zero, powerOfTen_zero, mul_one, Double.value, div_mul_cancel₀]
          · exact_mod_cast value.scaled_lt_limit
          · exact_mod_cast Nat.ne_of_gt unit_pos
        · exact exists_div? (one_le_powerOfTen (by omega) near)
      · split
        · exact ⟨value, rfl⟩
        · split
          · omega
          · have divides : ∃ divided, value.div? (powerOfTen 308) = some divided :=
              exists_div? (one_le_powerOfTen (by decide) (by decide))
            obtain ⟨divided, quotient⟩ := divides
            rw [quotient]
            exact ih (by omega) divided

theorem significand_lt_limit (small : significand < 0x10000000000000000) :
    significand * unit < limit :=
  calc significand * unit ≤ 10 ^ 20 * unit :=
        Nat.mul_le_mul_right _ (Nat.le_of_lt (Nat.lt_trans small (by decide)))
    _ < limit := pow_mul_unit_lt_limit (by decide)

/-- What the reader makes of a significand and an exponent. -/
def magnitude? (significand : Nat) (exponent : Int) : Option Double :=
  (Double.ofNat? significand).bind fun value => scale 8 value exponent

theorem fromParts_of_magnitude? {exponent : Int} {result : Double}
    (inRange : magnitude? significand exponent = some result) (rest : List Char) :
    fromParts negative significand exponent rest =
      .ok (.double (if negative then result.neg else result), rest) := by
  rw [fromParts, ← magnitude?, inRange]
  rfl

theorem exists_magnitude?_of_nonpos {exponent : Int}
    (small : significand < 0x10000000000000000) (lowers : exponent ≤ 0) :
    ∃ result, magnitude? significand exponent = some result := by
  obtain ⟨value, rounded, _⟩ := exists_ofNat? (significand_lt_limit small)
  obtain ⟨result, scaled⟩ := exists_scale_of_nonpos lowers 8 value
  exact ⟨result, by rw [magnitude?, rounded, Option.bind_some, scaled]⟩

/-- What stays three steps below the limit is in range after three roundings. -/
theorem exists_magnitude?_of_nonneg {exponent : Nat} (small : significand < 0x10000000000000000)
    (few : exponent ≤ 308)
    (below : (significand : ℚ) * 10 ^ exponent * unit ≤ (2 ^ 54 - 7) * 2 ^ topShift) :
    ∃ result, magnitude? significand exponent = some result := by
  obtain ⟨value, rounded, near, _⟩ := exists_ofNat? (significand_lt_limit small)
  obtain ⟨power, _⟩ := powerOfTen_near few
  have step : (0 : ℚ) < 2 ^ topShift := pow_pos (by norm_num) _
  have unitPositive : (0 : ℚ) ≤ unit := Nat.cast_nonneg _
  have product : value.value * (powerOfTen exponent).value * unit < limit :=
    calc value.value * (powerOfTen exponent).value * unit
        ≤ significand * (1 + 1 / 2 ^ 53) * (10 ^ exponent * (1 + 1 / 2 ^ 53)) * unit := by
          apply mul_le_mul_of_nonneg_right _ unitPositive
          exact mul_le_mul near power (value_nonneg _)
            (mul_nonneg (Nat.cast_nonneg _) (by norm_num))
      _ = significand * 10 ^ exponent * unit * (1 + 1 / 2 ^ 53) ^ 2 := by ring
      _ ≤ (2 ^ 54 - 7) * 2 ^ topShift * (1 + 1 / 2 ^ 53) ^ 2 :=
          mul_le_mul_of_nonneg_right below (by norm_num)
      _ = (2 ^ 54 - 7) * (1 + 1 / 2 ^ 53) ^ 2 * 2 ^ topShift := by ring
      _ < (2 ^ 54 - 1) * 2 ^ topShift := mul_lt_mul_of_pos_right (by norm_num) step
      _ = limit := by
          rw [limit]
          push_cast
          norm_num
  obtain ⟨result, multiplied⟩ := exists_mul? product
  refine ⟨result, ?_⟩
  rw [magnitude?, rounded, Option.bind_some, scale, Int.natAbs_natCast, if_pos few,
    if_pos (Int.natCast_nonneg _), multiplied]

-- The largest double is in range with all its digits, a little more is not.
example : (magnitude? 17976931348623157 292).isSome ∧ magnitude? 18 307 = none := by
  decide +kernel

end Lexeme
end Phrasebook.Json
