import Mathlib.Algebra.Order.Field.Rat
import Mathlib.Algebra.Order.Field.Basic
import Mathlib.Tactic.Linarith
import Mathlib.Tactic.NormNum
import Mathlib.Tactic.Ring
import Phrasebook.Json.Double

/-!
# Rounding to doubles

A ratio is rounded to a double unless it is too large, and then it changes by little.  A ratio
of one or more changes by at most one part in `2 ^ 53`.
-/

namespace Phrasebook.Json.Double

variable {num den : Nat} {d : Double} {negative : Bool}

theorem fractionSteps_eq : fractionSteps = 4503599627370496 :=
  rfl

theorem bound_eq : bound = 9218868437227405312 :=
  rfl

theorem div_le_divNearestEven (num den : Nat) : num / den ≤ divNearestEven num den := by
  unfold divNearestEven
  dsimp only
  split
  · exact Nat.le_refl _
  · split
    · exact Nat.le_succ _
    · exact Nat.le_add_right _ _

theorem divNearestEven_le (num den : Nat) : divNearestEven num den ≤ num / den + 1 := by
  unfold divNearestEven
  dsimp only
  split
  · exact Nat.le_succ _
  · split
    · exact Nat.le_refl _
    · have parity : num / den % 2 < 2 := Nat.mod_lt _ (by decide)
      omega

/-- Rounding goes up or down by at most a half. -/
theorem divNearestEven_near (num : Nat) (positive : 0 < den) :
    2 * (divNearestEven num den * den) ≤ 2 * num + den ∧
      2 * num ≤ 2 * (divNearestEven num den * den) + den := by
  have whole := Nat.div_add_mod' num den
  have rounded : divNearestEven num den = num / den ∧ 2 * (num % den) ≤ den ∨
      divNearestEven num den = num / den + 1 ∧ den ≤ 2 * (num % den) ∧ num % den ≤ den := by
    unfold divNearestEven
    dsimp only
    split
    · exact .inl ⟨rfl, by omega⟩
    · rename_i notLess
      have remainder := Nat.mod_lt num positive
      split
      · exact .inr ⟨rfl, by omega, by omega⟩
      · rcases Nat.mod_two_eq_zero_or_one (num / den) with even | odd
        · exact .inl ⟨by rw [even, Nat.add_zero], by omega⟩
        · exact .inr ⟨by rw [odd], by omega, by omega⟩
  rcases rounded with ⟨down, half⟩ | ⟨up, half, less⟩
  · rw [down]
    omega
  · rw [up, Nat.add_mul, Nat.one_mul]
    omega

theorem unit_large : 2 ^ 53 ≤ unit := by
  decide +kernel

theorem unit_pos : 0 < unit :=
  Nat.lt_of_lt_of_le (Nat.pow_pos Nat.zero_lt_two) unit_large

/-- The magnitude at a place that is some steps above a power of two. -/
theorem scaled_of_place {shift kept : Nat} (place : d.place = shift * fractionSteps + kept)
    (low : fractionSteps ≤ kept) (high : kept ≤ 2 * fractionSteps) :
    d.scaled = kept * 2 ^ shift := by
  rw [fractionSteps_eq] at place low high
  have above : ¬ d.place < fractionSteps := by
    rw [fractionSteps_eq]
    omega
  rw [scaled, significand, if_neg above, Double.shift, fractionSteps_eq]
  by_cases top : kept = 2 * 4503599627370496
  · have quotient : d.place / 4503599627370496 - 1 = shift + 1 := by omega
    have remainder : d.place % 4503599627370496 = 0 := by omega
    rw [quotient, remainder, top]
    exact (by ring : (4503599627370496 + 0) * 2 ^ (shift + 1) = 2 * 4503599627370496 * 2 ^ shift)
  · have quotient : d.place / 4503599627370496 - 1 = shift := by omega
    have remainder : 4503599627370496 + d.place % 4503599627370496 = kept := by omega
    rw [quotient, remainder]
    rfl

/-- A ratio that does not vanish beside the unit lies some steps above a power of two, and the
rounding of these steps gives its place. -/
theorem exists_steps (large : 2 ^ 53 ≤ num * unit / den) :
    ∃ shift kept, nearestPlace num den = shift * fractionSteps + kept ∧
      kept = divNearestEven (num * unit) (den * 2 ^ shift) ∧
      fractionSteps ≤ kept ∧ kept ≤ 2 * fractionSteps ∧
      2 ^ 52 * 2 ^ shift ≤ num * unit / den := by
  generalize ratio : num * unit / den = quotient at large ⊢
  have nonzero : quotient ≠ 0 := by omega
  have wide : 53 ≤ quotient.log2 := (Nat.le_log2 nonzero).mpr large
  obtain ⟨shift, width⟩ : ∃ shift, quotient.log2 = 52 + shift := ⟨quotient.log2 - 52, by omega⟩
  have low : 2 ^ 52 * 2 ^ shift ≤ quotient := by
    rw [← Nat.pow_add, ← width]
    exact Nat.log2_self_le nonzero
  have high : quotient < 2 ^ 53 * 2 ^ shift := by
    have below := Nat.lt_log2_self (n := quotient)
    rwa [width, show 52 + shift + 1 = 53 + shift by omega, Nat.pow_add] at below
  have steps : num * unit / (den * 2 ^ shift) = quotient / 2 ^ shift := by
    rw [← Nat.div_div_eq_div_mul, ratio]
  have unitPositive : 0 < 2 ^ shift := Nat.pow_pos Nat.zero_lt_two
  refine ⟨shift, divNearestEven (num * unit) (den * 2 ^ shift), ?_, rfl, ?_, ?_, low⟩
  · have some : quotient.log2 - 52 = shift := by omega
    simp only [nearestPlace, ratio, if_neg (Nat.not_lt.mpr wide), some]
    rfl
  · calc fractionSteps = 2 ^ 52 := rfl
      _ ≤ quotient / 2 ^ shift := (Nat.le_div_iff_mul_le unitPositive).mpr low
      _ = num * unit / (den * 2 ^ shift) := steps.symm
      _ ≤ _ := div_le_divNearestEven _ _
  · have less : quotient / 2 ^ shift < 2 ^ 53 := (Nat.div_lt_iff_lt_mul unitPositive).mpr high
    have rounded := divNearestEven_le (num * unit) (den * 2 ^ shift)
    rw [steps] at rounded
    rw [fractionSteps_eq]
    omega

/-- The magnitude of a double. -/
def value (d : Double) : ℚ :=
  d.scaled / unit

theorem place_of_ofRatio? (rounded : ofRatio? negative num den = some d) :
    d.place = nearestPlace num den := by
  unfold ofRatio? at rounded
  dsimp only at rounded
  split at rounded
  · rw [← Option.some.inj rounded]
  · cases rounded

/-- A ratio of one or more changes by at most one part in `2 ^ 53`. -/
theorem value_of_ofRatio? (positive : 0 < den) (large : den ≤ num)
    (rounded : ofRatio? negative num den = some d) :
    d.value ≤ num / den * (1 + 1 / 2 ^ 53) ∧ num / den * (1 - 1 / 2 ^ 53) ≤ d.value := by
  have more : unit ≤ num * unit / den := by
    rw [Nat.le_div_iff_mul_le positive, Nat.mul_comm]
    exact Nat.mul_le_mul_right _ large
  obtain ⟨shift, kept, place, nearest, low, high, below⟩ :=
    exists_steps (unit_large.trans more)
  rw [← place_of_ofRatio? rounded] at place
  have scaled := scaled_of_place place low high
  obtain ⟨up, down⟩ := divNearestEven_near (num * unit)
    (Nat.mul_pos positive (Nat.pow_pos Nat.zero_lt_two) : 0 < den * 2 ^ shift)
  rw [← nearest] at up down
  rw [Nat.le_div_iff_mul_le positive] at below
  have denPositive : (0 : ℚ) < den := by exact_mod_cast positive
  have unitPositive : (0 : ℚ) < unit := by exact_mod_cast unit_pos
  have upQ : 2 * ((kept : ℚ) * (den * 2 ^ shift)) ≤ 2 * (num * unit) + den * 2 ^ shift := by
    exact_mod_cast up
  have downQ : 2 * ((num : ℚ) * unit) ≤ 2 * (kept * (den * 2 ^ shift)) + den * 2 ^ shift := by
    exact_mod_cast down
  have belowQ : 2 ^ 52 * 2 ^ shift * (den : ℚ) ≤ num * unit := by
    exact_mod_cast below
  have whole : d.value = kept * 2 ^ shift / unit := by
    rw [value, scaled]
    push_cast
    rfl
  rw [whole]
  constructor
  · rw [div_mul_eq_mul_div, div_le_div_iff₀ unitPositive denPositive]
    linarith
  · rw [div_mul_eq_mul_div, div_le_div_iff₀ denPositive unitPositive]
    linarith

/-- The largest double is `2 ^ 53 - 1` steps of this size above zero, less one doubling. -/
def topShift : Nat := 2044

/-- Half a step above the largest magnitude, in units: what is below rounds to a double. -/
def limit : Nat :=
  (2 ^ 54 - 1) * 2 ^ topShift

/-- The places before the limit are those of doubles. -/
theorem place_lt_bound {shift kept : Nat} (high : kept ≤ 2 * fractionSteps)
    (below : shift ≤ topShift ∨ shift = topShift + 1 ∧ kept < 2 * fractionSteps) :
    shift * fractionSteps + kept < bound := by
  have top : topShift = 2044 := rfl
  rw [bound_eq]
  rw [fractionSteps_eq] at high below ⊢
  omega

theorem nearestPlace_of_large (large : 2 ^ 53 ≤ num * unit / den) (positive : 0 < den)
    (inRange : num * unit < den * limit) : nearestPlace num den < bound := by
  obtain ⟨shift, kept, place, nearest, low, high, below⟩ := exists_steps large
  rw [Nat.le_div_iff_mul_le positive] at below
  rw [place]
  apply place_lt_bound high
  by_cases small : shift ≤ topShift
  · exact .inl small
  · right
    obtain ⟨more, rfl⟩ : ∃ more, shift = topShift + more := ⟨shift - topShift, by omega⟩
    have power : den * 2 ^ (topShift + more) = den * 2 ^ topShift * 2 ^ more := by
      rw [Nat.pow_add, Nat.mul_assoc]
    have shifted : 0 < den * 2 ^ topShift := Nat.mul_pos positive (Nat.pow_pos Nat.zero_lt_two)
    obtain ⟨up, _⟩ := divNearestEven_near (num * unit)
      (Nat.mul_pos positive (Nat.pow_pos Nat.zero_lt_two) : 0 < den * 2 ^ (topShift + more))
    rw [← nearest, power] at up
    have belowStep : 2 ^ 52 * 2 ^ more * (den * 2 ^ topShift) < (2 ^ 54 - 1) * (den * 2 ^ topShift) :=
      calc 2 ^ 52 * 2 ^ more * (den * 2 ^ topShift) = 2 ^ 52 * 2 ^ (topShift + more) * den := by
            rw [Nat.pow_add]
            ring
        _ ≤ num * unit := below
        _ < den * limit := inRange
        _ = (2 ^ 54 - 1) * (den * 2 ^ topShift) := by
            rw [limit]
            ring
    have few : 2 ^ 52 * 2 ^ more < 2 ^ 54 - 1 := Nat.lt_of_mul_lt_mul_right belowStep
    have one : more = 1 := by
      have less : 2 ^ more < 2 ^ 2 := by omega
      have two := (Nat.pow_lt_pow_iff_right (by decide)).mp less
      omega
    subst one
    have keptStep : 2 * (kept * 2) * (den * 2 ^ topShift) <
        (2 * (2 ^ 54 - 1) + 2) * (den * 2 ^ topShift) :=
      calc 2 * (kept * 2) * (den * 2 ^ topShift) = 2 * (kept * (den * 2 ^ topShift * 2 ^ 1)) := by
            ring
        _ ≤ 2 * (num * unit) + den * 2 ^ topShift * 2 ^ 1 := up
        _ < 2 * (den * limit) + den * 2 ^ topShift * 2 ^ 1 := by omega
        _ = (2 * (2 ^ 54 - 1) + 2) * (den * 2 ^ topShift) := by
            rw [limit]
            ring
    have fewer : 2 * (kept * 2) < 2 * (2 ^ 54 - 1) + 2 := Nat.lt_of_mul_lt_mul_right keptStep
    clear keptStep belowStep up below inRange shifted power
    exact ⟨rfl, by rw [fractionSteps_eq]; omega⟩

/-- A ratio below the limit has a place. -/
theorem nearestPlace_lt (positive : 0 < den) (inRange : num * unit < den * limit) :
    nearestPlace num den < bound := by
  by_cases large : 2 ^ 53 ≤ num * unit / den
  · exact nearestPlace_of_large large positive inRange
  · have narrow : (num * unit / den).log2 < 53 := by
      by_cases zero : num * unit / den = 0
      · rw [zero]
        decide
      · exact (Nat.log2_lt zero).mpr (Nat.not_le.mp large)
    have rounded := divNearestEven_le (num * unit) den
    have place : nearestPlace num den = divNearestEven (num * unit) den := if_pos narrow
    rw [place, bound_eq]
    generalize num * unit / den = quotient at large rounded
    omega

theorem isSome_ofRatio? (positive : 0 < den) (inRange : num * unit < den * limit) :
    ∃ d, ofRatio? negative num den = some d := by
  refine ⟨⟨negative, nearestPlace num den, nearestPlace_lt positive inRange⟩, ?_⟩
  simp [ofRatio?, nearestPlace_lt positive inRange]

end Phrasebook.Json.Double
