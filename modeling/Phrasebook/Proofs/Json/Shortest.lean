import Mathlib.Algebra.Order.Field.Power
import Phrasebook.Proofs.Json.Rounding

/-!
# The shortest decimal of a double

The search for the shortest decimal ends within its grids, so that what it finds reads back: it
is at most half a step above the magnitude, and its exponent has few digits.
-/

namespace Phrasebook.Json.Double

variable {d : Double} {num den : Nat} {exponent : Int} {decimal : Decimal}

/-- The power of ten with this exponent is no more than the ratio. -/
def Reaches (num den : Nat) (exponent : Int) : Prop :=
  den * Nat.pow 10 exponent.toNat ≤ num * Nat.pow 10 (-exponent).toNat

theorem reaches_leadingExponent (fuel : Nat) (start : Int) (reaches : Reaches num den start) :
    Reaches num den (leadingExponent num den fuel start) ∧
      start ≤ leadingExponent num den fuel start := by
  induction fuel generalizing start with
  | zero => exact ⟨reaches, Int.le_refl _⟩
  | succ fuel ih =>
      rw [leadingExponent]
      split
      · rename_i next
        obtain ⟨reached, above⟩ := ih (start + 1) next
        exact ⟨reached, by omega⟩
      · exact ⟨reaches, Int.le_refl _⟩

/-- A grid that lies some exponents below the ratio is that much finer. -/
theorem Reaches.finer {count : Nat} (reaches : Reaches num den (exponent + count)) :
    10 ^ count * (den * Nat.pow 10 exponent.toNat) ≤ num * Nat.pow 10 (-exponent).toNat := by
  have powers : 10 ^ count * Nat.pow 10 exponent.toNat * Nat.pow 10 (-(exponent + count)).toNat =
      Nat.pow 10 (exponent + count).toNat * Nat.pow 10 (-exponent).toNat := by
    simp only [Nat.pow_eq, ← Nat.pow_add]
    congr 1
    omega
  have positive : 0 < Nat.pow 10 (-(exponent + count)).toNat := Nat.pow_pos (by decide)
  apply Nat.le_of_mul_le_mul_right _ positive
  calc 10 ^ count * (den * Nat.pow 10 exponent.toNat) * Nat.pow 10 (-(exponent + count)).toNat
      = den * (10 ^ count * Nat.pow 10 exponent.toNat *
          Nat.pow 10 (-(exponent + count)).toNat) := by ring
    _ = den * Nat.pow 10 (exponent + count).toNat * Nat.pow 10 (-exponent).toNat := by
        rw [powers, Nat.mul_assoc]
    _ ≤ num * Nat.pow 10 (-(exponent + count)).toNat * Nat.pow 10 (-exponent).toNat :=
        Nat.mul_le_mul_right _ reaches
    _ = num * Nat.pow 10 (-exponent).toNat * Nat.pow 10 (-(exponent + count)).toNat := by ring

theorem significand_pos (nonzero : d.isZero = false) : 0 < d.significand := by
  have positive : d.place ≠ 0 := by simpa [isZero] using nonzero
  unfold significand
  split
  · omega
  · rw [fractionSteps_eq]
    omega

theorem significand_lt (d : Double) : d.significand < 2 ^ 53 := by
  unfold significand
  split
  · rename_i less
    rw [fractionSteps_eq] at less
    omega
  · rw [fractionSteps_eq]
    omega

theorem pow_shift_le_scaled (nonzero : d.isZero = false) : 2 ^ d.shift ≤ d.scaled :=
  Nat.le_mul_of_pos_left _ (significand_pos nonzero)

/-- Of the interval that reads back only the lower end depends on the place. -/
theorem exists_low (nonzero : d.isZero = false) (num den : Nat) :
    ∃ low, low + 2 ^ d.shift ≤ 4 * d.scaled ∧
      d.readsBack num den =
        if d.significand % 2 = 0 then
          low * den ≤ 4 * num * unit &&
            4 * num * unit ≤ (4 * d.scaled + 2 * 2 ^ d.shift) * den
        else
          low * den < 4 * num * unit &&
            4 * num * unit < (4 * d.scaled + 2 * 2 ^ d.shift) * den := by
  have step := pow_shift_le_scaled nonzero
  by_cases edge : d.place % fractionSteps = 0 ∧ fractionSteps < d.place
  · refine ⟨4 * d.scaled - 2 ^ d.shift, by omega, ?_⟩
    unfold readsBack
    rw [if_pos edge]
    rfl
  · refine ⟨4 * d.scaled - 2 * 2 ^ d.shift, by omega, ?_⟩
    unfold readsBack
    rw [if_neg edge]
    rfl

/-- What is below the magnitude by less than a quarter of a step reads back. -/
theorem readsBack_of_near (nonzero : d.isZero = false)
    (below : 4 * num * unit ≤ 4 * d.scaled * den)
    (near : 4 * d.scaled * den < 4 * num * unit + 2 ^ d.shift * den) :
    d.readsBack num den = true := by
  obtain ⟨low, bounded, same⟩ := exists_low nonzero num den
  have lowLess : low * den < 4 * num * unit := by
    have scaled := Nat.mul_le_mul_right den bounded
    rw [Nat.add_mul] at scaled
    exact Nat.lt_of_add_lt_add_right (Nat.lt_of_le_of_lt scaled near)
  have positive : 0 < 2 ^ d.shift * den :=
    Nat.pos_of_lt_add_right (Nat.lt_of_le_of_lt below near)
  have highLess : 4 * num * unit < (4 * d.scaled + 2 * 2 ^ d.shift) * den := by
    rw [Nat.add_mul, Nat.mul_assoc 2]
    exact Nat.lt_of_le_of_lt below (Nat.lt_add_of_pos_right (Nat.mul_pos Nat.zero_lt_two positive))
  rw [same, decide_eq_true lowLess, decide_eq_true highLess, decide_eq_true (Nat.le_of_lt lowLess),
    decide_eq_true (Nat.le_of_lt highLess)]
  split
  · rfl
  · rfl

/-- What reads back is at most half a step above the magnitude. -/
theorem le_of_readsBack (nonzero : d.isZero = false) (reads : d.readsBack num den = true) :
    4 * num * unit ≤ (4 * d.scaled + 2 * 2 ^ d.shift) * den := by
  obtain ⟨low, _, same⟩ := exists_low nonzero num den
  rw [same] at reads
  split at reads
  · exact of_decide_eq_true (Bool.and_eq_true_iff.mp reads).2
  · exact Nat.le_of_lt (of_decide_eq_true (Bool.and_eq_true_iff.mp reads).2)

/-- A grid holds only decimals that read back. -/
theorem onGrid?_spec (found : d.onGrid? exponent = some decimal) :
    decimal.exponent = exponent ∧ decimal.digits ≠ 0 ∧
      d.readsBack (decimal.digits * Nat.pow 10 exponent.toNat) (Nat.pow 10 (-exponent).toNat) =
        true := by
  unfold onGrid? at found
  dsimp only at found
  split at found
  · rename_i nearest
    have same := Option.some.inj found
    subst same
    refine ⟨rfl, ?_⟩
    dsimp only
    exact nearest
  · split at found
    · rename_i below
      have same := Option.some.inj found
      subst same
      refine ⟨rfl, ?_⟩
      dsimp only
      exact below
    · split at found
      · rename_i above
        have same := Option.some.inj found
        subst same
        refine ⟨rfl, ?_⟩
        dsimp only
        exact ⟨Nat.succ_ne_zero _, above⟩
      · cases found

/-- A grid seventeen exponents below the leading digit holds a decimal. -/
theorem exists_onGrid? (nonzero : d.isZero = false)
    (reaches : Reaches d.scaled unit (exponent + (17 : Nat))) :
    ∃ found, d.onGrid? exponent = some found := by
  have fine := reaches.finer
  have positive : 0 < Nat.pow 10 (-exponent).toNat := Nat.pow_pos (by decide)
  have stepPositive : 0 < unit * Nat.pow 10 exponent.toNat :=
    Nat.mul_pos unit_pos (Nat.pow_pos (by decide))
  have scaledLess : d.scaled * Nat.pow 10 (-exponent).toNat <
      2 ^ 53 * (2 ^ d.shift * Nat.pow 10 (-exponent).toNat) := by
    rw [← Nat.mul_assoc]
    apply Nat.mul_lt_mul_of_pos_right _ positive
    exact Nat.mul_lt_mul_of_pos_right d.significand_lt (Nat.pow_pos Nat.zero_lt_two)
  have quotient := Nat.div_add_mod' (d.scaled * Nat.pow 10 (-exponent).toNat)
    (unit * Nat.pow 10 exponent.toNat)
  have remainder := Nat.mod_lt (d.scaled * Nat.pow 10 (-exponent).toNat) stepPositive
  have some : d.scaled * Nat.pow 10 (-exponent).toNat / (unit * Nat.pow 10 exponent.toNat) ≠ 0 := by
    apply Nat.ne_of_gt
    apply Nat.div_pos _ stepPositive
    exact (Nat.le_mul_of_pos_left _ (by decide)).trans fine
  have reads : d.readsBack
      (d.scaled * Nat.pow 10 (-exponent).toNat / (unit * Nat.pow 10 exponent.toNat) *
        Nat.pow 10 exponent.toNat) (Nat.pow 10 (-exponent).toNat) = true := by
    have value : 4 * (d.scaled * Nat.pow 10 (-exponent).toNat /
        (unit * Nat.pow 10 exponent.toNat) * Nat.pow 10 exponent.toNat) * unit =
        4 * (d.scaled * Nat.pow 10 (-exponent).toNat / (unit * Nat.pow 10 exponent.toNat) *
          (unit * Nat.pow 10 exponent.toNat)) := by ring
    apply readsBack_of_near nonzero
    · rw [value, Nat.mul_assoc 4]
      exact Nat.mul_le_mul_left 4 (Nat.div_mul_le_self _ _)
    · rw [value, Nat.mul_assoc 4]
      clear value some stepPositive positive reaches
      generalize d.scaled * Nat.pow 10 (-exponent).toNat = magnitude at *
      generalize unit * Nat.pow 10 exponent.toNat = step at *
      generalize 2 ^ d.shift * Nat.pow 10 (-exponent).toNat = last at *
      generalize magnitude / step * step = below at *
      omega
  unfold onGrid?
  dsimp only
  split
  · exact ⟨_, rfl⟩
  · rw [if_pos ⟨some, reads⟩]
    exact ⟨_, rfl⟩

/-! ## The search -/

section

-- The search is unfolded by one grid, and that grid must stay closed: to open it is to compute
-- with the denominator of all magnitudes.
attribute [local irreducible] onGrid?

theorem firstGrid_succ (fuel : Nat) (exponent : Int) :
    firstGrid d (fuel + 1) exponent =
      match d.onGrid? exponent with
      | some found => found
      | none => firstGrid d fuel (exponent - 1) :=
  rfl

end

/-- The search takes the first decimal there is on its grids. -/
theorem firstGrid_spec {fuel index : Nat} (start : Int) (within : index < fuel)
    (holds : ∃ found, d.onGrid? (start - index) = some found) :
    ∃ grid, start - index ≤ grid ∧ d.onGrid? grid = some (firstGrid d fuel start) := by
  induction fuel generalizing start index with
  | zero => exact absurd within (Nat.not_lt_zero _)
  | succ fuel ih =>
      rw [firstGrid_succ]
      cases tried : d.onGrid? start with
      | some found => exact ⟨start, by omega, tried⟩
      | none =>
          cases index with
          | zero =>
              obtain ⟨found, holds⟩ := holds
              simp [tried] at holds
          | succ index =>
              have next : start - (index + 1 : Nat) = start - 1 - index := by omega
              rw [next] at holds ⊢
              exact ih (start - 1) (Nat.lt_of_succ_lt_succ within) holds

/-- The shortest decimal of a nonzero double lies on a grid not far below the smallest double,
and reads back. -/
theorem shortest_spec (nonzero : d.isZero = false) :
    -347 ≤ d.shortest.exponent ∧ d.shortest.digits ≠ 0 ∧
      d.readsBack (d.shortest.digits * Nat.pow 10 d.shortest.exponent.toNat)
        (Nat.pow 10 (-d.shortest.exponent).toNat) = true := by
  have start : Reaches d.scaled unit (-330) := by
    have positive : 0 < d.scaled :=
      (Nat.pow_pos Nat.zero_lt_two).trans_le (pow_shift_le_scaled nonzero)
    have smallest : unit * Nat.pow 10 (-330 : Int).toNat ≤ Nat.pow 10 (-(-330) : Int).toNat := by
      decide +kernel
    exact smallest.trans (Nat.le_mul_of_pos_left _ positive)
  obtain ⟨reaches, above⟩ := reaches_leadingExponent 640 (-330) start
  have shortest : d.shortest =
      firstGrid d 20 (leadingExponent d.scaled unit 640 (-330) + 1) := by
    simp [Double.shortest, nonzero]
  generalize leadingExponent d.scaled unit 640 (-330) = leading at *
  have grid : leading + 1 - (18 : Nat) + (17 : Nat) = leading := by omega
  obtain ⟨exponent, near, found⟩ := firstGrid_spec (d := d) (leading + 1)
    (by decide : 18 < 20) (exists_onGrid? nonzero (by rwa [grid]))
  rw [← shortest] at found
  obtain ⟨same, some, reads⟩ := onGrid?_spec found
  rw [same]
  exact ⟨by omega, some, reads⟩

theorem ten_zpow (exponent : Int) :
    (10 : ℚ) ^ exponent * 10 ^ (-exponent).toNat = 10 ^ exponent.toNat := by
  rw [← zpow_natCast, ← zpow_natCast, ← zpow_add₀ (by norm_num)]
  congr 1
  omega

/-- The shortest decimal is at most half a step above the magnitude. -/
theorem shortest_le (nonzero : d.isZero = false) :
    2 * ((d.shortest.digits : ℚ) * 10 ^ d.shortest.exponent * unit) ≤
      2 * d.scaled + 2 ^ d.shift := by
  have high := le_of_readsBack nonzero (shortest_spec nonzero).2.2
  have down : (0 : ℚ) < 10 ^ (-d.shortest.exponent).toNat := pow_pos (by norm_num) _
  have highQ : 4 * ((d.shortest.digits : ℚ) * 10 ^ d.shortest.exponent.toNat) * unit ≤
      (4 * d.scaled + 2 * 2 ^ d.shift) * 10 ^ (-d.shortest.exponent).toNat := by
    exact_mod_cast high
  rw [← ten_zpow] at highQ
  apply le_of_mul_le_mul_right _ down
  linarith

end Phrasebook.Json.Double
