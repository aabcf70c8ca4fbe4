import Phrasebook.Proofs.Json.Layout
import Phrasebook.Proofs.Json.Scaling
import Phrasebook.Proofs.Json.Shortest

/-!
# Numbers read back

The text of every number is read as a number.  An integer is read as itself.  A double is read
as some double: what its shortest decimal stands for is close enough to it that no rounding of
the reader leads out of range.
-/

namespace Phrasebook.Json

open Double Lexeme

variable {d : Double} {negative : Bool} {rest : List Char}

namespace Double.Decimal

variable {decimal : Decimal}

/-- Only zeros are cut off. -/
theorem exists_trimmed (decimal : Decimal) :
    ∃ count, Nat.toDigits 10 decimal.digits = decimal.trimmed ++ List.replicate count '0' := by
  have split := List.takeWhile_append_dropWhile (p := (· == '0'))
    (l := (Nat.toDigits 10 decimal.digits).reverse)
  have zeros : (Nat.toDigits 10 decimal.digits).reverse.takeWhile (· == '0') =
      List.replicate ((Nat.toDigits 10 decimal.digits).reverse.takeWhile (· == '0')).length '0' := by
    apply List.eq_replicate_of_mem
    intro c member
    simpa using List.all_eq_true.mp List.all_takeWhile c member
  generalize ((Nat.toDigits 10 decimal.digits).reverse.takeWhile (· == '0')).length = count at zeros
  refine ⟨count, ?_⟩
  rw [zeros] at split
  rw [← List.reverse_reverse (Nat.toDigits 10 decimal.digits), ← split, List.reverse_append,
    List.reverse_replicate]
  rfl

theorem leads_trimmed (some : decimal.digits ≠ 0) : Leads decimal.trimmed := by
  obtain ⟨count, split⟩ := decimal.exists_trimmed
  have leading := head?_toDigits some
  have numeral := numeral_toDigits decimal.digits
  rw [split] at leading
  have nonempty : decimal.trimmed ≠ [] := by
    intro none
    rw [none, List.nil_append] at split leading
    cases count with
    | zero => exact numeral.nonempty split
    | succ count => exact leading rfl
  refine ⟨nonempty, ?_, ?_⟩
  · intro c member
    exact numeral.all c (split ▸ List.mem_append_left _ member)
  · obtain ⟨c, more, equal⟩ := List.exists_cons_of_ne_nil nonempty
    rw [equal] at leading ⊢
    exact leading

/-- The digits that are left have the value of the decimal at their place. -/
theorem value_trimmed (decimal : Decimal) :
    (Nat.ofDigitChars 10 decimal.trimmed 0 : ℚ) *
        10 ^ (decimal.point - decimal.trimmed.length) =
      decimal.digits * 10 ^ decimal.exponent := by
  obtain ⟨count, split⟩ := decimal.exists_trimmed
  have value : 10 ^ count * Nat.ofDigitChars 10 decimal.trimmed 0 = decimal.digits := by
    rw [← Nat.ofDigitChars_replicate_zero, ← Nat.ofDigitChars_append, ← split]
    exact Nat.ofDigitChars_toDigits (by decide) (by decide)
  have length := congrArg List.length split
  rw [List.length_append, List.length_replicate] at length
  have place : decimal.point - decimal.trimmed.length = count + decimal.exponent := by
    rw [point, length]
    omega
  rw [place, zpow_add₀ (by norm_num), zpow_natCast, ← mul_assoc]
  congr 1
  rw [mul_comm]
  exact_mod_cast value

/-- The first digit stands at the place of the point. -/
theorem ten_pow_point_le (some : decimal.digits ≠ 0) :
    (10 : ℚ) ^ (decimal.point - 1) ≤ decimal.digits * 10 ^ decimal.exponent := by
  obtain ⟨c, more, equal, digit⟩ := (numeral_toDigits decimal.digits).exists_cons
  have leading := head?_toDigits some
  have large : 10 ^ more.length ≤ decimal.digits := by
    have first : 1 ≤ c.toNat - '0'.toNat := by
      have range := Char.isDigit_iff_toNat.mp digit
      have notZero : c.toNat ≠ '0'.toNat := by
        intro zero
        rw [equal] at leading
        exact leading (congrArg Option.some (Char.toNat_inj.mp zero))
      omega
    calc 10 ^ more.length ≤ (c.toNat - '0'.toNat) * 10 ^ more.length :=
          Nat.le_mul_of_pos_left _ first
      _ ≤ Nat.ofDigitChars 10 more (c.toNat - '0'.toNat) := le_ofDigitChars more _
      _ = Nat.ofDigitChars 10 (Nat.toDigits 10 decimal.digits) 0 := by
        rw [equal, Nat.ofDigitChars_cons, Nat.mul_zero, Nat.zero_add]
      _ = decimal.digits := Nat.ofDigitChars_toDigits (by decide) (by decide)
  have place : decimal.point - 1 = more.length + decimal.exponent := by
    rw [point, equal, List.length_cons]
    omega
  rw [place, zpow_add₀ (by norm_num), zpow_natCast]
  apply mul_le_mul_of_nonneg_right _ (zpow_nonneg (by norm_num) _)
  exact_mod_cast large

end Double.Decimal

namespace Double

/-- Half a step above a magnitude, as a number of steps at the top. -/
theorem half_step_above_le {most : Nat} (enough : 2 ^ 54 - 1 ≤ 2 * most)
    (bounded : d.shift = topShift + 1 → 2 * d.significand + 1 ≤ most) :
    2 * d.scaled + 2 ^ d.shift ≤ 2 * (most * 2 ^ topShift) := by
  obtain ⟨significand, shift⟩ := d.significand_le_and_shift_le
  have whole : 2 * d.scaled + 2 ^ d.shift = (2 * d.significand + 1) * 2 ^ d.shift := by
    rw [scaled, Nat.pow_eq]
    ring
  rw [whole]
  rcases Nat.lt_or_eq_of_le shift with lower | top
  · calc (2 * d.significand + 1) * 2 ^ d.shift
        ≤ (2 * most) * 2 ^ topShift := by
          apply Nat.mul_le_mul (by omega)
          exact Nat.pow_le_pow_right Nat.zero_lt_two (Nat.le_of_lt_succ lower)
      _ = 2 * (most * 2 ^ topShift) := Nat.mul_assoc ..
  · calc (2 * d.significand + 1) * 2 ^ d.shift
        ≤ most * 2 ^ (topShift + 1) := by
          rw [top]
          exact Nat.mul_le_mul_right _ (bounded top)
      _ = 2 * (most * 2 ^ topShift) := by
          rw [Nat.pow_succ]
          ring

theorem shortest_le_steps {most : Nat} (nonzero : d.isZero = false) (enough : 2 ^ 54 - 1 ≤ 2 * most)
    (bounded : d.shift = topShift + 1 → 2 * d.significand + 1 ≤ most) :
    (d.shortest.digits : ℚ) * 10 ^ d.shortest.exponent * unit ≤ most * 2 ^ topShift := by
  have above : (2 * d.scaled + 2 ^ d.shift : ℚ) ≤ 2 * (most * 2 ^ topShift) := by
    exact_mod_cast half_step_above_le enough bounded
  have reads := shortest_le nonzero
  linarith

/-- All doubles but the three largest stay away from the limit. -/
theorem shortest_le_of_lower (nonzero : d.isZero = false) (lower : d.place + 3 < bound) :
    (d.shortest.digits : ℚ) * 10 ^ d.shortest.exponent * unit ≤ (2 ^ 54 - 7) * 2 ^ topShift := by
  have few : d.shift = topShift + 1 → 2 * d.significand + 1 ≤ 2 ^ 54 - 7 := by
    have topEq : topShift = 2044 := rfl
    intro top
    unfold Double.shift at top
    unfold significand
    rw [fractionSteps_eq] at top ⊢
    rw [bound_eq] at lower
    split
    · omega
    · omega
  have steps := shortest_le_steps nonzero (by decide) few
  have cast : ((2 ^ 54 - 7 : Nat) : ℚ) = 2 ^ 54 - 7 := by norm_num
  rwa [cast] at steps

/-- The point of the shortest decimal is not far from the first digit. -/
theorem point_shortest (nonzero : d.isZero = false) :
    -347 ≤ d.shortest.point ∧ d.shortest.point ≤ 309 := by
  obtain ⟨low, some, _⟩ := shortest_spec nonzero
  have positive : 0 < (Nat.toDigits 10 d.shortest.digits).length := Nat.length_toDigits_pos
  have below : d.shift = topShift + 1 → 2 * d.significand + 1 ≤ 2 ^ 54 - 1 := by
    have bounded := d.significand_le_and_shift_le.1
    omega
  have steps := shortest_le_steps nonzero (by decide) below
  have less : (10 : ℚ) ^ (d.shortest.point - 1) < 10 ^ (309 : Int) := by
    have unitPositive : (0 : ℚ) < unit := by exact_mod_cast unit_pos
    have top : ((2 ^ 54 - 1 : Nat) : ℚ) * 2 ^ topShift < 10 ^ 309 * unit := by
      exact_mod_cast (by decide +kernel : (2 ^ 54 - 1) * 2 ^ topShift < 10 ^ 309 * unit)
    apply lt_of_mul_lt_mul_right _ unitPositive.le
    calc (10 : ℚ) ^ (d.shortest.point - 1) * unit
        ≤ d.shortest.digits * 10 ^ d.shortest.exponent * unit :=
          mul_le_mul_of_nonneg_right (Decimal.ten_pow_point_le some) unitPositive.le
      _ ≤ (2 ^ 54 - 1 : Nat) * 2 ^ topShift := steps
      _ < 10 ^ 309 * unit := top
      _ = 10 ^ (309 : Int) * unit := rfl
  have high := (zpow_lt_zpow_iff_right₀ (by norm_num)).mp less
  constructor
  · rw [Decimal.point]
    omega
  · omega

end Double

/-! ## Doubles -/

/-- The doubles closest to the limit, by their place. -/
def topmost (k : Fin 3) (negative : Bool) : Double :=
  ⟨negative, bound - 3 + k, by rw [bound_eq]; omega⟩

/-- Of the three largest doubles the reader takes all digits, and what it makes of them is in
range. -/
theorem exists_magnitude?_topmost : ∀ (k : Fin 3) (negative : Bool),
    let decimal := (topmost k negative).shortest
    Nat.ofDigitChars 10 decimal.trimmed 0 < 0x10000000000000000 ∧
      (magnitude? (Nat.ofDigitChars 10 decimal.trimmed 0)
        (decimal.point - decimal.trimmed.length)).isSome := by
  decide +kernel

theorem exists_topmost (top : bound ≤ d.place + 3) : ∃ k negative, d = topmost k negative := by
  have finite := d.finite
  rw [bound_eq] at top finite
  refine ⟨⟨d.place - (bound - 3), ?_⟩, d.negative, ?_⟩
  · rw [bound_eq]
    omega
  · have place : d.place = bound - 3 + (d.place - (bound - 3)) := by
      rw [bound_eq]
      omega
    cases d
    simpa [topmost] using place

/-- Whatever the reader makes of the shortest decimal of a double is in range. -/
theorem exists_magnitude? {significand : Nat} {exponent : Int} (nonzero : d.isZero = false)
    (within : Within d.shortest.trimmed d.shortest.point significand exponent) :
    ∃ result, magnitude? significand exponent = some result := by
  by_cases lowers : exponent ≤ 0
  · exact exists_magnitude?_of_nonpos within.small lowers
  · obtain ⟨near, bounded, complete⟩ := within.bounded.resolve_left lowers
    by_cases lower : d.place + 3 < bound
    · obtain ⟨power, rfl⟩ := Int.eq_ofNat_of_zero_le (Int.le_of_lt (Int.not_le.mp lowers))
      have few : power ≤ 308 := by
        have last := (point_shortest nonzero).2
        omega
      apply exists_magnitude?_of_nonneg within.small few
      rw [Decimal.value_trimmed, zpow_natCast] at bounded
      exact (mul_le_mul_of_nonneg_right bounded (Nat.cast_nonneg _)).trans
        (shortest_le_of_lower nonzero lower)
    · obtain ⟨k, negative, rfl⟩ := exists_topmost (Nat.not_lt.mp lower)
      obtain ⟨inRange, result⟩ := exists_magnitude?_topmost k negative
      obtain ⟨rfl, same⟩ := complete inRange
      rw [same]
      exact Option.isSome_iff_exists.mp result

/-- The digits of a double are read as a double, whatever follows. -/
theorem exists_number (d : Double) (negative : Bool) :
    ∃ result, ∀ rest, Ends rest → number negative (d.body ++ rest) = .ok (.double result, rest) := by
  have inRange : ∃ significand exponent result,
      (∀ rest, Ends rest →
        number negative (d.body ++ rest) = fromParts negative significand exponent rest) ∧
      magnitude? significand exponent = some result := by
    cases nonzero : d.isZero with
    | true =>
        have zero : Numeral ['0'] := ⟨by simp, by simp, fun _ => rfl⟩
        have reads : Reads negative ['0', '.', '0'] [] 0 :=
          reads_point zero (by simp) (by simp) (by simp) [] 0
        obtain ⟨significand, exponent, read, small, bounded⟩ := reads
        have lowers : exponent ≤ 0 := bounded.elim id fun raises => Int.le_of_lt raises.1
        obtain ⟨result, inRange⟩ := exists_magnitude?_of_nonpos small lowers
        refine ⟨significand, exponent, result, ?_, inRange⟩
        rw [Double.body, if_pos nonzero]
        exact read
    | false =>
        obtain ⟨low, high⟩ := point_shortest nonzero
        have leads := Decimal.leads_trimmed (shortest_spec nonzero).2.1
        have reads : Reads negative (layout d.shortest.trimmed d.shortest.point)
            d.shortest.trimmed d.shortest.point := reads_layout leads (by omega)
        obtain ⟨significand, exponent, read, within⟩ := reads
        obtain ⟨result, inRange⟩ := exists_magnitude? nonzero within
        refine ⟨significand, exponent, result, ?_, inRange⟩
        rw [Double.body, nonzero]
        exact read
  obtain ⟨significand, exponent, result, read, inRange⟩ := inRange
  refine ⟨if negative then result.neg else result, ?_⟩
  intro rest ends
  rw [read rest ends, fromParts_of_magnitude? inRange]

namespace Number

/-- Whether the text starts with a sign. -/
def signed : Number → Bool
  | .integer value _ _ => value < 0
  | .double d => d.negative

/-- The text after the sign. -/
def body : Number → List Char
  | .integer value _ _ => Nat.toDigits 10 value.natAbs
  | .double d => d.body

theorem text_toList (n : Number) :
    n.text.toList = if n.signed then '-' :: n.body else n.body := by
  cases n with
  | integer value low high =>
      simp only [text, signed, body, decide_eq_true_eq]
      split
      · rw [String.toList_append, Nat.toList_repr]
        rfl
      · exact Nat.toList_repr
  | double d => exact d.text_toList

theorem exists_body (n : Number) : ∃ c more, n.body = c :: more ∧ c.isDigit = true := by
  cases n with
  | integer value low high => exact (numeral_toDigits value.natAbs).exists_cons
  | double d =>
      rw [body, Double.body]
      cases nonzero : d.isZero with
      | true => exact ⟨'0', _, rfl, rfl⟩
      | false => exact exists_layout (Decimal.leads_trimmed (shortest_spec nonzero).2.1)

/-- What the text of a number is read as. -/
def reread : Number → Number
  | .integer value low high => .integer value low high
  | .double d =>
      match number d.negative d.body with
      | .ok (n, _) => n
      | .error _ => .double d

/-- An integer in range is not taken for a double. -/
theorem integerOrDouble_natAbs {value : Int} (low : -0x8000000000000000 ≤ value)
    (high : value < 0x10000000000000000) :
    integerOrDouble (decide (value < 0)) value.natAbs = .integer value low high := by
  have same : (if decide (value < 0) = true then -(value.natAbs : Int) else value.natAbs) = value := by
    simp only [decide_eq_true_eq]
    omega
  have notMinusZero : ¬ (decide (value < 0) = true ∧ value.natAbs = 0) := by
    simp only [decide_eq_true_eq]
    omega
  simp only [integerOrDouble, same]
  rw [dif_pos ⟨⟨low, high⟩, notMinusZero⟩]

/-- The text of a number is read back, whatever follows. -/
theorem number_body (n : Number) (ends : Ends rest) :
    number n.signed (n.body ++ rest) = .ok (n.reread, rest) := by
  cases n with
  | integer value low high =>
      have digits := Nat.ofDigitChars_toDigits (b := 10) (n := value.natAbs) (by decide) (by decide)
      have small : value.natAbs < 0x10000000000000000 := by omega
      rw [body, number_numeral _ (numeral_toDigits _) ends.startsWithDigit (by rwa [digits]), digits,
        afterInteger_of_ends ends, signed, integerOrDouble_natAbs low high]
      rfl
  | double d =>
      obtain ⟨result, read⟩ := exists_number d d.negative
      have alone := read [] (by simp [Ends])
      rw [List.append_nil] at alone
      rw [signed, body, read rest ends, reread, alone]

end Number

end Phrasebook.Json
