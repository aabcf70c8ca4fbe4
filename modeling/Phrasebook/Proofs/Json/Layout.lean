import Mathlib.Algebra.Order.Field.Rat
import Mathlib.Algebra.Order.Field.Power
import Mathlib.Tactic.Positivity
import Mathlib.Tactic.NormNum
import Phrasebook.Proofs.Json.Numerals

/-!
# How a double is laid out

A double is written with the digits of its shortest decimal and the place of the point.  The
reader of numbers takes that apart into a significand and an exponent, and what they amount to
is no more than the decimal.
-/

namespace Phrasebook.Json

open Lexeme

/-- Digits with a point after the first one, if there are others. -/
def mantissa : List Char → List Char
  | [] => []
  | [only] => [only]
  | first :: rest => first :: '.' :: rest

/-- Digits with a point in front, among them, or behind them, or with an exponent. -/
def layout (digits : List Char) (point : Int) : List Char :=
  if 0 < point ∧ point ≤ 16 then
    if digits.length ≤ point.toNat then
      digits ++ List.replicate (point.toNat - digits.length) '0' ++ ['.', '0']
    else digits.take point.toNat ++ '.' :: digits.drop point.toNat
  else if -5 < point ∧ point ≤ 0 then
    '0' :: '.' :: List.replicate (-point).toNat '0' ++ digits
  else
    mantissa digits ++ 'e' :: exponentSign (point - 1) :: Nat.toDigits 10 (point - 1).natAbs

/-- The digits of a decimal without the zeros at their end. -/
def Double.Decimal.trimmed (decimal : Double.Decimal) : List Char :=
  ((Nat.toDigits 10 decimal.digits).reverse.dropWhile (· == '0')).reverse

/-- The place of the point, counted from the first digit. -/
def Double.Decimal.point (decimal : Double.Decimal) : Int :=
  (Nat.toDigits 10 decimal.digits).length + decimal.exponent

/-- The text of a double after its sign. -/
def Double.body (d : Double) : List Char :=
  if d.isZero then ['0', '.', '0'] else layout d.shortest.trimmed d.shortest.point

theorem Double.text_toList (d : Double) :
    d.text.toList = if d.negative then '-' :: d.body else d.body := by
  rw [Double.text, String.toList_ofList]
  rfl

variable {digits fraction : List Char} {negative : Bool} {point : Int}

theorem ofDigitChars_lt (all : ∀ c ∈ digits, c.isDigit = true) :
    Nat.ofDigitChars 10 digits 0 < 10 ^ digits.length := by
  induction digits with
  | nil => simp
  | cons c digits ih =>
      have digit := all c List.mem_cons_self
      have value : c.toNat - '0'.toNat ≤ 9 := by
        have range := Char.isDigit_iff_toNat.mp digit
        have zero : '0'.toNat = 48 := rfl
        have nine : '9'.toNat = 57 := rfl
        omega
      have more := ih fun c member => all c (List.mem_cons_of_mem _ member)
      rw [Nat.ofDigitChars_cons, Nat.ofDigitChars_eq_ofDigitChars_zero, List.length_cons,
        Nat.pow_succ]
      calc 10 ^ digits.length * (10 * 0 + (c.toNat - '0'.toNat)) + Nat.ofDigitChars 10 digits 0
          < 10 ^ digits.length * 9 + 10 ^ digits.length := by
            apply Nat.add_lt_add_of_le_of_lt _ more
            exact Nat.mul_le_mul_left _ (by omega)
        _ = 10 ^ digits.length * 10 := by ring

/-- Digits that do not start with a zero. -/
structure Leads (digits : List Char) : Prop where
  nonempty : digits ≠ []
  all : ∀ c ∈ digits, c.isDigit = true
  notZero : digits.head? ≠ some '0'

theorem Leads.numeral (leads : Leads digits) : Numeral digits :=
  ⟨leads.nonempty, leads.all, fun zero => absurd zero leads.notZero⟩

theorem Leads.append (leads : Leads digits) (all : ∀ c ∈ fraction, c.isDigit = true) :
    Leads (digits ++ fraction) := by
  obtain ⟨c, more, rfl⟩ := List.exists_cons_of_ne_nil leads.nonempty
  refine ⟨by simp, ?_, leads.notZero⟩
  intro c member
  exact (List.mem_append.mp member).elim (leads.all c) (all c)

theorem Leads.take (leads : Leads digits) {count : Nat} (positive : 0 < count) :
    Leads (digits.take count) := by
  obtain ⟨c, more, rfl⟩ := List.exists_cons_of_ne_nil leads.nonempty
  obtain ⟨count, rfl⟩ := Nat.exists_eq_succ_of_ne_zero (Nat.ne_of_gt positive)
  exact ⟨by simp, fun c member => leads.all c (List.mem_of_mem_take member), leads.notZero⟩

/-- Up to nineteen digits are in range. -/
theorem ofDigitChars_small (all : ∀ c ∈ digits, c.isDigit = true) (few : digits.length ≤ 19) :
    Nat.ofDigitChars 10 digits 0 < 0x10000000000000000 :=
  calc Nat.ofDigitChars 10 digits 0
      < 10 ^ digits.length := ofDigitChars_lt all
    _ ≤ 10 ^ 19 := Nat.pow_le_pow_right (by decide) few
    _ < 0x10000000000000000 := by decide

/-- A numeral with a fraction is read as the digits of both, as far as they are in range. -/
theorem number_point (negative : Bool) (numeral : Numeral digits) (few : digits.length ≤ 19)
    (some : fraction ≠ []) (all : ∀ c ∈ fraction, c.isDigit = true) :
    ∃ taken left, fraction = taken ++ left ∧
      (∀ rest, startsWithDigit rest = false →
        number negative (digits ++ '.' :: (fraction ++ rest)) =
          afterFraction negative (Nat.ofDigitChars 10 (digits ++ taken) 0) (-taken.length) rest) ∧
      Nat.ofDigitChars 10 (digits ++ taken) 0 < 0x10000000000000000 ∧
      (Nat.ofDigitChars 10 (digits ++ fraction) 0 < 0x10000000000000000 → left = []) := by
  have small := ofDigitChars_small numeral.all few
  obtain ⟨taken, left, split, read, bounded, complete⟩ :=
    fractionPart_digits negative some all (Nat.ofDigitChars 10 digits 0) 0
  refine ⟨taken, left, split, ?_, ?_, ?_⟩
  · intro rest stops
    rw [number_numeral negative numeral rfl small, afterInteger_point, read rest stops,
      Nat.ofDigitChars_append, Int.zero_sub]
  · rw [Nat.ofDigitChars_append]
    exact bounded small
  · rw [Nat.ofDigitChars_append]
    exact complete

/-- A significand in range and an exponent that does not raise it, or raises it to no more than
the digits say. -/
structure Within (digits : List Char) (point : Int) (significand : Nat) (exponent : Int) :
    Prop where
  small : significand < 0x10000000000000000
  bounded : exponent ≤ 0 ∨
    exponent < point ∧
      (significand : ℚ) * 10 ^ exponent ≤
        (Nat.ofDigitChars 10 digits 0 : ℚ) * 10 ^ (point - digits.length) ∧
      (Nat.ofDigitChars 10 digits 0 < 0x10000000000000000 →
        significand = Nat.ofDigitChars 10 digits 0 ∧ exponent = point - digits.length)

/-- A text is read, whatever follows, as a significand and an exponent that stand for no more
than some digits. -/
def Reads (negative : Bool) (text digits : List Char) (point : Int) : Prop :=
  ∃ significand exponent,
    (∀ rest, Ends rest →
      number negative (text ++ rest) = fromParts negative significand exponent rest) ∧
    Within digits point significand exponent

theorem reads_point (numeral : Numeral digits) (few : digits.length ≤ 19)
    (some : fraction ≠ []) (all : ∀ c ∈ fraction, c.isDigit = true)
    (others : List Char) (point : Int) :
    Reads negative (digits ++ '.' :: fraction) others point := by
  obtain ⟨taken, left, _, read, small, _⟩ :=
    number_point negative numeral few some all
  refine ⟨Nat.ofDigitChars 10 (digits ++ taken) 0, -taken.length, ?_, small, .inl ?_⟩
  · intro rest ends
    rw [List.append_assoc, List.cons_append, read rest ends.startsWithDigit,
      afterFraction_of_ends ends]
  · omega

/-- Digits in front of others amount to no more than all of them. -/
theorem within_front {front left : List Char} (split : digits = front ++ left)
    (some : front ≠ []) (small : Nat.ofDigitChars 10 front 0 < 0x10000000000000000)
    (complete : Nat.ofDigitChars 10 digits 0 < 0x10000000000000000 → left = []) :
    Within digits point (Nat.ofDigitChars 10 front 0) (point - front.length) := by
  have length : digits.length = front.length + left.length := by
    rw [split, List.length_append]
  have positive : 0 < front.length := List.length_pos_iff.mpr some
  have value : Nat.ofDigitChars 10 front 0 * 10 ^ left.length ≤ Nat.ofDigitChars 10 digits 0 := by
    rw [split, Nat.ofDigitChars_append]
    exact le_ofDigitChars left _
  refine ⟨small, .inr ⟨by omega, ?_, ?_⟩⟩
  · have power : (10 : ℚ) ^ (point - front.length) =
        10 ^ left.length * 10 ^ (point - digits.length) := by
      rw [← zpow_natCast, ← zpow_add₀ (by norm_num)]
      congr 1
      omega
    rw [power, ← mul_assoc]
    apply mul_le_mul_of_nonneg_right _ (by positivity)
    exact_mod_cast value
  · intro inRange
    obtain rfl := complete inRange
    rw [List.append_nil] at split
    exact ⟨by rw [split], by rw [split]⟩

theorem reads_scientific (leads : Leads digits) (small : (point - 1).natAbs < 0x80000000) :
    Reads negative
      (mantissa digits ++ 'e' :: exponentSign (point - 1) :: Nat.toDigits 10 (point - 1).natAbs)
      digits point := by
  match digits, leads with
  | [], leads => exact absurd rfl leads.nonempty
  | [only], leads =>
      have inRange := ofDigitChars_small leads.all (by simp)
      refine ⟨Nat.ofDigitChars 10 [only] 0, point - [only].length, ?_,
        within_front rfl (by simp) inRange fun _ => rfl⟩
      intro rest ends
      have stops : startsWithDigit
          ('e' :: (exponentSign (point - 1) :: Nat.toDigits 10 (point - 1).natAbs ++ rest)) = false :=
        rfl
      have read := number_numeral negative leads.numeral stops inRange
      rw [afterInteger_exponent, exponentPart_sign small ends, Int.zero_add] at read
      simpa [mantissa] using read
  | first :: second :: more, leads =>
      have digit : Numeral [first] :=
        ⟨by simp, by simpa using leads.all first List.mem_cons_self, by simp⟩
      have all : ∀ c ∈ second :: more, c.isDigit = true :=
        fun c member => leads.all c (List.mem_cons_of_mem _ member)
      obtain ⟨taken, left, split, read, inRange, complete⟩ :=
        number_point negative digit (by simp) (by simp) all
      refine ⟨Nat.ofDigitChars 10 (first :: taken) 0, point - (first :: taken).length, ?_,
        within_front (by rw [split, List.cons_append]) (by simp) inRange complete⟩
      intro rest ends
      have read := read
        ('e' :: (exponentSign (point - 1) :: Nat.toDigits 10 (point - 1).natAbs ++ rest)) rfl
      have exponent : -(taken.length : Int) + (point - 1) = point - (first :: taken).length := by
        rw [List.length_cons]
        omega
      rw [afterFraction, exponentPart_sign small ends, exponent] at read
      simpa [mantissa] using read

/-- A layout is read as a significand and an exponent that stand for no more than its digits. -/
theorem reads_layout (leads : Leads digits) (small : (point - 1).natAbs < 0x80000000) :
    Reads negative (layout digits point) digits point := by
  have zeros : ∀ count, ∀ c ∈ List.replicate count '0', c.isDigit = true := by
    intro count c member
    rw [List.eq_of_mem_replicate member]
    rfl
  unfold layout
  split
  · rename_i whole
    split
    · rename_i short
      have padded := leads.append (zeros (point.toNat - digits.length))
      have few : (digits ++ List.replicate (point.toNat - digits.length) '0').length ≤ 19 := by
        rw [List.length_append, List.length_replicate]
        omega
      exact reads_point padded.numeral few (by simp) (by simp) digits point
    · rename_i long
      have front : Leads (digits.take point.toNat) := leads.take (by omega)
      apply reads_point front.numeral _ _ _ digits point
      · rw [List.length_take]
        omega
      · simpa using long
      · intro c member
        exact leads.all c (List.mem_of_mem_drop member)
  · split
    · have zero : Numeral ['0'] := ⟨by simp, by simp, fun _ => rfl⟩
      apply reads_point zero (by simp) _ _ digits point
      · simp [leads.nonempty]
      · intro c member
        rcases List.mem_append.mp member with member | member
        · exact zeros _ c member
        · exact leads.all c member
    · exact reads_scientific leads small

/-- A layout starts with a digit. -/
theorem exists_layout (leads : Leads digits) :
    ∃ c more, layout digits point = c :: more ∧ c.isDigit = true := by
  obtain ⟨c, more, rfl⟩ := List.exists_cons_of_ne_nil leads.nonempty
  have digit := leads.all c List.mem_cons_self
  unfold layout
  split
  · rename_i whole
    split
    · exact ⟨c, _, rfl, digit⟩
    · obtain ⟨count, place⟩ : ∃ count, point.toNat = count + 1 := ⟨point.toNat - 1, by omega⟩
      rw [place, List.take_succ_cons]
      exact ⟨c, _, rfl, digit⟩
  · split
    · exact ⟨'0', _, rfl, rfl⟩
    · cases more with
      | nil => exact ⟨c, _, rfl, digit⟩
      | cons next more => exact ⟨c, _, rfl, digit⟩

end Phrasebook.Json
