import Phrasebook.Proofs.Json.Digits

/-!
# Numerals

How a number is read whose text is a numeral, a numeral with a fraction, or either of these
with an exponent.
-/

namespace Phrasebook.Json.Lexeme

variable {digits rest : List Char} {negative : Bool}

/-- A run of digits without a leading zero, or a zero alone. -/
structure Numeral (digits : List Char) : Prop where
  nonempty : digits ≠ []
  all : ∀ c ∈ digits, c.isDigit = true
  leading : digits.head? = some '0' → digits = ['0']

theorem Numeral.exists_cons (numeral : Numeral digits) :
    ∃ c more, digits = c :: more ∧ c.isDigit = true := by
  obtain ⟨c, more, rfl⟩ := List.exists_cons_of_ne_nil numeral.nonempty
  exact ⟨c, more, rfl, numeral.all c List.mem_cons_self⟩

theorem head?_toDigits {n : Nat} (positive : n ≠ 0) : (Nat.toDigits 10 n).head? ≠ some '0' := by
  induction n using Nat.strongRecOn with
  | ind n ih =>
      rw [Nat.toDigits_eq_if (by decide)]
      by_cases small : n < 10
      · have digit : ∀ n < 10, n ≠ 0 → n.digitChar ≠ '0' := by decide
        simpa [small] using digit n small positive
      · have higher : n / 10 ≠ 0 := by omega
        have before := ih (n / 10) (by omega) higher
        obtain ⟨c, more, split⟩ := List.exists_cons_of_ne_nil
          (List.length_pos_iff.mp (Nat.length_toDigits_pos (b := 10) (n := n / 10)))
        rw [if_neg small, split]
        rwa [split] at before

theorem numeral_toDigits (n : Nat) : Numeral (Nat.toDigits 10 n) where
  nonempty := List.length_pos_iff.mp Nat.length_toDigits_pos
  all := fun _ => Nat.isDigit_of_mem_toDigits (by decide) (by decide)
  leading := by
    intro zero
    by_cases positive : n = 0
    · rw [positive]
      rfl
    · exact absurd zero (head?_toDigits positive)

/-- A numeral in range is the significand of what comes after it. -/
theorem number_numeral (negative : Bool) (numeral : Numeral digits) (stops : startsWithDigit rest = false)
    (small : Nat.ofDigitChars 10 digits 0 < 0x10000000000000000) :
    number negative (digits ++ rest) =
      afterInteger negative (Nat.ofDigitChars 10 digits 0) rest := by
  obtain ⟨c, more, rfl, digit⟩ := numeral.exists_cons
  by_cases zero : c = '0'
  · subst zero
    obtain rfl : more = [] := by simpa using numeral.leading rfl
    simp [number, stops, Nat.ofDigitChars_cons]
  · obtain ⟨taken, left, split, absorbed, _, complete⟩ := absorb_digits numeral.all 0
    obtain rfl := complete small
    rw [List.append_nil] at split
    subst split
    have absorbed := absorbed 0 rest stops
    rw [List.cons_append] at absorbed ⊢
    rw [number]
    · simp [startsWithDigit, digit, absorbed]
    · simp
    · intro _ equal
      exact absurd (List.cons.inj equal).1 zero

theorem afterInteger_of_ends (ends : Ends rest) (significand : Nat) :
    afterInteger negative significand rest = .ok (integerOrDouble negative significand, rest) := by
  cases rest with
  | nil => rfl
  | cons c rest =>
      obtain ⟨notDigit, notPoint, notSmall, notCapital⟩ := ends c rfl
      simp only [afterInteger, List.takeWhile_cons, List.dropWhile_cons, notDigit,
        Bool.false_eq_true, if_false, List.length_nil, if_true]
      split
      · rename_i equal
        exact absurd (List.cons.inj equal).1 notPoint
      · rename_i equal
        exact absurd (List.cons.inj equal).1 notSmall
      · rename_i equal
        exact absurd (List.cons.inj equal).1 notCapital
      · rfl

theorem afterInteger_point (significand : Nat) (text : List Char) :
    afterInteger negative significand ('.' :: text) = fractionPart negative significand 0 text :=
  rfl

theorem afterInteger_exponent (significand : Nat) (text : List Char) :
    afterInteger negative significand ('e' :: text) = exponentPart negative significand 0 text :=
  rfl

/-- How a number goes on after the digits of its fraction. -/
def afterFraction (negative : Bool) (significand : Nat) (exponent : Int) :
    List Char → Reply Number
  | 'e' :: rest => exponentPart negative significand exponent rest
  | 'E' :: rest => exponentPart negative significand exponent rest
  | rest => fromParts negative significand exponent rest

theorem afterFraction_of_ends (ends : Ends rest) (significand : Nat) (exponent : Int) :
    afterFraction negative significand exponent rest =
      fromParts negative significand exponent rest := by
  unfold afterFraction
  split
  · exact absurd rfl (ends 'e' rfl).2.2.1
  · exact absurd rfl (ends 'E' rfl).2.2.2
  · rfl

theorem fractionPart_of_absorb {significand taken count : Nat} {text left : List Char}
    (absorbed : absorb significand 0 text = (taken, count, left))
    (goesOn : ¬ (count = 0 ∧ (!startsWithDigit left) = true)) (start : Int) :
    fractionPart negative significand start text =
      afterFraction negative taken (start - count) (left.dropWhile Char.isDigit) := by
  unfold fractionPart
  rw [absorbed]
  dsimp only
  rw [if_neg goesOn]
  rfl

/-- Of the digits of a fraction those in front are taken, and all of them if the significand
stays in range. -/
theorem fractionPart_digits (negative : Bool) (nonempty : digits ≠ []) (all : ∀ c ∈ digits, c.isDigit = true)
    (significand : Nat) (start : Int) :
    ∃ taken left, digits = taken ++ left ∧
      (∀ rest, startsWithDigit rest = false →
        fractionPart negative significand start (digits ++ rest) =
          afterFraction negative (Nat.ofDigitChars 10 taken significand) (start - taken.length)
            rest) ∧
      (significand < 0x10000000000000000 →
        Nat.ofDigitChars 10 taken significand < 0x10000000000000000) ∧
      (Nat.ofDigitChars 10 digits significand < 0x10000000000000000 → left = []) := by
  obtain ⟨taken, left, split, absorbed, bounded, complete⟩ := absorb_digits all significand
  refine ⟨taken, left, split, ?_, bounded, complete⟩
  intro rest stops
  have leftDigits : ∀ c ∈ left, c.isDigit = true := by
    intro c member
    exact all c (split ▸ List.mem_append_right _ member)
  have goesOn : ¬ (taken.length = 0 ∧ (!startsWithDigit (left ++ rest)) = true) := by
    rintro ⟨none, stopped⟩
    obtain rfl : taken = [] := List.length_eq_zero_iff.mp none
    rw [List.nil_append] at split
    obtain ⟨c, more, equal⟩ := List.exists_cons_of_ne_nil (split ▸ nonempty)
    simp [equal, startsWithDigit, leftDigits c (by simp [equal])] at stopped
  have absorbed := absorbed 0 rest stops
  rw [Nat.zero_add] at absorbed
  rw [fractionPart_of_absorb absorbed goesOn, dropWhile_isDigit leftDigits stops]

/-- The sign of an exponent, which is always written. -/
def exponentSign (power : Int) : Char :=
  if power < 0 then '-' else '+'

/-- An exponent with a sign is added to the exponent that is there. -/
theorem exponentPart_sign {power : Int} (small : power.natAbs < 0x80000000) (ends : Ends rest)
    (significand : Nat) (start : Int) :
    exponentPart negative significand start
        (exponentSign power :: Nat.toDigits 10 power.natAbs ++ rest) =
      fromParts negative significand (start + power) rest := by
  obtain ⟨size, absolute⟩ : ∃ size, power.natAbs = size := ⟨_, rfl⟩
  rw [absolute] at small ⊢
  obtain ⟨c, more, split, digit⟩ := (numeral_toDigits size).exists_cons
  have value : Nat.ofDigitChars 10 (Nat.toDigits 10 size) 0 = size :=
    Nat.ofDigitChars_toDigits (by decide) (by decide)
  have read := exponentDigits_digits (numeral_toDigits size).all ends.startsWithDigit 0
    (by rwa [value])
  rw [value, split, List.cons_append] at read
  by_cases down : power < 0
  · have sum : start - size = start + power := by omega
    simp [exponentPart, exponentSign, down, split, digit, read, ends.startsWithDigit, sum]
  · have sum : start + size = start + power := by omega
    simp [exponentPart, exponentSign, down, split, digit, read, ends.startsWithDigit, sum]

end Phrasebook.Json.Lexeme
