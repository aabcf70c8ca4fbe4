import Mathlib.Tactic.Ring
import Mathlib.Algebra.Order.Ring.Nat
import Phrasebook.Json.Lexeme

/-!
# Runs of digits

The readers of numbers take a run of digits for its value, as long as that is in range.  Of a
longer run they take the digits in front.
-/

namespace Phrasebook.Json.Lexeme

/-- After such a text no number goes on. -/
def Ends (rest : List Char) : Prop :=
  ∀ c ∈ rest.head?, c.isDigit = false ∧ c ≠ '.' ∧ c ≠ 'e' ∧ c ≠ 'E'

variable {digits rest : List Char}

theorem Ends.startsWithDigit (ends : Ends rest) : startsWithDigit rest = false := by
  cases rest with
  | nil => rfl
  | cons c rest => exact (ends c rfl).1

/-- The value of a run of digits is at least that of its front. -/
theorem le_ofDigitChars (digits : List Char) (value : Nat) :
    value * 10 ^ digits.length ≤ Nat.ofDigitChars 10 digits value := by
  rw [Nat.ofDigitChars_eq_ofDigitChars_zero, Nat.mul_comm]
  exact Nat.le_add_right ..

theorem self_le_ofDigitChars (digits : List Char) (value : Nat) :
    value ≤ Nat.ofDigitChars 10 digits value :=
  (Nat.le_mul_of_pos_right value (Nat.pow_pos (by decide))).trans (le_ofDigitChars digits value)

/-- Absorbing a run of digits takes the front of it, and all of it if its value is in range.
What is taken does not depend on the text after the run. -/
theorem absorb_digits (all : ∀ c ∈ digits, c.isDigit = true) (significand : Nat) :
    ∃ taken left, digits = taken ++ left ∧
      (∀ count rest, startsWithDigit rest = false →
        absorb significand count (digits ++ rest) =
          (Nat.ofDigitChars 10 taken significand, count + taken.length, left ++ rest)) ∧
      (significand < 0x10000000000000000 →
        Nat.ofDigitChars 10 taken significand < 0x10000000000000000) ∧
      (Nat.ofDigitChars 10 digits significand < 0x10000000000000000 → left = []) := by
  induction digits generalizing significand with
  | nil =>
      refine ⟨[], [], rfl, ?_, id, fun _ => rfl⟩
      intro count rest stops
      cases rest with
      | nil => rfl
      | cons c rest =>
          have notDigit : c.isDigit = false := stops
          simp [absorb, notDigit]
  | cons c digits ih =>
      have digit : c.isDigit = true := all c List.mem_cons_self
      have comm : significand * 10 + (c.toNat - '0'.toNat) =
          10 * significand + (c.toNat - '0'.toNat) := by ring
      by_cases inRange : significand * 10 + (c.toNat - '0'.toNat) < 0x10000000000000000
      · obtain ⟨taken, left, split, absorbed, bounded, complete⟩ :=
          ih (fun c member => all c (List.mem_cons_of_mem _ member))
            (significand * 10 + (c.toNat - '0'.toNat))
        refine ⟨c :: taken, left, by rw [split, List.cons_append], ?_, ?_, ?_⟩
        · intro count rest stops
          rw [List.cons_append, absorb]
          rw [if_pos ⟨digit, inRange⟩, absorbed (count + 1) rest stops, Nat.ofDigitChars_cons,
            comm, List.length_cons]
          simp only [Prod.mk.injEq, true_and, and_true]
          omega
        · intro _
          rw [Nat.ofDigitChars_cons, ← comm]
          exact bounded inRange
        · rwa [Nat.ofDigitChars_cons, ← comm]
      · refine ⟨[], c :: digits, rfl, ?_, id, ?_⟩
        · intro count rest _
          rw [List.cons_append, absorb]
          rw [if_neg fun both => inRange both.2]
          rfl
        · intro small
          rw [Nat.ofDigitChars_cons, ← comm] at small
          exact absurd ((self_le_ofDigitChars ..).trans_lt small) inRange

/-- An exponent is its digits' value while that is in range. -/
theorem exponentDigits_digits (all : ∀ c ∈ digits, c.isDigit = true)
    (stops : startsWithDigit rest = false) (value : Nat)
    (small : Nat.ofDigitChars 10 digits value < 0x80000000) :
    exponentDigits value (digits ++ rest) = (Nat.ofDigitChars 10 digits value, rest) := by
  induction digits generalizing value with
  | nil =>
      cases rest with
      | nil => rfl
      | cons c rest =>
          have notDigit : c.isDigit = false := stops
          simp [exponentDigits, notDigit]
  | cons c digits ih =>
      have digit : c.isDigit = true := all c List.mem_cons_self
      have comm : value * 10 + (c.toNat - '0'.toNat) = 10 * value + (c.toNat - '0'.toNat) := by
        ring
      rw [Nat.ofDigitChars_cons, ← comm] at small ⊢
      have inRange := (self_le_ofDigitChars ..).trans_lt small
      rw [List.cons_append, exponentDigits]
      rw [if_pos ⟨digit, inRange⟩]
      exact ih (fun c member => all c (List.mem_cons_of_mem _ member)) _ small

theorem dropWhile_isDigit (all : ∀ c ∈ digits, c.isDigit = true)
    (stops : startsWithDigit rest = false) :
    (digits ++ rest).dropWhile Char.isDigit = rest := by
  rw [List.dropWhile_append_of_pos all]
  cases rest with
  | nil => rfl
  | cons c rest =>
      have notDigit : c.isDigit = false := stops
      simp [notDigit]

end Phrasebook.Json.Lexeme
