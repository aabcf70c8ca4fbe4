/-!
# Finite doubles

A JSON number outside the integer ranges is a finite binary64 value.  Such a
value is a sign and a place on the ladder of finite magnitudes, counted from
zero upwards: neighbouring places are neighbouring magnitudes.  All arithmetic
here is exact arithmetic on natural numbers followed by one rounding.
-/

namespace Phrasebook.Json

/-- Number of fraction steps between two powers of two. -/
def Double.fractionSteps : Nat := Nat.pow 2 52

/-- The first place that is no finite magnitude. -/
def Double.bound : Nat := 2047 * Double.fractionSteps

/-- A finite binary64 value. -/
structure Double where
  negative : Bool
  place : Nat
  finite : place < Double.bound
  deriving DecidableEq

namespace Double

/-- Zero with the given sign. -/
def zero (negative : Bool) : Double :=
  ⟨negative, 0, by decide⟩

instance : Inhabited Double := ⟨zero false⟩

/-- The same magnitude with the opposite sign. -/
def neg (d : Double) : Double :=
  { d with negative := !d.negative }

/-- Numerical equality: the two zeros are one value. -/
def same (a b : Double) : Bool :=
  a.place == b.place && (a.negative == b.negative || a.place == 0)

/-- Whether the value is one of the two zeros. -/
def isZero (d : Double) : Bool :=
  d.place == 0

/-- The magnitude at a place is `significand * 2 ^ shift / 2 ^ 1074`. -/
def significand (d : Double) : Nat :=
  if d.place < fractionSteps then d.place
  else fractionSteps + d.place % fractionSteps

@[inherit_doc significand]
def shift (d : Double) : Nat :=
  d.place / fractionSteps - 1

/-- The denominator of every magnitude: `2 ^ 1074`. -/
def unit : Nat :=
  Nat.pow 2 1074

/-- The magnitude as a numerator over `unit`. -/
def scaled (d : Double) : Nat :=
  d.significand * Nat.pow 2 d.shift

/-- Division rounded to the nearest integer, a half going to the even one. -/
def divNearestEven (num den : Nat) : Nat :=
  let quotient := num / den
  let twice := 2 * (num % den)
  if twice < den then quotient
  else if den < twice then quotient + 1
  else quotient + quotient % 2

/-- The place nearest to `num / den`, or at or beyond `bound` when the ratio is
too large.  The ratio is first brought to units of the last binary digit. -/
def nearestPlace (num den : Nat) : Nat :=
  let units := num * unit
  let width := (units / den).log2
  if width < 53 then divNearestEven units den
  else
    let shift := width - 52
    let kept := divNearestEven units (den * Nat.pow 2 shift)
    shift * fractionSteps + kept

/-- The finite value nearest to `num / den`, unless that rounds to infinity. -/
def ofRatio? (negative : Bool) (num den : Nat) : Option Double :=
  let place := nearestPlace num den
  if h : place < bound then some ⟨negative, place, h⟩ else none

/-- The nearest value to a natural number. -/
def ofNat? (n : Nat) : Option Double :=
  ofRatio? false n 1

/-- The rounded product, keeping the sign of the first factor. -/
def mul? (a b : Double) : Option Double :=
  ofRatio? a.negative (a.scaled * b.scaled) (unit * unit)

/-- The rounded quotient by a nonzero value, keeping the sign of the dividend. -/
def div? (a b : Double) : Option Double :=
  ofRatio? a.negative a.scaled b.scaled

/-- A decimal: the digits of `digits`, scaled by `10 ^ exponent`. -/
structure Decimal where
  digits : Nat
  exponent : Int
  deriving DecidableEq, Repr

/-- Whether `num / den` reads back as `d`: it lies between the midpoints to the
two neighbouring places, ends included when the significand is even. -/
def readsBack (d : Double) (num den : Nat) : Bool :=
  let low := if d.place % fractionSteps = 0 ∧ fractionSteps < d.place then
      4 * d.scaled - Nat.pow 2 d.shift
    else 4 * d.scaled - 2 * Nat.pow 2 d.shift
  let high := 4 * d.scaled + 2 * Nat.pow 2 d.shift
  let value := 4 * num * unit
  if d.significand % 2 = 0 then
    low * den ≤ value && value ≤ high * den
  else
    low * den < value && value < high * den

/-- The decimal on the grid `10 ^ exponent` that is nearest to the magnitude
among those which read back, if there is one. -/
def onGrid? (d : Double) (exponent : Int) : Option Decimal :=
  let up := Nat.pow 10 exponent.toNat
  let down := Nat.pow 10 (-exponent).toNat
  let num := d.scaled * down
  let den := unit * up
  let below := num / den
  let fits (n : Nat) : Bool := d.readsBack (n * up) down
  let nearest := divNearestEven num den
  if nearest ≠ 0 ∧ fits nearest then some ⟨nearest, exponent⟩
  else if below ≠ 0 ∧ fits below then some ⟨below, exponent⟩
  else if fits (below + 1) then some ⟨below + 1, exponent⟩
  else none

/-- The exponent of the leading decimal digit of `num / den`, by trial upwards
from `start`. -/
def leadingExponent (num den : Nat) : Nat → Int → Int
  | 0, start => start
  | fuel + 1, start =>
      let next := start + 1
      if den * Nat.pow 10 next.toNat ≤ num * Nat.pow 10 (-next).toNat then
        leadingExponent num den fuel next
      else start

/-- The first grid, from coarse to fine, that holds a decimal reading back. -/
def firstGrid (d : Double) : Nat → Int → Decimal
  | 0, exponent => ⟨d.scaled, exponent⟩
  | fuel + 1, exponent =>
      match d.onGrid? exponent with
      | some found => found
      | none => firstGrid d fuel (exponent - 1)

/-- The shortest decimal that reads back as the magnitude, the nearest one among
those of that length. -/
def shortest (d : Double) : Decimal :=
  if d.isZero then ⟨0, 0⟩
  else
    let leading := leadingExponent d.scaled unit 640 (-330)
    firstGrid d 20 (leading + 1)

/-- The printed form.  Positional from `0.00001` up to sixteen digits before the
point, otherwise with an exponent, whose sign is always written. -/
def text (d : Double) : String :=
  let decimal := d.shortest
  let digits := Nat.toDigits 10 decimal.digits
  let trimmed := (digits.reverse.dropWhile (· == '0')).reverse
  let size : Int := digits.length
  let point : Int := size + decimal.exponent
  let body :=
    if d.isZero then ['0', '.', '0']
    else if 0 < point ∧ point ≤ 16 then
      let whole := point.toNat
      if trimmed.length ≤ whole then
        trimmed ++ List.replicate (whole - trimmed.length) '0' ++ ['.', '0']
      else trimmed.take whole ++ '.' :: trimmed.drop whole
    else if -5 < point ∧ point ≤ 0 then
      '0' :: '.' :: List.replicate (-point).toNat '0' ++ trimmed
    else
      let mantissa := match trimmed with
        | [] => []
        | [only] => [only]
        | first :: rest => first :: '.' :: rest
      let power := point - 1
      let sign := if power < 0 then '-' else '+'
      mantissa ++ 'e' :: sign :: Nat.toDigits 10 power.natAbs
  String.ofList (if d.negative then '-' :: body else body)

end Double
end Phrasebook.Json
