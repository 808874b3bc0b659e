import ItemTable.Number.Natural

/-!
# Binary64 numbers

Numbers of key attributes and conditions are compared after rounding them to
64-bit binary floating point.  A `Binary64` is a sign and the remaining 63 bits
of the pattern: those bits, read as a number, grow with the absolute value, so
`Binary64.rank` places every pattern on one line and `Binary64.compare?` is the
numeric order, in which the two zeros are equal and NaN has no place.
-/

namespace ItemTable

/-- A 64-bit floating-point pattern: its sign and its other 63 bits. -/
structure Binary64 where
  negative : Bool
  magnitude : Nat
deriving DecidableEq, Inhabited

namespace Binary64

/-- The bits of infinity; a greater magnitude is that of a NaN. -/
def infinityMagnitude : Nat :=
  0x7FF * twoTo 52

/-- The bits of the NaN that stands for a text that is no number. -/
def quietMagnitude : Nat :=
  infinityMagnitude + twoTo 51

/-- The positive zero. -/
def zero : Binary64 :=
  ⟨false, 0⟩

/-- Infinity with the given sign. -/
def infinity (negative : Bool) : Binary64 :=
  ⟨negative, infinityMagnitude⟩

/-- A NaN with the given sign. -/
def nan (negative : Bool) : Binary64 :=
  ⟨negative, quietMagnitude⟩

/-- The pattern with the given 64 bits. -/
def ofBits (bits : Nat) : Binary64 :=
  ⟨twoTo 63 ≤ bits, bits % twoTo 63⟩

/-- Whether the pattern denotes no number at all. -/
def isNaN (number : Binary64) : Bool :=
  infinityMagnitude < number.magnitude

/-- Whether the number is neither infinite nor NaN. -/
def isFinite (number : Binary64) : Bool :=
  number.magnitude < infinityMagnitude

/-- The same number, but zero always positive. -/
def unsignedZero (number : Binary64) : Binary64 :=
  if number.magnitude = 0 then zero else number

/-! ## Orders -/

/-- The place of a pattern in the total order of all patterns: negative
patterns below positive ones, and each infinity inside the NaNs of its sign. -/
def rank (number : Binary64) : Int :=
  if number.negative then -(number.magnitude + 1 : Int) else number.magnitude

/-- The magnitude with its sign, equal for both zeros. -/
def signed (number : Binary64) : Int :=
  if number.negative then -(number.magnitude : Int) else number.magnitude

/-- The numeric order; a NaN is not comparable. -/
def compare? (left right : Binary64) : Option Ordering :=
  if left.isNaN || right.isNaN then
    none
  else
    some (compare left.signed right.signed)

/-- Patterns of one rank are the same pattern. -/
theorem rank_injective
    {left right : Binary64}
    (equal : left.rank = right.rank) :
    left = right := by
  obtain ⟨leftNegative, leftMagnitude⟩ := left
  obtain ⟨rightNegative, rightMagnitude⟩ := right
  cases leftNegative <;> cases rightNegative <;>
    simp only [rank, Bool.false_eq_true, if_true, if_false, mk.injEq, true_and,
      reduceCtorEq, false_and] at equal ⊢ <;>
    omega

/-! ## Rounding -/

/-- The quotient rounded to the nearest integer, a half to the even one. -/
def roundHalfEven (numerator denominator : Nat) : Nat :=
  let quotient := numerator / denominator
  let twice := 2 * (numerator % denominator)
  if denominator < twice ∨ (twice = denominator ∧ quotient % 2 = 1) then
    quotient + 1
  else
    quotient

/-- The exponent of the greatest power of two that is at most the quotient of
two positive numbers. -/
def floorLog2 (numerator denominator : Nat) : Int :=
  let estimate : Int := (numerator.log2 : Int) - denominator.log2
  let reached :=
    if 0 ≤ estimate then
      denominator * twoTo estimate.toNat ≤ numerator
    else
      denominator ≤ numerator * twoTo (-estimate).toNat
  if reached then estimate else estimate - 1

/-- The magnitude nearest to a quotient.  The significand is rounded on the
grid of the quotient's own binade; a significand that rounds up to the next
power of two carries into the exponent bits by itself. -/
def magnitudeOfRatio (numerator denominator : Nat) : Nat :=
  if numerator = 0 then
    0
  else
    let exponent := max (floorLog2 numerator denominator - 52) (-1074)
    let significand :=
      if 0 ≤ exponent then
        roundHalfEven numerator (denominator * twoTo exponent.toNat)
      else
        roundHalfEven (numerator * twoTo (-exponent).toNat) denominator
    min ((exponent + 1074).toNat * twoTo 52 + significand) infinityMagnitude

/-- The number nearest to a quotient, which overflows to infinity. -/
def ofRatio (negative : Bool) (numerator denominator : Nat) : Binary64 :=
  ⟨negative, magnitudeOfRatio numerator denominator⟩

/-- The number nearest to an integer. -/
def ofInt (number : Int) : Binary64 :=
  ofRatio (number < 0) number.natAbs 1

/-- The significand of a finite number: its value is the significand times two
to the power `exponent`. -/
def significand (number : Binary64) : Nat :=
  if number.magnitude < twoTo 52 then
    number.magnitude
  else
    twoTo 52 + number.magnitude % twoTo 52

/-- The exponent of the unit in the last place. -/
def exponent (number : Binary64) : Int :=
  max (number.magnitude / twoTo 52 : Nat) 1 - 1075

/-- The value of a finite number in units of the least positive one. -/
def units (number : Binary64) : Int :=
  let size : Nat := number.significand * twoTo (number.exponent + 1074).toNat
  if number.negative then -(size : Int) else size

/-- The integer that the number is. -/
def toInt? (number : Binary64) : Option Int :=
  if number.isFinite && number.units % twoTo 1074 = 0 then
    some (number.units / twoTo 1074)
  else
    none

/-- The number nearest to the sum. -/
def add (left right : Binary64) : Binary64 :=
  if !left.isFinite then
    left
  else if !right.isFinite then
    right
  else
    let sum := left.units + right.units
    if sum = 0 then
      ⟨left.negative && right.negative, 0⟩
    else
      ofRatio (sum < 0) sum.natAbs (twoTo 1074)

end Binary64

end ItemTable
