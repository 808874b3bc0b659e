import ItemTable.Number.Binary64
import ItemTable.Number.Natural

/-!
# Shortest decimal digits

A binary floating-point number is written with the fewest decimal digits that
read back as the same number, in positional notation.

The reals that read back as `significand * 2 ^ exponent` form an interval
around it.  On every decimal grid only the two neighbours of the number have to
be tried, and the coarsest grid with a neighbour inside the interval gives the
digits: of two neighbours inside the nearer one, of equally near ones the upper.
-/

namespace ItemTable.Shortest

/-- A positive binary floating-point number with the interval of the reals that
round to it, all in quarters of the unit in its last place. -/
structure Interval where
  low : Nat
  middle : Nat
  high : Nat
  /-- Whether the ends round to the number, too. -/
  closed : Bool
  /-- The exponent of two of a quarter. -/
  exponent : Int

/-- The interval of a significand and an exponent.  At a power of two the
numbers below lie half as far apart; `leastExponent` is where that ends. -/
def Interval.ofParts
    (significand : Nat)
    (exponent leastExponent : Int)
    (precision : Nat) :
    Interval where
  low :=
    if significand = twoTo (precision - 1) && leastExponent < exponent then
      4 * significand - 1
    else
      4 * significand - 2
  middle := 4 * significand
  high := 4 * significand + 2
  closed := significand % 2 = 0
  exponent := exponent - 2

/-- A positive number `digits * 10 ^ exponent`. -/
structure Decimal where
  digits : Nat
  exponent : Int
deriving DecidableEq, Inhabited

/-- The best neighbour of the number on the grid of the multiples of
`10 ^ place`, if one lies in the interval. -/
def Interval.onGrid (interval : Interval) (place : Int) : Option Nat :=
  let scale := twoTo interval.exponent.toNat * tenTo (-place).toNat
  let step := tenTo place.toNat * twoTo (-interval.exponent).toNat
  let middle := interval.middle * scale
  let below := middle / step
  let inside (digits : Nat) : Bool :=
    let point := digits * step
    digits != 0 &&
      if interval.closed then
        interval.low * scale ≤ point && point ≤ interval.high * scale
      else
        interval.low * scale < point && point < interval.high * scale
  let aboveIsNearer := step ≤ 2 * (middle - below * step)
  match inside below, inside (below + 1) with
  | true, true => some (if aboveIsNearer then below + 1 else below)
  | true, false => some below
  | false, true => some (below + 1)
  | false, false => none

/-- Refine the grid, starting with the multiples of `10 ^ place`, until one has
a point in the interval; `grids` bounds how often. -/
def Interval.search (interval : Interval) : Nat → Int → Decimal
  | 0, place => ⟨interval.middle, place⟩
  | grids + 1, place =>
      match interval.onGrid place with
      | some digits => ⟨digits, place⟩
      | none => interval.search grids (place - 1)

/-- The shortest decimal in the interval. -/
def Interval.shortest (interval : Interval) : Decimal :=
  let whole := interval.high * twoTo interval.exponent.toNat / twoTo (-interval.exponent).toNat
  let length := (Nat.toDigits 10 whole).length
  interval.search (length + interval.exponent.natAbs + 2) length

/-- Positional notation: no exponent, and no point without digits behind it. -/
def Decimal.positional (decimal : Decimal) : List Char :=
  let digits := Nat.toDigits 10 decimal.digits
  if 0 ≤ decimal.exponent then
    digits ++ List.replicate decimal.exponent.toNat '0'
  else
    let places := (-decimal.exponent).toNat
    let padded := List.replicate (places + 1 - digits.length) '0' ++ digits
    padded.take (padded.length - places) ++ '.' :: padded.drop (padded.length - places)

end ItemTable.Shortest

namespace ItemTable

/-- The text of a binary64 number: the sign of zero and of infinity is written,
that of a NaN is not. -/
def Binary64.text (number : Binary64) : String :=
  if number.isNaN then
    "NaN"
  else
    let sign := if number.negative then "-" else ""
    if !number.isFinite then
      sign ++ "inf"
    else if number.magnitude = 0 then
      sign ++ "0"
    else
      let interval :=
        Shortest.Interval.ofParts number.significand number.exponent (-1074) 53
      sign ++ String.ofList interval.shortest.positional

/-- A 32-bit floating-point pattern: its sign and its other 31 bits. -/
structure Binary32 where
  negative : Bool
  magnitude : Nat
deriving DecidableEq

namespace Binary32

/-- The pattern with the given 32 bits. -/
def ofBits (bits : Nat) : Binary32 :=
  ⟨twoTo 31 ≤ bits, bits % twoTo 31⟩

/-- The text of a binary32 number, by the rules of binary64. -/
def text (number : Binary32) : String :=
  let infinityMagnitude := 0xFF * twoTo 23
  if infinityMagnitude < number.magnitude then
    "NaN"
  else
    let sign := if number.negative then "-" else ""
    if number.magnitude = infinityMagnitude then
      sign ++ "inf"
    else if number.magnitude = 0 then
      sign ++ "0"
    else
      let significand :=
        if number.magnitude < twoTo 23 then
          number.magnitude
        else
          twoTo 23 + number.magnitude % twoTo 23
      let exponent : Int := max (number.magnitude / twoTo 23 : Nat) 1 - 150
      let interval := Shortest.Interval.ofParts significand exponent (-149) 24
      sign ++ String.ofList interval.shortest.positional

end Binary32

end ItemTable
