/-!
# Powers and totals

Powers of two and of ten, sums, and the range of 32-bit integers.
-/

namespace ItemTable

/-- A power of two. -/
def twoTo (exponent : Nat) : Nat :=
  Nat.pow 2 exponent

/-- A power of ten. -/
def tenTo (exponent : Nat) : Nat :=
  Nat.pow 10 exponent

/-- The sum of some numbers. -/
def total : List Nat → Nat
  | [] => 0
  | number :: numbers => number + total numbers

/-- The largest integer of 32 bits. -/
def largestInt32 : Nat :=
  2147483647

/-- Whether an integer has 32 bits. -/
def isInt32 (value : Int) : Bool :=
  -2147483648 ≤ value && value ≤ largestInt32

end ItemTable
