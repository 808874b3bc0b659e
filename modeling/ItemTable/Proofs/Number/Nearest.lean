import ItemTable.Number.Numeral
import ItemTable.Proofs.Number.Rounding

/-!
# The binary64 number nearest to a decimal

What a numeral is rounded to depends on the number it denotes alone.  Rounding keeps the
order of numbers, except that it takes some different numbers to one; it does not where
both numbers are normal and have at most 15 significant digits.
-/

namespace ItemTable

namespace Binary64

/-- The signed magnitude of the binary64 number that is nearest to a number. -/
def nearest (number : ℚ) : Int :=
  number.num.sign * magnitudeOfRatio number.num.natAbs number.den

section

variable {number greater : ℚ}

@[simp]
theorem nearest_zero : nearest 0 = 0 :=
  rfl

@[simp]
theorem nearest_neg (number : ℚ) : nearest (-number) = -nearest number := by
  rw [nearest, nearest, Rat.neg_num, Rat.neg_den, Int.natAbs_neg, Int.sign_neg, Int.neg_mul]

/-- A positive number and the parts of any quotient that it is are rounded alike. -/
theorem nearest_of_pos (positive : 0 < number) :
    ∃ code, IsCode code number ∧ nearest number = (min code infinityMagnitude : Nat) := by
  have parts := Rat.num_pos.mpr positive
  rcases magnitudeOfRatio_eq (Int.natAbs_pos.mpr parts.ne') number.den_pos with
    ⟨code, isCode, magnitude⟩
  refine ⟨code, ?_, ?_⟩
  · rwa [Nat.cast_natAbs, abs_of_pos parts, Rat.num_div_den] at isCode
  · rw [nearest, magnitude, Int.sign_eq_one_of_pos parts, one_mul]

/-- The magnitude of a quotient is the same for all its parts. -/
theorem nearest_div
    (numerator : Nat)
    {denominator : Nat}
    (unit : 0 < denominator) :
    nearest ((numerator : ℚ) / denominator) = magnitudeOfRatio numerator denominator := by
  rcases numerator.eq_zero_or_pos with rfl | positive
  · rw [Nat.cast_zero, zero_div]
    rfl
  · have quotientPositive : (0 : ℚ) < (numerator : ℚ) / denominator :=
      div_pos (by exact_mod_cast positive) (by exact_mod_cast unit)
    rcases magnitudeOfRatio_eq positive unit with ⟨code, isCode, magnitude⟩
    rcases nearest_of_pos quotientPositive with ⟨other, otherCode, rounded⟩
    rw [rounded, magnitude, isCode.unique otherCode quotientPositive]

theorem nearest_nonneg (nonneg : 0 ≤ number) : 0 ≤ nearest number := by
  rcases nonneg.eq_or_lt with rfl | positive
  · rfl
  · rcases nearest_of_pos positive with ⟨code, -, magnitude⟩
    omega

theorem nearest_mono_of_pos
    (positive : 0 < number)
    (below : number ≤ greater) :
    nearest number ≤ nearest greater := by
  rcases nearest_of_pos positive with ⟨code, isCode, rounded⟩
  rcases nearest_of_pos (positive.trans_le below) with ⟨other, otherCode, otherRounded⟩
  have grows := isCode.mono otherCode positive below
  omega

/-- A greater number is never rounded to a lesser one. -/
theorem nearest_mono (below : number ≤ greater) : nearest number ≤ nearest greater := by
  rcases lt_trichotomy number 0 with negative | rfl | positive
  · rcases le_or_gt 0 greater with nonneg | otherNegative
    · have lower := nearest_nonneg (neg_nonneg.mpr negative.le)
      have upper := nearest_nonneg nonneg
      rw [nearest_neg] at lower
      omega
    · have mirrored := nearest_mono_of_pos (neg_pos.mpr otherNegative) (neg_le_neg below)
      rw [nearest_neg, nearest_neg] at mirrored
      omega
  · exact nearest_nonneg below
  · exact nearest_mono_of_pos positive below

end

/-! ## Numbers that are told apart -/

/-- Whether a number is zero or in the range of normal binary64 numbers. -/
def IsOrdinary (number : ℚ) : Prop :=
  number = 0 ∨ 2 ^ (-1022 : Int) ≤ |number| ∧ |number| < 2 ^ (1024 : Int)

/-- Whether the lesser one of two absolute values is less than `2 ^ 52` times the distance of
the numbers. -/
def AreApart (number other : ℚ) : Prop :=
  min |number| |other| < 2 ^ 52 * |other - number|

section

variable {number greater : ℚ}

theorem IsOrdinary.neg (ordinary : IsOrdinary number) : IsOrdinary (-number) := by
  rwa [IsOrdinary, neg_eq_zero, abs_neg]

theorem AreApart.symm (apart : AreApart number greater) : AreApart greater number := by
  rwa [AreApart, min_comm, abs_sub_comm]

theorem AreApart.neg (apart : AreApart number greater) : AreApart (-number) (-greater) := by
  rwa [AreApart, abs_neg, abs_neg, neg_sub_neg, abs_sub_comm]

theorem IsOrdinary.nearest_pos
    (ordinary : IsOrdinary number)
    (positive : 0 < number) :
    0 < nearest number := by
  rcases ordinary with zero | ⟨normal, -⟩
  · exact absurd zero positive.ne'
  · rw [abs_of_pos positive] at normal
    rcases nearest_of_pos positive with ⟨code, isCode, rounded⟩
    have codePositive := isCode.pos_of_normal normal
    have infinity := infinityMagnitude_eq
    omega

theorem nearest_strictMono_of_pos
    (ordinary : IsOrdinary number)
    (otherOrdinary : IsOrdinary greater)
    (positive : 0 < number)
    (less : number < greater)
    (apart : AreApart number greater) :
    nearest number < nearest greater := by
  have otherPositive := positive.trans less
  rw [AreApart, abs_of_pos positive, abs_of_pos otherPositive, min_eq_left less.le,
    abs_of_pos (sub_pos.mpr less)] at apart
  rcases ordinary with zero | ⟨normal, -⟩
  · exact absurd zero positive.ne'
  rcases otherOrdinary with zero | ⟨-, bounded⟩
  · exact absurd zero otherPositive.ne'
  rw [abs_of_pos positive] at normal
  rw [abs_of_pos otherPositive] at bounded
  rcases nearest_of_pos positive with ⟨code, isCode, rounded⟩
  rcases nearest_of_pos otherPositive with ⟨other, otherCode, otherRounded⟩
  have grows := isCode.strictMono otherCode normal apart
  have finite := otherCode.le_infinityMagnitude otherPositive bounded
  omega

/-- Rounding tells two ordinary numbers apart that differ by more than a unit in the last
place. -/
theorem nearest_strictMono
    (ordinary : IsOrdinary number)
    (otherOrdinary : IsOrdinary greater)
    (less : number < greater)
    (apart : AreApart number greater) :
    nearest number < nearest greater := by
  rcases lt_trichotomy number 0 with negative | rfl | positive
  · rcases le_or_gt 0 greater with nonneg | otherNegative
    · have lower := ordinary.neg.nearest_pos (neg_pos.mpr negative)
      have upper := nearest_nonneg nonneg
      rw [nearest_neg] at lower
      omega
    · have mirrored := nearest_strictMono_of_pos otherOrdinary.neg ordinary.neg
        (neg_pos.mpr otherNegative) (neg_lt_neg less) apart.neg.symm
      rw [nearest_neg, nearest_neg] at mirrored
      omega
  · exact otherOrdinary.nearest_pos less
  · exact nearest_strictMono_of_pos ordinary otherOrdinary positive less apart

end

/-- Whether a number is written with at most that many digits, before or behind the point or
a power of ten away. -/
def HasDigits (count : Nat) (number : ℚ) : Prop :=
  ∃ (digits exponent : Int), |digits| < 10 ^ count ∧ number = digits * 10 ^ exponent

/-- Different numbers of 15 digits are more than a unit in the last place apart. -/
theorem areApart_of_hasDigits
    {number other : ℚ}
    (short : HasDigits 15 number)
    (otherShort : HasDigits 15 other)
    (different : number ≠ other) :
    AreApart number other := by
  rcases short with ⟨digits, exponent, bounded, rfl⟩
  rcases otherShort with ⟨otherDigits, otherExponent, otherBounded, rfl⟩
  wlog least : exponent ≤ otherExponent generalizing digits exponent otherDigits otherExponent
  · exact (this otherDigits otherExponent otherBounded digits exponent bounded different.symm
      (Int.le_of_lt (Int.lt_of_not_ge least))).symm
  -- Both numbers are multiples of the lesser power of ten, so their distance is one too.
  have unit : (0 : ℚ) < 10 ^ exponent := by positivity
  have aligned : (10 : ℚ) ^ otherExponent =
      10 ^ (otherExponent - exponent).toNat * 10 ^ exponent := by
    rw [← zpow_natCast, ← zpow_add₀ (by norm_num), Int.toNat_of_nonneg (by omega),
      sub_add_cancel]
  have distance : otherDigits * (10 : ℚ) ^ otherExponent - digits * 10 ^ exponent =
      (otherDigits * 10 ^ (otherExponent - exponent).toNat - digits : Int) * 10 ^ exponent := by
    rw [aligned]
    push_cast
    ring
  have nonzero : otherDigits * 10 ^ (otherExponent - exponent).toNat - digits ≠ 0 := by
    intro zero
    rw [zero, Int.cast_zero, zero_mul, sub_eq_zero] at distance
    exact different distance.symm
  rw [AreApart, distance]
  generalize otherDigits * 10 ^ (otherExponent - exponent).toNat - digits = steps at nonzero
  have some : (1 : ℚ) ≤ |(steps : ℚ)| := by exact_mod_cast Int.one_le_abs nonzero
  have few : |(digits : ℚ)| < 10 ^ 15 := by exact_mod_cast bounded
  calc min |(digits : ℚ) * 10 ^ exponent| |otherDigits * (10 : ℚ) ^ otherExponent|
      ≤ |(digits : ℚ) * 10 ^ exponent| := min_le_left _ _
    _ = |(digits : ℚ)| * 10 ^ exponent := by rw [abs_mul, abs_of_pos unit]
    _ < 10 ^ 15 * 10 ^ exponent := by gcongr
    _ ≤ 2 ^ 52 * (|(steps : ℚ)| * 10 ^ exponent) := by
      rw [← mul_assoc]
      gcongr
      linarith
    _ = 2 ^ 52 * |(steps : ℚ) * 10 ^ exponent| := by rw [abs_mul, abs_of_pos unit]

/-- Rounding may take different numbers to one, but never reverses their order. -/
theorem compare_nearest_of_ne
    {number other : ℚ}
    (apart : compare (nearest number) (nearest other) ≠ .eq) :
    compare (nearest number) (nearest other) = compare number other := by
  rcases lt_trichotomy number other with less | rfl | greater
  · have below := nearest_mono less.le
    rw [ne_eq, compare_eq_iff_eq] at apart
    rw [compare_lt_iff_lt.mpr less, compare_lt_iff_lt]
    omega
  · exact absurd (compare_eq_iff_eq.mpr rfl) apart
  · have below := nearest_mono greater.le
    rw [ne_eq, compare_eq_iff_eq] at apart
    rw [compare_gt_iff_gt.mpr greater, compare_gt_iff_gt]
    omega

/-- Rounding keeps the order of ordinary numbers of 15 digits. -/
theorem compare_nearest_of_hasDigits
    {number other : ℚ}
    (ordinary : IsOrdinary number)
    (otherOrdinary : IsOrdinary other)
    (short : HasDigits 15 number)
    (otherShort : HasDigits 15 other) :
    compare (nearest number) (nearest other) = compare number other := by
  rcases lt_trichotomy number other with less | rfl | greater
  · rw [compare_lt_iff_lt.mpr less, compare_lt_iff_lt]
    exact nearest_strictMono ordinary otherOrdinary less
      (areApart_of_hasDigits short otherShort less.ne)
  · rw [compare_eq_iff_eq.mpr rfl, compare_eq_iff_eq.mpr rfl]
  · rw [compare_gt_iff_gt.mpr greater, compare_gt_iff_gt]
    exact nearest_strictMono otherOrdinary ordinary greater
      (areApart_of_hasDigits otherShort short greater.ne)

end Binary64

/-! ## Decimals -/

namespace Numeral

/-- What the parts of a decimal denote. -/
def decimalValue (negative : Bool) (coefficient : Nat) (exponent : Int) : ℚ :=
  (if negative then -1 else 1) * (coefficient * 10 ^ exponent)

theorem ten_zpow_le_of_toDigits
    {coefficient : Nat}
    (positive : 0 < coefficient) :
    (10 : ℚ) ^ (((Nat.toDigits 10 coefficient).length : Int) - 1) ≤ coefficient ∧
      (coefficient : ℚ) < 10 ^ ((Nat.toDigits 10 coefficient).length : Int) := by
  have nonempty : 0 < (Nat.toDigits 10 coefficient).length := Nat.length_toDigits_pos
  generalize long : (Nat.toDigits 10 coefficient).length = length at nonempty
  have bounds (limit : Nat) (some : 0 < limit) :=
    Nat.length_toDigits_le_iff (b := 10) (n := coefficient) (by decide) some
  rw [long] at bounds
  constructor
  · have lower : 10 ^ (length - 1) ≤ coefficient := by
      rcases Nat.eq_zero_or_pos (length - 1) with zero | some
      · rw [zero]
        exact positive
      · by_contra less
        have := (bounds (length - 1) some).mpr (Nat.lt_of_not_ge less)
        omega
    have cast : (length : Int) - 1 = (length - 1 : Nat) := by omega
    rw [cast, zpow_natCast]
    exact_mod_cast lower
  · rw [zpow_natCast]
    exact_mod_cast (bounds length nonempty).mp le_rfl

theorem two_pow_le_ten_pow
    {power other : Nat}
    (less : power ≤ 3 * other) :
    (2 : ℚ) ^ (power : Int) ≤ 10 ^ (other : Int) := by
  rw [zpow_natCast, zpow_natCast]
  calc (2 : ℚ) ^ power
      ≤ 2 ^ (3 * other) := pow_le_pow_right₀ one_le_two less
    _ = (2 ^ 3) ^ other := pow_mul _ _ _
    _ ≤ 10 ^ other := by
      gcongr
      norm_num

/-- A decimal is rounded to the number nearest to what it denotes. -/
theorem toBinary64_decimal
    (negative : Bool)
    (coefficient : Nat)
    (exponent : Int) :
    (decimal negative coefficient exponent).toBinary64 =
      ⟨negative, (Binary64.nearest (coefficient * 10 ^ exponent)).toNat⟩ := by
  rw [toBinary64]
  split
  · rename_i zero
    rw [zero, Nat.cast_zero, zero_mul]
    rfl
  rename_i nonzero
  have positive := Nat.pos_of_ne_zero nonzero
  rcases ten_zpow_le_of_toDigits positive with ⟨lower, upper⟩
  generalize ((Nat.toDigits 10 coefficient).length : Int) = length at lower upper
  have scale : (0 : ℚ) < 10 ^ exponent := by positivity
  have valuePositive : (0 : ℚ) < coefficient * 10 ^ exponent :=
    mul_pos (by exact_mod_cast positive) scale
  rcases Binary64.nearest_of_pos valuePositive with ⟨code, isCode, rounded⟩
  have unit : (10 : ℚ) ≠ 0 := by norm_num
  split
  · rename_i large
    have huge : (2 : ℚ) ^ (1024 : Int) ≤ coefficient * 10 ^ exponent := by
      calc (2 : ℚ) ^ (1024 : Int)
          ≤ 10 ^ (400 : Int) := two_pow_le_ten_pow (by decide)
        _ ≤ 10 ^ (length - 1 + exponent) := zpow_le_zpow_right₀ (by norm_num) (by omega)
        _ = 10 ^ (length - 1) * 10 ^ exponent := zpow_add₀ unit _ _
        _ ≤ coefficient * 10 ^ exponent := by gcongr
    have saturates := isCode.ge_infinityMagnitude huge
    rw [rounded, Int.toNat_natCast, Nat.min_eq_right saturates]
    rfl
  split
  · rename_i small
    have tiny : coefficient * (10 : ℚ) ^ exponent ≤ 2 ^ (-1075 : Int) := by
      calc coefficient * (10 : ℚ) ^ exponent
          ≤ 10 ^ length * 10 ^ exponent := by gcongr
        _ = 10 ^ (length + exponent) := (zpow_add₀ unit _ _).symm
        _ ≤ 10 ^ (-400 : Int) := zpow_le_zpow_right₀ (by norm_num) (by omega)
        _ ≤ 2 ^ (-1075 : Int) := by
          rw [zpow_neg, zpow_neg]
          exact inv_anti₀ (by positivity) (two_pow_le_ten_pow (by decide))
    rw [rounded, isCode.eq_zero_of_tiny valuePositive tiny]
    rfl
  have tens (power : Nat) : (tenTo power : ℚ) = 10 ^ power := by
    rw [tenTo, Nat.pow_eq, Nat.cast_pow, Nat.cast_ofNat]
  split
  · rename_i nonneg
    have quotient := Binary64.nearest_div (coefficient * tenTo exponent.toNat) Nat.one_pos
    rw [Nat.cast_mul, tens, ← zpow_natCast, Int.toNat_of_nonneg nonneg, Nat.cast_one,
      div_one] at quotient
    rw [quotient]
    rfl
  · rename_i below
    have quotient := Binary64.nearest_div coefficient
      (Nat.pow_pos (n := (-exponent).toNat) (by decide : 0 < 10))
    rw [Nat.cast_pow, Nat.cast_ofNat, ← zpow_natCast, Int.toNat_of_nonneg (by omega), zpow_neg,
      div_inv_eq_mul] at quotient
    rw [quotient]
    rfl

theorem signed_toBinary64
    (negative : Bool)
    (coefficient : Nat)
    (exponent : Int) :
    (decimal negative coefficient exponent).toBinary64.signed =
      Binary64.nearest (decimalValue negative coefficient exponent) := by
  have nonneg : 0 ≤ Binary64.nearest (coefficient * 10 ^ exponent) :=
    Binary64.nearest_nonneg (by positivity)
  rw [toBinary64_decimal, Binary64.signed, decimalValue]
  cases negative
  · simpa using nonneg
  · simpa using nonneg

end Numeral

end ItemTable
