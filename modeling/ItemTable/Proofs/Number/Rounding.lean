import ItemTable.Number.Binary64
import Mathlib.Algebra.Order.Field.Basic
import Mathlib.Algebra.Order.Field.Power
import Mathlib.Algebra.Order.Floor.Semifield
import Mathlib.Data.Int.Log
import Mathlib.Data.Rat.Cast.Order
import Mathlib.Data.Rat.Floor
import Mathlib.Tactic.FieldSimp
import Mathlib.Tactic.GCongr
import Mathlib.Tactic.Linarith
import Mathlib.Tactic.NormNum
import Mathlib.Tactic.Positivity
import Mathlib.Tactic.Ring

/-!
# Rounding to binary64

The magnitude of a quotient depends on the quotient alone: its significand is the quotient
in units of the last place of its binade, rounded to the nearest natural number.  So the
magnitude grows with the quotient, and it grows strictly from one number to another that
is greater by more than one part in `2 ^ 52`, as long as both are in the range of normal
numbers.
-/

namespace ItemTable

theorem twoTo_eq (exponent : Nat) : twoTo exponent = 2 ^ exponent :=
  rfl

theorem cast_twoTo (exponent : Nat) : (twoTo exponent : ℚ) = 2 ^ exponent := by
  rw [twoTo_eq, Nat.cast_pow, Nat.cast_ofNat]

theorem two_zpow_of_nonneg
    {exponent : Int}
    (nonneg : 0 ≤ exponent) :
    (2 : ℚ) ^ exponent = twoTo exponent.toNat := by
  rw [cast_twoTo, ← zpow_natCast, Int.toNat_of_nonneg nonneg]

theorem two_zpow_of_nonpos
    {exponent : Int}
    (nonpos : exponent ≤ 0) :
    (2 : ℚ) ^ exponent = (twoTo (-exponent).toNat : ℚ)⁻¹ := by
  rw [cast_twoTo, ← zpow_natCast, Int.toNat_of_nonneg (by omega), zpow_neg, inv_inv]

namespace Binary64

/-! ## Nearest natural numbers -/

/-- Whether a natural number is nearest to a quantity, and even if another is as near. -/
structure IsNearest (number : Nat) (quantity : ℚ) : Prop where
  close : |(number : ℚ) - quantity| ≤ 1 / 2
  even : |(number : ℚ) - quantity| = 1 / 2 → Even number

section

variable {number other : Nat} {quantity greater : ℚ}

theorem isNearest_self (number : Nat) : IsNearest number number where
  close := by norm_num
  even half := by norm_num at half

theorem IsNearest.mono
    (nearest : IsNearest number quantity)
    (otherNearest : IsNearest other greater)
    (below : quantity ≤ greater) :
    number ≤ other := by
  by_contra exceeds
  have next : (other : ℚ) + 1 ≤ number := by exact_mod_cast Nat.lt_of_not_le exceeds
  rcases abs_le.mp nearest.close with ⟨-, upper⟩
  rcases abs_le.mp otherNearest.close with ⟨lower, -⟩
  -- Both are half a unit away from one quantity, on either side of it, and both are even.
  have half : (number : ℚ) - quantity = 1 / 2 := by linarith
  have otherHalf : (other : ℚ) - greater = -(1 / 2) := by linarith
  have isEven : Even number := nearest.even (by rw [half]; norm_num)
  have otherEven : Even other := otherNearest.even (by rw [otherHalf]; norm_num)
  have adjacent : number = other + 1 := by
    have equal : (number : ℚ) = other + 1 := by linarith
    exact_mod_cast equal
  rw [adjacent, Nat.even_add_one] at isEven
  exact isEven otherEven

theorem IsNearest.unique
    (nearest : IsNearest number quantity)
    (otherNearest : IsNearest other quantity) :
    number = other :=
  Nat.le_antisymm (nearest.mono otherNearest le_rfl) (otherNearest.mono nearest le_rfl)

theorem IsNearest.lt_of_add_one_lt
    (nearest : IsNearest number quantity)
    (otherNearest : IsNearest other greater)
    (apart : quantity + 1 < greater) :
    number < other := by
  rcases abs_le.mp nearest.close with ⟨-, upper⟩
  rcases abs_le.mp otherNearest.close with ⟨lower, -⟩
  have less : (number : ℚ) < other := by linarith
  exact_mod_cast less

theorem IsNearest.le_of_le
    (nearest : IsNearest number quantity)
    {bound : Nat}
    (below : quantity ≤ bound) :
    number ≤ bound :=
  nearest.mono (isNearest_self bound) below

theorem IsNearest.ge_of_ge
    (nearest : IsNearest number quantity)
    {bound : Nat}
    (above : (bound : ℚ) ≤ quantity) :
    bound ≤ number :=
  (isNearest_self bound).mono nearest above

end

theorem roundHalfEven_isNearest
    (numerator : Nat)
    {denominator : Nat}
    (positive : 0 < denominator) :
    IsNearest (roundHalfEven numerator denominator) ((numerator : ℚ) / denominator) := by
  have unit : (0 : ℚ) < denominator := by exact_mod_cast positive
  have parts : (numerator : ℚ) =
      denominator * (numerator / denominator : Nat) + (numerator % denominator : Nat) := by
    exact_mod_cast (Nat.div_add_mod numerator denominator).symm
  have less : ((numerator % denominator : Nat) : ℚ) < denominator := by
    exact_mod_cast Nat.mod_lt numerator positive
  have nonneg : (0 : ℚ) ≤ (numerator % denominator : Nat) := Nat.cast_nonneg _
  rw [roundHalfEven]
  generalize numerator / denominator = quotient at parts ⊢
  generalize numerator % denominator = remainder at parts less nonneg ⊢
  have quantity : (numerator : ℚ) / denominator = quotient + remainder / denominator := by
    rw [parts]
    field_simp
  rw [quantity]
  have fraction : (remainder : ℚ) / denominator < 1 := (div_lt_one unit).mpr less
  have fractionNonneg : (0 : ℚ) ≤ remainder / denominator := by positivity
  have atLeastHalf : (1 : ℚ) / 2 ≤ remainder / denominator ↔ denominator ≤ 2 * remainder := by
    rw [div_le_div_iff₀ two_pos unit, one_mul, mul_comm]
    exact_mod_cast Iff.rfl
  have atMostHalf : (remainder : ℚ) / denominator ≤ 1 / 2 ↔ 2 * remainder ≤ denominator := by
    rw [div_le_div_iff₀ unit two_pos, one_mul, mul_comm]
    exact_mod_cast Iff.rfl
  split
  · rename_i up
    have half := atLeastHalf.mpr (by omega)
    constructor
    · rw [abs_le]
      push_cast
      constructor <;> linarith
    · intro tie
      rw [abs_of_nonneg (by push_cast; linarith)] at tie
      push_cast at tie
      have exactly := atMostHalf.mp (by linarith)
      rw [Nat.even_iff]
      omega
  · rename_i down
    have half := atMostHalf.mpr (by omega)
    constructor
    · rw [abs_le]
      constructor <;> linarith
    · intro tie
      rw [abs_of_nonpos (by linarith)] at tie
      have exactly := atLeastHalf.mp (by linarith)
      rw [Nat.even_iff]
      omega

/-! ## Binades -/

/-- A quotient is between the powers of two around that of its parts' difference. -/
theorem log_quotient
    {numerator denominator : Nat}
    (positive : 0 < numerator)
    (unit : 0 < denominator) :
    (2 : ℚ) ^ ((numerator.log2 : Int) - denominator.log2 - 1) < numerator / denominator ∧
      (numerator : ℚ) / denominator <
        (2 : ℚ) ^ ((numerator.log2 : Int) - denominator.log2 + 1) := by
  have above : (2 : ℚ) ^ numerator.log2 ≤ numerator := by
    exact_mod_cast Nat.log2_self_le (by omega)
  have below : (numerator : ℚ) < 2 ^ (numerator.log2 + 1) := by
    exact_mod_cast Nat.lt_log2_self
  have unitAbove : (2 : ℚ) ^ denominator.log2 ≤ denominator := by
    exact_mod_cast Nat.log2_self_le (by omega)
  have unitBelow : (denominator : ℚ) < 2 ^ (denominator.log2 + 1) := by
    exact_mod_cast Nat.lt_log2_self
  have unitPositive : (0 : ℚ) < denominator := by exact_mod_cast unit
  have lower : (2 : ℚ) ^ ((numerator.log2 : Int) - denominator.log2 - 1) =
      2 ^ numerator.log2 / 2 ^ (denominator.log2 + 1) := by
    rw [sub_sub, zpow_sub₀ two_ne_zero, zpow_natCast]
    norm_cast
  have upper : (2 : ℚ) ^ ((numerator.log2 : Int) - denominator.log2 + 1) =
      2 ^ (numerator.log2 + 1) / 2 ^ denominator.log2 := by
    rw [sub_add_eq_add_sub, zpow_sub₀ two_ne_zero, zpow_natCast]
    norm_cast
  rw [lower, upper]
  constructor
  · rw [div_lt_div_iff₀ (by positivity) unitPositive]
    calc (2 : ℚ) ^ numerator.log2 * denominator
        ≤ numerator * denominator := by gcongr
      _ < numerator * 2 ^ (denominator.log2 + 1) := by gcongr
  · rw [div_lt_div_iff₀ unitPositive (by positivity)]
    calc (numerator : ℚ) * 2 ^ denominator.log2
        ≤ numerator * denominator := by gcongr
      _ < 2 ^ (numerator.log2 + 1) * denominator := by gcongr

theorem floorLog2_eq
    {numerator denominator : Nat}
    (positive : 0 < numerator)
    (unit : 0 < denominator) :
    floorLog2 numerator denominator = Int.log 2 ((numerator : ℚ) / denominator) := by
  rcases log_quotient positive unit with ⟨lower, upper⟩
  have unitPositive : (0 : ℚ) < denominator := by exact_mod_cast unit
  have quotientPositive : (0 : ℚ) < (numerator : ℚ) / denominator := by positivity
  rw [floorLog2]
  generalize estimated : (numerator.log2 : Int) - denominator.log2 = estimate at lower upper
  have reached :
      (if 0 ≤ estimate then
        denominator * twoTo estimate.toNat ≤ numerator
      else
        denominator ≤ numerator * twoTo (-estimate).toNat) ↔
        (2 : ℚ) ^ estimate ≤ numerator / denominator := by
    rw [le_div_iff₀ unitPositive]
    split
    · rename_i nonneg
      rw [two_zpow_of_nonneg nonneg, mul_comm]
      exact_mod_cast Iff.rfl
    · rename_i negative
      have scale : (0 : ℚ) < twoTo (-estimate).toNat := by
        rw [cast_twoTo]
        positivity
      rw [two_zpow_of_nonpos (by omega), ← div_eq_inv_mul, div_le_iff₀ scale]
      exact_mod_cast Iff.rfl
  have logBelow := (Int.lt_zpow_iff_log_lt (b := 2) (by decide) quotientPositive).mp upper
  have logAbove := (Int.zpow_le_iff_le_log (b := 2) (by decide) quotientPositive).mp lower.le
  have exactly := Int.zpow_le_iff_le_log (b := 2) (x := estimate) (by decide) quotientPositive
  simp only [reached]
  split
  · rename_i there
    have := exactly.mp there
    omega
  · rename_i short
    have := mt exactly.mpr short
    omega

/-- The exponent of the unit in the last place of a positive quantity. -/
def unitExponent (quantity : ℚ) : Int :=
  max (Int.log 2 quantity - 52) (-1074)

/-- A positive quantity in units of its last place. -/
def inUnits (quantity : ℚ) : ℚ :=
  quantity / 2 ^ unitExponent quantity

section

variable {quantity greater : ℚ}

theorem unitExponent_mono
    (positive : 0 < quantity)
    (below : quantity ≤ greater) :
    unitExponent quantity ≤ unitExponent greater :=
  max_le_max_right _ (sub_le_sub_right (Int.log_mono_right positive below) _)

theorem unitExponent_of_normal (normal : 2 ^ (-1022 : Int) ≤ quantity) :
    unitExponent quantity = Int.log 2 quantity - 52 := by
  have positive : 0 < quantity := lt_of_lt_of_le (by positivity) normal
  have exponent : -1022 ≤ Int.log 2 quantity :=
    (Int.zpow_le_iff_le_log (by decide) positive).mp normal
  rw [unitExponent]
  omega

/-- A quantity in a binade above another is no subnormal one. -/
theorem unitExponent_of_lt (less : unitExponent quantity < unitExponent greater) :
    unitExponent greater = Int.log 2 greater - 52 := by
  unfold unitExponent at less ⊢
  omega

theorem inUnits_lt (quantity : ℚ) : inUnits quantity < 2 ^ 53 := by
  have inBinade : quantity < 2 ^ (Int.log 2 quantity + 1) := Int.lt_zpow_succ_log_self (by decide) _
  rw [inUnits, div_lt_iff₀ (by positivity)]
  refine inBinade.trans_le ?_
  have shifted : (2 : ℚ) ^ 53 * 2 ^ unitExponent quantity = 2 ^ (53 + unitExponent quantity) := by
    rw [zpow_add₀ two_ne_zero]
    norm_cast
  rw [shifted]
  refine zpow_le_zpow_right₀ one_le_two ?_
  rw [unitExponent]
  omega

theorem le_inUnits
    (positive : 0 < quantity)
    (normal : unitExponent quantity = Int.log 2 quantity - 52) :
    2 ^ 52 ≤ inUnits quantity := by
  have inBinade : (2 : ℚ) ^ Int.log 2 quantity ≤ quantity :=
    Int.zpow_log_le_self (by decide) positive
  rw [inUnits, le_div_iff₀ (by positivity), normal]
  refine le_of_eq_of_le ?_ inBinade
  rw [zpow_sub₀ two_ne_zero]
  field_simp

end

/-! ## Codes -/

/-- Whether a number is the magnitude of what is nearest to a positive quantity, if there
is no greatest magnitude. -/
def IsCode (code : Nat) (quantity : ℚ) : Prop :=
  ∃ significand,
    IsNearest significand (inUnits quantity) ∧
      code = (unitExponent quantity + 1074).toNat * 2 ^ 52 + significand

section

variable {code other : Nat} {quantity greater : ℚ}

theorem IsCode.le_next
    (isCode : IsCode code quantity) :
    code ≤ ((unitExponent quantity + 1074).toNat + 2) * 2 ^ 52 := by
  rcases isCode with ⟨significand, nearest, rfl⟩
  have bounded : significand ≤ 2 ^ 53 :=
    nearest.le_of_le (by exact_mod_cast (inUnits_lt quantity).le)
  omega

theorem IsCode.ge_of_normal
    (isCode : IsCode code quantity)
    (positive : 0 < quantity)
    (normal : unitExponent quantity = Int.log 2 quantity - 52) :
    ((unitExponent quantity + 1074).toNat + 1) * 2 ^ 52 ≤ code := by
  rcases isCode with ⟨significand, nearest, rfl⟩
  have bounded : 2 ^ 52 ≤ significand :=
    nearest.ge_of_ge (by exact_mod_cast le_inUnits positive normal)
  omega

theorem IsCode.mono
    (isCode : IsCode code quantity)
    (otherCode : IsCode other greater)
    (positive : 0 < quantity)
    (below : quantity ≤ greater) :
    code ≤ other := by
  have units := unitExponent_mono positive below
  rcases units.lt_or_eq with less | equal
  · -- A significand of the lower binade reaches at most the least code of the next one.
    have normal := unitExponent_of_lt less
    have lowest : -1074 ≤ unitExponent quantity := le_max_right _ _
    have upper := isCode.le_next
    have next := otherCode.ge_of_normal (positive.trans_le below) normal
    omega
  · rcases isCode with ⟨significand, nearest, rfl⟩
    rcases otherCode with ⟨otherSignificand, otherNearest, rfl⟩
    have ordered : significand ≤ otherSignificand := by
      refine nearest.mono otherNearest ?_
      rw [inUnits, inUnits, equal]
      gcongr
    rw [equal]
    omega

theorem IsCode.unique
    (isCode : IsCode code quantity)
    (otherCode : IsCode other quantity)
    (positive : 0 < quantity) :
    code = other :=
  Nat.le_antisymm (isCode.mono otherCode positive le_rfl) (otherCode.mono isCode positive le_rfl)

/-- Normal numbers that are further apart than a unit in the last place have different
codes. -/
theorem IsCode.strictMono
    (isCode : IsCode code quantity)
    (otherCode : IsCode other greater)
    (normal : 2 ^ (-1022 : Int) ≤ quantity)
    (apart : quantity < 2 ^ 52 * (greater - quantity)) :
    code < other := by
  have positive : 0 < quantity := lt_of_lt_of_le (by positivity) normal
  have below : quantity ≤ greater := by linarith
  have units := unitExponent_mono positive below
  have unit : (0 : ℚ) < 2 ^ unitExponent quantity := by positivity
  -- The distance, in units of the last place of the lesser quantity, exceeds one unit.
  have apartInUnits : inUnits quantity <
      2 ^ 52 * (greater / 2 ^ unitExponent quantity - inUnits quantity) := by
    rw [inUnits, ← sub_div, ← mul_div_assoc]
    gcongr
  rcases isCode with ⟨significand, nearest, rfl⟩
  rcases otherCode with ⟨otherSignificand, otherNearest, rfl⟩
  rcases units.lt_or_eq with less | equal
  · have otherNormal := unitExponent_of_lt less
    have lowest : -1074 ≤ unitExponent quantity := le_max_right _ _
    have bounded : significand ≤ 2 ^ 53 :=
      nearest.le_of_le (by exact_mod_cast (inUnits_lt quantity).le)
    have otherBounded : 2 ^ 52 ≤ otherSignificand :=
      otherNearest.ge_of_ge
        (by exact_mod_cast le_inUnits (positive.trans_le below) otherNormal)
    by_contra reaches
    -- Only the code between two neighbouring binades could be that of both.
    have neighbours : unitExponent greater = unitExponent quantity + 1 := by omega
    have atTop : significand = 2 ^ 53 := by omega
    have atBottom : otherSignificand = 2 ^ 52 := by omega
    have halved : inUnits greater = greater / 2 ^ unitExponent quantity / 2 := by
      rw [inUnits, neighbours, zpow_add_one₀ two_ne_zero, div_div]
    rcases abs_le.mp nearest.close with ⟨-, upper⟩
    rcases abs_le.mp otherNearest.close with ⟨lower, -⟩
    rw [atTop] at upper
    rw [atBottom, halved] at lower
    push_cast at upper lower
    linarith
  · have large := le_inUnits positive (unitExponent_of_normal normal)
    have ordered : significand < otherSignificand := by
      refine nearest.lt_of_add_one_lt otherNearest ?_
      rw [equal] at apartInUnits
      rw [inUnits.eq_def greater]
      linarith
    rw [equal]
    omega

theorem infinityMagnitude_eq : infinityMagnitude = 2047 * 2 ^ 52 :=
  rfl

/-- Below `2 ^ 1024` no code is greater than the one of infinity. -/
theorem IsCode.le_infinityMagnitude
    (isCode : IsCode code quantity)
    (positive : 0 < quantity)
    (bounded : quantity < 2 ^ (1024 : Int)) :
    code ≤ infinityMagnitude := by
  have exponent : Int.log 2 quantity < 1024 :=
    (Int.lt_zpow_iff_log_lt (by decide) positive).mp bounded
  have upper := isCode.le_next
  have limit : unitExponent quantity ≤ 971 := by
    rw [unitExponent]
    omega
  have infinity := infinityMagnitude_eq
  omega

theorem IsCode.ge_infinityMagnitude
    (isCode : IsCode code quantity)
    (large : 2 ^ (1024 : Int) ≤ quantity) :
    infinityMagnitude ≤ code := by
  have positive : 0 < quantity := lt_of_lt_of_le (by positivity) large
  have exponent : 1024 ≤ Int.log 2 quantity :=
    (Int.zpow_le_iff_le_log (by decide) positive).mp large
  have normal : 2 ^ (-1022 : Int) ≤ quantity :=
    (zpow_le_zpow_right₀ one_le_two (by decide)).trans large
  have lower := isCode.ge_of_normal positive (unitExponent_of_normal normal)
  rw [unitExponent_of_normal normal] at lower
  have infinity := infinityMagnitude_eq
  omega

theorem IsCode.pos_of_normal
    (isCode : IsCode code quantity)
    (normal : 2 ^ (-1022 : Int) ≤ quantity) :
    0 < code := by
  have positive : 0 < quantity := lt_of_lt_of_le (by positivity) normal
  have lower := isCode.ge_of_normal positive (unitExponent_of_normal normal)
  omega

theorem IsCode.eq_zero_of_tiny
    (isCode : IsCode code quantity)
    (positive : 0 < quantity)
    (tiny : quantity ≤ 2 ^ (-1075 : Int)) :
    code = 0 := by
  have exponent : Int.log 2 quantity < -1074 := by
    refine (Int.lt_zpow_iff_log_lt (by decide) positive).mp (tiny.trans_lt ?_)
    exact zpow_lt_zpow_right₀ one_lt_two (by decide)
  have least : unitExponent quantity = -1074 := by
    rw [unitExponent]
    omega
  rcases isCode with ⟨significand, nearest, rfl⟩
  have half : inUnits quantity ≤ 1 / 2 := by
    rw [inUnits, least, div_le_iff₀ (by positivity)]
    refine tiny.trans_eq ?_
    rw [show (-1075 : Int) = -1 + -1074 by decide, zpow_add₀ two_ne_zero, zpow_neg_one, one_div]
  have nonneg : 0 ≤ inUnits quantity := by
    rw [inUnits]
    positivity
  have zero : IsNearest 0 (inUnits quantity) :=
    { close := by rwa [Nat.cast_zero, zero_sub, abs_neg, abs_of_nonneg nonneg]
      even := fun _ => ⟨0, rfl⟩ }
  rw [nearest.unique zero, least]
  rfl

/-! ## Magnitudes -/

/-- The magnitude of a quotient is its code, or that of infinity if it is less. -/
theorem magnitudeOfRatio_eq
    {numerator denominator : Nat}
    (positive : 0 < numerator)
    (unit : 0 < denominator) :
    ∃ code,
      IsCode code ((numerator : ℚ) / denominator) ∧
        magnitudeOfRatio numerator denominator = min code infinityMagnitude := by
  rw [magnitudeOfRatio, if_neg positive.ne']
  dsimp only
  rw [floorLog2_eq positive unit, ← unitExponent]
  refine ⟨_, ⟨_, ?_, rfl⟩, rfl⟩
  have scale (exponent : Nat) : 0 < twoTo exponent := Nat.two_pow_pos exponent
  split
  · rename_i nonneg
    have nearest := roundHalfEven_isNearest numerator (Nat.mul_pos unit (scale
      (unitExponent ((numerator : ℚ) / denominator)).toNat))
    rwa [Nat.cast_mul, ← div_div, ← two_zpow_of_nonneg nonneg] at nearest
  · rename_i negative
    have nearest := roundHalfEven_isNearest
      (numerator * twoTo (-unitExponent ((numerator : ℚ) / denominator)).toNat) unit
    rwa [Nat.cast_mul, mul_div_right_comm, ← div_inv_eq_mul,
      ← two_zpow_of_nonpos (by omega)] at nearest

end

end Binary64

end ItemTable
