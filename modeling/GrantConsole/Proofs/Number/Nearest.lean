import GrantConsole.Number.Decimal
import Mathlib.Algebra.Order.Field.Power
import Mathlib.Algebra.Order.Field.Rat
import Mathlib.Tactic.FieldSimp
import Mathlib.Tactic.Linarith
import Mathlib.Tactic.Ring

/-!
# Nearest binary numbers

The magnitude of a binary number is a rational number, a coefficient times a power of two. The
number nearest to a quotient has the coefficient that the quotient is rounded to at the unit of its
exponent, and it is not below a binary number that the quotient is not below.
-/

namespace GrantConsole.Number

/-! ## Powers of two -/

theorem cast_twoTo (n : Nat) : ((twoTo n : Nat) : ℚ) = 2 ^ n := by
  rw [twoTo, Nat.pow_eq, Nat.cast_pow, Nat.cast_ofNat]

theorem zpow_two_pos (e : Int) : (0 : ℚ) < 2 ^ e :=
  zpow_pos (by norm_num) e

/-- A power of two of any exponent, as a quotient of natural powers. -/
theorem zpow_two_eq_div (e : Int) :
    (2 : ℚ) ^ e = (twoTo e.toNat : Nat) / (twoTo (-e).toNat : Nat) := by
  rw [cast_twoTo, cast_twoTo]
  rcases Int.le_total 0 e with positive | negative
  · obtain ⟨n, rfl⟩ := Int.eq_ofNat_of_zero_le positive
    simp
  · obtain ⟨n, same⟩ := Int.eq_ofNat_of_zero_le (Int.neg_nonneg_of_nonpos negative)
    obtain rfl : e = -n := by omega
    simp

/-- A quotient scaled by a power of two, as the quotient of scaled numbers. -/
theorem div_mul_zpow_two (num den : Nat) (e : Int) :
    (num : ℚ) / den / 2 ^ e =
      (num * twoTo (-e).toNat : Nat) / (den * twoTo e.toNat : Nat) := by
  rw [zpow_two_eq_div, div_div_div_eq, Nat.cast_mul, Nat.cast_mul]

/-! ## Rounding -/

theorem le_roundHalfEven {m num den : Nat} (positive : 0 < den) (below : m * den ≤ num) :
    m ≤ roundHalfEven num den := by
  have floor : m ≤ num / den := (Nat.le_div_iff_mul_le positive).mpr below
  unfold roundHalfEven
  dsimp only
  split_ifs <;> omega

theorem roundHalfEven_le {m num den : Nat} (positive : 0 < den) (above : num ≤ m * den) :
    roundHalfEven num den ≤ m := by
  have floor : num / den ≤ m := Nat.div_le_of_le_mul (Nat.mul_comm m den ▸ above)
  unfold roundHalfEven
  dsimp only
  rcases Nat.lt_or_eq_of_le floor with less | same
  · split_ifs <;> omega
  · -- A quotient that is `m` leaves no rest.
    have restless : num % den = 0 := by
      have parts := Nat.div_add_mod num den
      rw [same, Nat.mul_comm] at parts
      omega
    rw [restless, if_pos positive, same]

/-! ## The exponent of a quotient -/

theorem floorLog2_spec {num den : Nat} (numPos : 0 < num) (denPos : 0 < den) :
    (2 : ℚ) ^ Binary64.floorLog2 num den ≤ num / den ∧
      (num : ℚ) / den < 2 ^ (Binary64.floorLog2 num den + 1) := by
  have two : (2 : ℚ) ≠ 0 := by norm_num
  have den' : (0 : ℚ) < den := Nat.cast_pos.mpr denPos
  have numLeast : (2 : ℚ) ^ (Nat.log2 num : Int) ≤ num := by
    exact_mod_cast Nat.log2_self_le numPos.ne'
  have numMost : (num : ℚ) < 2 ^ ((Nat.log2 num : Int) + 1) := by
    exact_mod_cast Nat.lt_log2_self (n := num)
  have denLeast : (2 : ℚ) ^ (Nat.log2 den : Int) ≤ den := by
    exact_mod_cast Nat.log2_self_le denPos.ne'
  have denMost : (den : ℚ) < 2 ^ ((Nat.log2 den : Int) + 1) := by
    exact_mod_cast Nat.lt_log2_self (n := den)
  unfold Binary64.floorLog2
  dsimp only
  generalize (Nat.log2 num : Int) = a at *
  generalize (Nat.log2 den : Int) = b at *
  have least : (2 : ℚ) ^ (a - b - 1) ≤ num / den := by
    rw [sub_sub, zpow_sub₀ two]
    exact div_le_div₀ (Nat.cast_nonneg num) numLeast den' denMost.le
  have most : (num : ℚ) / den < 2 ^ (a - b + 1) := by
    rw [show a - b + 1 = a + 1 - b by omega, zpow_sub₀ two]
    exact div_lt_div₀ numMost denLeast (zpow_two_pos _).le (zpow_two_pos _)
  have tested : den * twoTo (a - b).toNat ≤ num * twoTo (-(a - b)).toNat ↔
      (2 : ℚ) ^ (a - b) ≤ num / den := by
    rw [le_div_iff₀ den', zpow_two_eq_div, div_mul_eq_mul_div,
      div_le_iff₀ (by rw [cast_twoTo]; positivity)]
    rw [mul_comm (twoTo _ : ℚ)]
    exact_mod_cast Iff.rfl
  split_ifs with fits
  · exact ⟨tested.mp fits, most⟩
  · refine ⟨least, ?_⟩
    rw [sub_add_cancel]
    exact not_le.mp fun below => fits (tested.mpr below)

namespace Binary64

/-! ## Magnitudes -/

/-- The magnitude of a finite number. That of infinity is the power of two after the finite ones. -/
def value (x : Binary64) : ℚ :=
  x.coefficient * 2 ^ x.scale

theorem denominator_pos (x : Binary64) : 0 < x.denominator :=
  Nat.two_pow_pos _

theorem value_nonneg (x : Binary64) : 0 ≤ x.value :=
  mul_nonneg (Nat.cast_nonneg _) (zpow_two_pos _).le

theorem value_eq_div (x : Binary64) : x.value = x.numerator / x.denominator := by
  rw [value, zpow_two_eq_div, mul_div_assoc', numerator, Nat.cast_mul]
  rfl

theorem value_of_isZero {x : Binary64} (zero : x.isZero = true) : x.value = 0 := by
  obtain ⟨exponent, fraction⟩ := (Bool.and_eq_true _ _).mp zero
  rw [value, coefficient, if_pos (eq_of_beq exponent), eq_of_beq fraction, Nat.cast_zero, zero_mul]

theorem toNat_withSign (negative : Bool) {b : Nat} (small : b < 2 ^ 63) :
    (withSign negative b).bits.toNat = b + if negative then 2 ^ 63 else 0 := by
  have fits : b + (if negative then 2 ^ 63 else 0) < 2 ^ 64 := by
    split <;> omega
  exact Nat.mod_eq_of_lt fits

theorem signed_withSign (negative : Bool) {b : Nat} (small : b < 2 ^ 63) :
    (withSign negative b).signed = negative := by
  rw [signed, toNat_withSign negative small]
  cases negative with
  | false => exact decide_eq_false (Nat.not_le.mpr small)
  | true => exact decide_eq_true (Nat.le_add_left _ b)

theorem exponentBits_withSign (negative : Bool) {b : Nat} (small : b < 2 ^ 63) :
    (withSign negative b).exponentBits = b / 2 ^ 52 := by
  rw [exponentBits, toNat_withSign negative small]
  change (b + _) / 2 ^ 52 % 2 ^ 11 = _
  split <;> omega

theorem fraction_withSign (negative : Bool) {b : Nat} (small : b < 2 ^ 63) :
    (withSign negative b).fraction = b % 2 ^ 52 := by
  rw [fraction, toNat_withSign negative small]
  change (b + _) % 2 ^ 52 = _
  split <;> omega

theorem isFinite_withSign (negative : Bool) {b : Nat} (small : b < infinityBits) :
    (withSign negative b).isFinite = true := by
  have fits : b < 2 ^ 63 := Nat.lt_trans small (by decide)
  have bound : b < 2047 * 2 ^ 52 := small
  rw [isFinite, exponentBits_withSign negative fits, bne_iff_ne]
  omega

/-- A sign leaves the magnitude as it is. -/
theorem value_withSign (negative : Bool) {b : Nat} (small : b < 2 ^ 63) :
    (withSign negative b).value = (withSign false b).value := by
  simp only [value, coefficient, scale, exponentBits_withSign _ small, fraction_withSign _ small]

/-- The bits of a coefficient at a unit, the units counted from the smallest one. -/
theorem value_withSign_add (negative : Bool) {unit c : Nat}
    (inRange : unit * 2 ^ 52 + c ≤ infinityBits) (carry : c ≤ 2 ^ 53)
    (normal : unit = 0 ∨ 2 ^ 52 ≤ c) :
    (withSign negative (unit * 2 ^ 52 + c)).value = c * 2 ^ ((unit : Int) - 1074) := by
  have small : unit * 2 ^ 52 + c < 2 ^ 63 := Nat.lt_of_le_of_lt inRange (by decide)
  rw [value, coefficient, scale, exponentBits_withSign negative small,
    fraction_withSign negative small]
  rcases Nat.lt_or_ge c (2 ^ 52) with below | above
  · -- The smallest unit has no leading bit.
    obtain rfl : unit = 0 := by omega
    have exponent : (0 * 2 ^ 52 + c) / 2 ^ 52 = 0 := by omega
    have fraction : (0 * 2 ^ 52 + c) % 2 ^ 52 = c := by omega
    rw [exponent, fraction]
    rfl
  · rcases Nat.lt_or_eq_of_le carry with less | rfl
    · have exponent : (unit * 2 ^ 52 + c) / 2 ^ 52 = unit + 1 := by omega
      have fraction : (unit * 2 ^ 52 + c) % 2 ^ 52 = c - 2 ^ 52 := by omega
      have leading : twoTo 52 + (c - 2 ^ 52) = c := Nat.add_sub_of_le above
      have same : ((max (unit + 1) 1 : Nat) : Int) - 1075 = (unit : Int) - 1074 := by omega
      rw [exponent, fraction, if_neg unit.succ_ne_zero, leading, same]
    · -- The carry is the next power of two.
      have exponent : (unit * 2 ^ 52 + 2 ^ 53) / 2 ^ 52 = unit + 2 := by omega
      have fraction : (unit * 2 ^ 52 + 2 ^ 53) % 2 ^ 52 = 0 := by omega
      have next : ((max (unit + 2) 1 : Nat) : Int) - 1075 = (unit : Int) - 1074 + 1 := by omega
      rw [exponent, fraction, if_neg (by omega), next, zpow_add₀ (by norm_num)]
      rw [Nat.add_zero, cast_twoTo]
      push_cast
      ring

/-! ## The number nearest to a quotient -/

/-- The exponent of the unit that a quotient is rounded at. -/
def unitOf (num den : Nat) : Int :=
  max (floorLog2 num den - 52) (-1074)

/-- The quotient in units, rounded. -/
def coefficientOf (num den : Nat) : Nat :=
  roundHalfEven (num * twoTo (-unitOf num den).toNat) (den * twoTo (unitOf num den).toNat)

theorem nearestBits_eq {num : Nat} (positive : 0 < num) (den : Nat) :
    nearestBits num den =
      min ((unitOf num den + 1074).toNat * 2 ^ 52 + coefficientOf num den) infinityBits := by
  unfold nearestBits
  rw [if_neg positive.ne']
  rfl

theorem nearestBits_le (num den : Nat) : nearestBits num den ≤ infinityBits := by
  unfold nearestBits
  split
  · exact Nat.zero_le _
  · exact Nat.min_le_right _ _

/-- A rounded magnitude has no sign, and keeps its value when it is given one. -/
theorem value_withSign_ofRatio (negative : Bool) (num den : Nat) :
    (withSign negative (ofRatio false num den).bits.toNat).value = (ofRatio false num den).value := by
  have small : nearestBits num den < 2 ^ 63 :=
    Nat.lt_of_le_of_lt (nearestBits_le num den) (by decide)
  rw [ofRatio, toNat_withSign false small]
  exact value_withSign negative small

variable {num den : Nat}

theorem le_coefficientOf (positive : 0 < den) {m : Nat}
    (below : (m : ℚ) * 2 ^ unitOf num den ≤ num / den) : m ≤ coefficientOf num den := by
  have units : 0 < den * twoTo (unitOf num den).toNat :=
    Nat.mul_pos positive (Nat.two_pow_pos _)
  rw [← le_div_iff₀ (zpow_two_pos _), div_mul_zpow_two,
    le_div_iff₀ (Nat.cast_pos.mpr units)] at below
  exact le_roundHalfEven units (by exact_mod_cast below)

theorem coefficientOf_le (positive : 0 < den) {m : Nat}
    (above : (num : ℚ) / den ≤ m * 2 ^ unitOf num den) : coefficientOf num den ≤ m := by
  have units : 0 < den * twoTo (unitOf num den).toNat :=
    Nat.mul_pos positive (Nat.two_pow_pos _)
  rw [← div_le_iff₀ (zpow_two_pos _), div_mul_zpow_two,
    div_le_iff₀ (Nat.cast_pos.mpr units)] at above
  exact roundHalfEven_le units (by exact_mod_cast above)

theorem coefficientOf_carry (numPos : 0 < num) (denPos : 0 < den) :
    coefficientOf num den ≤ 2 ^ 53 := by
  apply coefficientOf_le denPos
  have room : floorLog2 num den + 1 ≤ 53 + unitOf num den := by
    unfold unitOf
    omega
  calc
    (num : ℚ) / den ≤ 2 ^ (floorLog2 num den + 1) := (floorLog2_spec numPos denPos).2.le
    _ ≤ 2 ^ (53 + unitOf num den) := zpow_le_zpow_right₀ (by norm_num) room
    _ = (2 ^ 53 : Nat) * 2 ^ unitOf num den := by
      rw [zpow_add₀ (by norm_num)]
      norm_num

/-- Above the smallest unit the coefficient has its leading bit. -/
theorem coefficientOf_normal (numPos : 0 < num) (denPos : 0 < den) :
    unitOf num den = -1074 ∨ 2 ^ 52 ≤ coefficientOf num den := by
  rcases Int.le_total (floorLog2 num den - 52) (-1074) with small | large
  · exact .inl (max_eq_right small)
  · have unit : floorLog2 num den = 52 + unitOf num den := by
      unfold unitOf
      omega
    refine .inr (le_coefficientOf denPos ?_)
    calc
      ((2 ^ 52 : Nat) : ℚ) * 2 ^ unitOf num den = 2 ^ (52 + unitOf num den) := by
        rw [zpow_add₀ (by norm_num)]
        norm_num
      _ ≤ num / den := unit ▸ (floorLog2_spec numPos denPos).1

/-- Within the finite range a quotient becomes its rounded coefficient at its unit. -/
theorem value_ofRatio (negative : Bool) (numPos : 0 < num) (denPos : 0 < den)
    (inRange : (unitOf num den + 1074).toNat * 2 ^ 52 + coefficientOf num den ≤ infinityBits) :
    (ofRatio negative num den).value = coefficientOf num den * 2 ^ unitOf num den := by
  have least : -1074 ≤ unitOf num den := le_max_right _ _
  have normal : (unitOf num den + 1074).toNat = 0 ∨ 2 ^ 52 ≤ coefficientOf num den :=
    (coefficientOf_normal numPos denPos).imp_left fun smallest => by omega
  have unit : (((unitOf num den + 1074).toNat : Nat) : Int) - 1074 = unitOf num den := by omega
  rw [ofRatio, nearestBits_eq numPos, Nat.min_eq_left inRange,
    value_withSign_add negative inRange (coefficientOf_carry numPos denPos) normal, unit]

theorem value_infinity (negative : Bool) :
    (withSign negative infinityBits).value = 2 ^ (1024 : Int) := by
  have bits : infinityBits = 2046 * 2 ^ 52 + 2 ^ 52 := by decide
  rw [bits, value_withSign_add negative (by decide) (by decide) (by decide)]
  calc
    ((2 ^ 52 : Nat) : ℚ) * 2 ^ (((2046 : Nat) : Int) - 1074) = 2 ^ (52 : Int) * 2 ^ (972 : Int) := by
      norm_num
    _ = 2 ^ (52 + 972 : Int) := (zpow_add₀ (by norm_num) _ _).symm

/-- Rounding does not fall below a binary number that the quotient is not below. -/
theorem le_value_ofRatio (negative : Bool) (numPos : 0 < num) (denPos : 0 < den) {c : Nat}
    {unit : Int} (carry : c ≤ 2 ^ 53) (least : -1074 ≤ unit) (most : unit ≤ 971)
    (below : (c : ℚ) * 2 ^ unit ≤ num / den) :
    (c : ℚ) * 2 ^ unit ≤ (ofRatio negative num den).value := by
  have carried : (c : ℚ) * 2 ^ unit ≤ 2 ^ (53 + unit) := by
    rw [zpow_add₀ (by norm_num)]
    exact mul_le_mul_of_nonneg_right (by exact_mod_cast carry) (zpow_two_pos _).le
  rcases Nat.le_total ((unitOf num den + 1074).toNat * 2 ^ 52 + coefficientOf num den)
    infinityBits with inRange | beyond
  · rw [value_ofRatio negative numPos denPos inRange]
    rcases Int.lt_or_le unit (unitOf num den) with fine | coarse
    · -- The bound is below the leading bit of the coefficient.
      have leading : 2 ^ 52 ≤ coefficientOf num den :=
        (coefficientOf_normal numPos denPos).resolve_left (by omega)
      calc
        (c : ℚ) * 2 ^ unit ≤ 2 ^ (53 + unit) := carried
        _ ≤ 2 ^ (52 + unitOf num den) := zpow_le_zpow_right₀ (by norm_num) (by omega)
        _ = (2 ^ 52 : Nat) * 2 ^ unitOf num den := by
          rw [zpow_add₀ (by norm_num)]
          norm_num
        _ ≤ coefficientOf num den * 2 ^ unitOf num den :=
          mul_le_mul_of_nonneg_right (Nat.cast_le.mpr leading) (zpow_two_pos _).le
    · -- The bound is a whole number of units.
      obtain ⟨k, steps⟩ := Int.eq_ofNat_of_zero_le (Int.sub_nonneg.mpr coarse)
      obtain rfl : unit = k + unitOf num den := by omega
      have units : (c : ℚ) * 2 ^ (k + unitOf num den) =
          ((c * 2 ^ k : Nat) : ℚ) * 2 ^ unitOf num den := by
        rw [zpow_add₀ (by norm_num)]
        push_cast
        rw [zpow_natCast, mul_assoc]
      rw [units] at below ⊢
      exact mul_le_mul_of_nonneg_right
        (Nat.cast_le.mpr (le_coefficientOf denPos below)) (zpow_two_pos _).le
  · rw [ofRatio, nearestBits_eq numPos, Nat.min_eq_right beyond, value_infinity]
    exact carried.trans (zpow_le_zpow_right₀ (by norm_num) (by omega))

/-- A product of magnitudes is not below the product of bounds of them. -/
theorem le_value_times {x y : Binary64} {c d : Nat} {u v : Int} (positive : 0 < c * d)
    (carry : c * d ≤ 2 ^ 53) (least : -1074 ≤ u + v) (most : u + v ≤ 971)
    (left : (c : ℚ) * 2 ^ u ≤ x.value) (right : (d : ℚ) * 2 ^ v ≤ y.value) :
    ((c * d : Nat) : ℚ) * 2 ^ (u + v) ≤ (x.times y).value := by
  have bounds : ((c * d : Nat) : ℚ) * 2 ^ (u + v) ≤ x.value * y.value := by
    calc
      ((c * d : Nat) : ℚ) * 2 ^ (u + v) = c * 2 ^ u * (d * 2 ^ v) := by
        rw [zpow_add₀ (by norm_num)]
        push_cast
        ring
      _ ≤ x.value * y.value :=
        mul_le_mul left right (mul_nonneg (Nat.cast_nonneg d) (zpow_two_pos v).le) x.value_nonneg
  have quotient : x.value * y.value =
      ((x.numerator * y.numerator : Nat) : ℚ) / (x.denominator * y.denominator : Nat) := by
    rw [value_eq_div, value_eq_div, div_mul_div_comm, Nat.cast_mul, Nat.cast_mul]
  have numPos : 0 < x.numerator * y.numerator := by
    apply Nat.pos_of_ne_zero
    intro zero
    rw [quotient, zero, Nat.cast_zero, zero_div] at bounds
    exact absurd bounds (not_le.mpr (mul_pos (Nat.cast_pos.mpr positive) (zpow_two_pos _)))
  have denPos : 0 < x.denominator * y.denominator :=
    Nat.mul_pos x.denominator_pos y.denominator_pos
  exact le_value_ofRatio false numPos denPos carry least most (bounds.trans_eq quotient)

end Binary64

end GrantConsole.Number
