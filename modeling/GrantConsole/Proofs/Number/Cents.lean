import GrantConsole.Number.Layout
import GrantConsole.Proofs.Number.Exact
import Mathlib.Algebra.Order.Ring.Abs

/-!
# Amounts in hundredths

The hundredths of an amount are the whole number nearest to a hundred times its exact magnitude,
the even one of two that are equally near. The number nearest to so many hundredths is finite again.
-/

namespace GrantConsole.Number

/-- The whole number is nearest to the rational one; of two that are, it is the even one. -/
structure NearestWhole (q : ℚ) (n : Int) : Prop where
  near : |q - n| ≤ 1 / 2
  even : |q - n| = 1 / 2 → n % 2 = 0

namespace NearestWhole

variable {q : ℚ} {m n : Int}

theorem of_closer (close : |q - n| < 1 / 2) : NearestWhole q n :=
  ⟨close.le, fun tie => absurd tie close.ne⟩

/-- Two nearest whole numbers would be neighbours, and both even. -/
theorem unique (left : NearestWhole q m) (right : NearestWhole q n) : m = n := by
  by_contra different
  have apart : (1 : ℚ) ≤ |(m : ℚ) - n| := by
    exact_mod_cast Int.one_le_abs (sub_ne_zero.mpr different)
  have between : |(m : ℚ) - n| ≤ |q - m| + |q - n| := by
    rw [abs_sub_comm q m]
    exact abs_sub_le (m : ℚ) q n
  have nearLeft := left.near
  have nearRight := right.near
  have evenLeft := left.even (by linarith)
  have evenRight := right.even (by linarith)
  have neighbours : |m - n| ≤ 1 := by
    have close : |(m : ℚ) - n| ≤ 1 := by linarith
    exact_mod_cast close
  have bounds := abs_le.mp neighbours
  omega

theorem neg (nearest : NearestWhole q n) : NearestWhole (-q) (-n) := by
  have mirrored : |(-q) - ((-n : Int) : ℚ)| = |q - n| := by
    rw [Int.cast_neg, ← neg_sub', abs_neg]
  refine ⟨mirrored ▸ nearest.near, fun tie => ?_⟩
  have even := nearest.even (mirrored ▸ tie)
  omega

theorem nonneg (nearest : NearestWhole q n) (positive : 0 ≤ q) : 0 ≤ n := by
  have bounds := abs_le.mp nearest.near
  have above : (-1 : ℚ) < n := by linarith
  have least : -1 < n := by exact_mod_cast above
  omega

end NearestWhole

theorem nearestWhole_roundHalfEven (num : Nat) {den : Nat} (positive : 0 < den) :
    NearestWhole (num / den) (roundHalfEven num den : Nat) := by
  have den' : (0 : ℚ) < den := Nat.cast_pos.mpr positive
  have parts := Nat.div_add_mod num den
  have less := Nat.mod_lt num positive
  unfold roundHalfEven
  dsimp only
  generalize num / den = floor at *
  generalize num % den = rest at *
  -- How far the quotient is from its floor and from the number after it.
  have above : (num : ℚ) / den - ((floor : Nat) : Int) = rest / den := by
    rw [← parts]
    push_cast
    field_simp
    ring
  have next : (num : ℚ) / den - ((floor + 1 : Nat) : Int) = rest / den - 1 := by
    rw [← above]
    push_cast
    ring
  have least : 0 ≤ (rest : ℚ) / den := div_nonneg (Nat.cast_nonneg _) den'.le
  have most : (rest : ℚ) / den < 1 := by
    rw [div_lt_iff₀ den', one_mul]
    exact Nat.cast_lt.mpr less
  have small : 2 * rest < den ↔ (rest : ℚ) / den < 1 / 2 := by
    rw [div_lt_div_iff₀ den' two_pos, one_mul, mul_comm]
    exact_mod_cast Iff.rfl
  have large : den < 2 * rest ↔ 1 / 2 < (rest : ℚ) / den := by
    rw [div_lt_div_iff₀ two_pos den', one_mul, mul_comm (rest : ℚ)]
    exact_mod_cast Iff.rfl
  split_ifs with below beyond even
  · refine .of_closer ?_
    rw [above, abs_of_nonneg least]
    exact small.mp below
  · refine .of_closer ?_
    have close := large.mp beyond
    rw [next, abs_of_neg (by linarith)]
    linarith
  all_goals
    -- A half goes to the floor if that is even, and else to the number after it.
    have half : (rest : ℚ) / den = 1 / 2 :=
      le_antisymm (not_lt.mp (mt large.mpr beyond)) (not_lt.mp (mt small.mpr below))
    refine ⟨?_, fun _ => by omega⟩
  · rw [above, half, abs_of_pos (by norm_num)]
  · rw [next, half, abs_of_neg (by norm_num)]
    norm_num

theorem roundHalfEven_one (num : Nat) : roundHalfEven num 1 = num :=
  (roundHalfEven_le Nat.one_pos (Nat.mul_one num).ge).antisymm
    (le_roundHalfEven Nat.one_pos (Nat.mul_one num).le)

namespace Binary64

variable {x : Binary64}

theorem nearestWhole_cents (x : Binary64) : NearestWhole (100 * x.value) (x.cents : Nat) := by
  have scaled : 100 * x.value = (100 * x.numerator : Nat) / x.denominator := by
    rw [x.value_eq_div, mul_div_assoc', Nat.cast_mul, Nat.cast_ofNat]
  rw [scaled]
  exact nearestWhole_roundHalfEven _ x.denominator_pos

/-! ## The number nearest to the hundredths -/

theorem nearestBits_lt_of_le {num den : Nat} (positive : 0 < den) (small : num ≤ 2 ^ 53 * den) :
    nearestBits num den < infinityBits := by
  rcases Nat.eq_zero_or_pos num with rfl | some
  · exact Nat.mul_pos (by decide) (Nat.two_pow_pos 52)
  · have most : (num : ℚ) / den ≤ 2 ^ (53 : Int) := by
      rw [div_le_iff₀ (Nat.cast_pos.mpr positive)]
      exact_mod_cast small
    have exponent : floorLog2 num den ≤ 53 :=
      (zpow_le_zpow_iff_right₀ (by norm_num)).mp ((floorLog2_spec some positive).1.trans most)
    have unit : (unitOf num den + 1074).toNat ≤ 1075 := by
      unfold unitOf
      omega
    have carry := coefficientOf_carry some positive
    have infinity : infinityBits = 2047 * 2 ^ 52 := rfl
    rw [nearestBits_eq some, infinity]
    omega

/-- A number without a fraction has all of its places before the point, and any other is small. -/
theorem nearestBits_cents_lt (finite : x.isFinite = true) :
    nearestBits x.cents 100 < infinityBits := by
  rcases Int.lt_or_le x.scale 0 with fractional | whole
  · apply nearestBits_lt_of_le (by decide)
    have numerator : x.numerator = x.coefficient := by
      rw [Binary64.numerator, Int.toNat_of_nonpos fractional.le]
      exact Nat.mul_one _
    refine roundHalfEven_le x.denominator_pos ?_
    have few := x.coefficient_lt
    have some := Nat.le_mul_of_pos_right (2 ^ 53 * 100) x.denominator_pos
    rw [numerator]
    omega
  · have denominator : x.denominator = 1 := by
      rw [Binary64.denominator, Int.toNat_of_nonpos (by omega)]
      rfl
    have hundredfold : x.cents = 100 * x.numerator := by
      rw [cents, denominator, roundHalfEven_one]
    rcases Nat.eq_zero_or_pos x.numerator with zero | some
    · exact nearestBits_lt_of_le (by decide) (by rw [hundredfold, zero]; exact Nat.zero_le _)
    · have same : ((x.cents : Nat) : ℚ) / (100 : Nat) = x.value := by
        rw [hundredfold, x.value_eq_div, denominator]
        push_cast
        field_simp
      rw [nearestBits_of_value finite (by omega) (by decide) same]
      exact magnitudeBits_lt finite

end Binary64

end GrantConsole.Number
