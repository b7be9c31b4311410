import GrantConsole.Proofs.Number.Nearest

/-!
# Quotients with the same nearest number

The number nearest to a quotient depends on the value of the quotient alone, not on how it is
written. A quotient that is a binary number in the finite range is nearest to that number, and one
beyond the range is nearest to infinity.
-/

namespace GrantConsole.Number

/-! ## Rounding -/

theorem roundHalfEven_mul (num den : Nat) {k : Nat} (positive : 0 < k) :
    roundHalfEven (num * k) (den * k) = roundHalfEven num den := by
  have twice : 2 * (num * k % (den * k)) = 2 * (num % den) * k := by
    rw [Nat.mul_mod_mul_right, Nat.mul_assoc]
  unfold roundHalfEven
  dsimp only
  rw [twice, Nat.mul_div_mul_right _ _ positive]
  simp only [Nat.mul_lt_mul_right positive]

theorem roundHalfEven_congr {num den num' den' : Nat} (denPos : 0 < den) (denPos' : 0 < den')
    (same : num * den' = num' * den) : roundHalfEven num den = roundHalfEven num' den' := by
  rw [← roundHalfEven_mul num den denPos', same, Nat.mul_comm den den',
    roundHalfEven_mul num' den' denPos]

namespace Binary64

/-! ## Equal quotients -/

section Equal

variable {num den num' den' : Nat}

theorem floorLog2_eq (numPos : 0 < num) (denPos : 0 < den) {e : Int}
    (least : (2 : ℚ) ^ e ≤ num / den) (most : (num : ℚ) / den < 2 ^ (e + 1)) :
    floorLog2 num den = e := by
  obtain ⟨least', most'⟩ := floorLog2_spec numPos denPos
  have above : floorLog2 num den < e + 1 :=
    (zpow_lt_zpow_iff_right₀ (by norm_num)).mp (least'.trans_lt most)
  have below : e < floorLog2 num den + 1 :=
    (zpow_lt_zpow_iff_right₀ (by norm_num)).mp (least.trans_lt most')
  omega

variable (numPos : 0 < num) (denPos : 0 < den) (numPos' : 0 < num') (denPos' : 0 < den')
  (same : num * den' = num' * den)
include numPos denPos numPos' denPos' same

theorem unitOf_congr : unitOf num den = unitOf num' den' := by
  have quotient : (num : ℚ) / den = num' / den' := by
    rw [div_eq_div_iff (Nat.cast_ne_zero.mpr denPos.ne') (Nat.cast_ne_zero.mpr denPos'.ne')]
    exact_mod_cast same
  obtain ⟨least, most⟩ := floorLog2_spec numPos' denPos'
  rw [unitOf, unitOf, floorLog2_eq numPos denPos (quotient ▸ least) (quotient ▸ most)]

theorem coefficientOf_congr : coefficientOf num den = coefficientOf num' den' := by
  rw [coefficientOf, coefficientOf, unitOf_congr numPos denPos numPos' denPos' same]
  refine roundHalfEven_congr (Nat.mul_pos denPos (Nat.two_pow_pos _))
    (Nat.mul_pos denPos' (Nat.two_pow_pos _)) ?_
  rw [Nat.mul_mul_mul_comm, same, Nat.mul_mul_mul_comm]

theorem nearestBits_congr : nearestBits num den = nearestBits num' den' := by
  rw [nearestBits_eq numPos, nearestBits_eq numPos',
    unitOf_congr numPos denPos numPos' denPos' same,
    coefficientOf_congr numPos denPos numPos' denPos' same]

end Equal

/-! ## Beyond the finite range -/

theorem nearestBits_of_large {num den : Nat} (numPos : 0 < num) (denPos : 0 < den)
    (large : (2 : ℚ) ^ (1024 : Int) ≤ num / den) : nearestBits num den = infinityBits := by
  have exponent : 1024 ≤ floorLog2 num den := by
    have below := (zpow_lt_zpow_iff_right₀ (by norm_num)).mp
      (large.trans_lt (floorLog2_spec numPos denPos).2)
    omega
  have unit : 972 ≤ unitOf num den := by
    unfold unitOf
    omega
  have leading : 2 ^ 52 ≤ coefficientOf num den :=
    (coefficientOf_normal numPos denPos).resolve_left (by omega)
  have bits : infinityBits = 2047 * 2 ^ 52 := rfl
  rw [nearestBits_eq numPos, Nat.min_eq_right]
  omega

/-! ## Binary numbers -/

/-- The bits without the sign. -/
def magnitudeBits (x : Binary64) : Nat :=
  x.bits.toNat % 2 ^ 63

theorem withSign_magnitudeBits (x : Binary64) : withSign x.signed x.magnitudeBits = x := by
  obtain ⟨bits⟩ := x
  have small : bits.toNat < 2 ^ 64 := bits.toNat_lt
  have whole : bits.toNat % 2 ^ 63 + (if (⟨bits⟩ : Binary64).signed then twoTo 63 else 0) =
      bits.toNat := by
    change bits.toNat % 2 ^ 63 + (if decide (2 ^ 63 ≤ bits.toNat) then 2 ^ 63 else 0) = _
    by_cases negative : 2 ^ 63 ≤ bits.toNat
    · rw [if_pos (decide_eq_true negative)]
      omega
    · rw [if_neg (by simpa using negative)]
      omega
  rw [withSign, magnitudeBits, whole, ofNat, UInt64.ofNat_toNat]

theorem magnitudeBits_eq (x : Binary64) :
    x.magnitudeBits = x.exponentBits * 2 ^ 52 + x.fraction := by
  have exponent : x.exponentBits = x.bits.toNat / 2 ^ 52 % 2 ^ 11 := rfl
  have fraction : x.fraction = x.bits.toNat % 2 ^ 52 := rfl
  rw [magnitudeBits, exponent, fraction]
  omega

theorem fraction_lt (x : Binary64) : x.fraction < 2 ^ 52 :=
  Nat.mod_lt _ (Nat.two_pow_pos 52)

theorem coefficient_lt (x : Binary64) : x.coefficient < 2 ^ 53 := by
  have fraction := x.fraction_lt
  have leading : twoTo 52 = 2 ^ 52 := rfl
  unfold coefficient
  split <;> omega

theorem exponentBits_lt {x : Binary64} (finite : x.isFinite = true) : x.exponentBits < 2047 := by
  have bits : x.exponentBits < 2 ^ 11 := Nat.mod_lt _ (Nat.two_pow_pos 11)
  have other : x.exponentBits ≠ 2047 := by simpa [isFinite] using finite
  omega

theorem isNaN_of_isFinite {x : Binary64} (finite : x.isFinite = true) : x.isNaN = false := by
  have other : (x.exponentBits == 2047) = false := by simpa [isFinite] using finite
  rw [isNaN, other, Bool.false_and]

theorem magnitudeBits_lt {x : Binary64} (finite : x.isFinite = true) :
    x.magnitudeBits < infinityBits := by
  have exponent := exponentBits_lt finite
  have fraction := x.fraction_lt
  have infinity : infinityBits = 2047 * 2 ^ 52 := rfl
  rw [magnitudeBits_eq, infinity]
  omega

/-- The unit of a quotient is the scale of the binary number that it is equal to. -/
theorem unitOf_of_value {x : Binary64} {num den : Nat} (numPos : 0 < num) (denPos : 0 < den)
    (same : (num : ℚ) / den = x.value) : unitOf num den = x.scale := by
  have fraction := x.fraction_lt
  rcases Nat.eq_zero_or_pos x.exponentBits with zero | positive
  · -- Without a leading bit the number is below the smallest one with one.
    have scale : x.scale = -1074 := by rw [scale, zero]; rfl
    have below : x.value < 2 ^ (-1022 : Int) := by
      rw [value, coefficient, if_pos zero, scale,
        show (-1022 : Int) = 52 + -1074 from rfl, zpow_add₀ (by norm_num)]
      exact mul_lt_mul_of_pos_right (by exact_mod_cast fraction) (zpow_two_pos _)
    have exponent := (zpow_lt_zpow_iff_right₀ (by norm_num)).mp
      ((floorLog2_spec numPos denPos).1.trans_lt (same ▸ below))
    unfold unitOf
    omega
  · have scale : x.scale = (x.exponentBits : Int) - 1075 := by
      rw [scale, Nat.max_eq_left positive]
    have normal : x.coefficient = 2 ^ 52 + x.fraction := if_neg positive.ne'
    have least : (2 : ℚ) ^ (52 + x.scale) ≤ num / den := by
      rw [same, value, zpow_add₀ (by norm_num)]
      refine mul_le_mul_of_nonneg_right ?_ (zpow_two_pos _).le
      rw [normal]
      exact_mod_cast Nat.le_add_right (2 ^ 52) x.fraction
    have most : (num : ℚ) / den < 2 ^ (52 + x.scale + 1) := by
      rw [same, value, show 52 + x.scale + 1 = 53 + x.scale by omega, zpow_add₀ (by norm_num)]
      refine mul_lt_mul_of_pos_right ?_ (zpow_two_pos _)
      exact_mod_cast x.coefficient_lt
    have exponent := floorLog2_eq numPos denPos least most
    unfold unitOf
    omega

/-- A finite number that is not zero is the number nearest to every quotient of its value. -/
theorem nearestBits_of_value {x : Binary64} (finite : x.isFinite = true) {num den : Nat}
    (numPos : 0 < num) (denPos : 0 < den) (same : (num : ℚ) / den = x.value) :
    nearestBits num den = x.magnitudeBits := by
  have unit := unitOf_of_value numPos denPos same
  have quotient : (num : ℚ) / den = x.coefficient * 2 ^ unitOf num den := by rw [same, unit]; rfl
  have exact : coefficientOf num den = x.coefficient :=
    (coefficientOf_le denPos quotient.le).antisymm (le_coefficientOf denPos quotient.ge)
  have fraction := x.fraction_lt
  have exponent := exponentBits_lt finite
  have infinity : infinityBits = 2047 * 2 ^ 52 := rfl
  have shifted : (x.scale + 1074).toNat = max x.exponentBits 1 - 1 := by
    unfold scale
    omega
  have bits : (max x.exponentBits 1 - 1) * 2 ^ 52 + x.coefficient =
      x.exponentBits * 2 ^ 52 + x.fraction := by
    rw [coefficient]
    rcases Nat.eq_zero_or_pos x.exponentBits with zero | positive
    · rw [if_pos zero, zero, Nat.max_eq_right (Nat.zero_le 1), Nat.sub_self]
    · have leading : twoTo 52 = 2 ^ 52 := rfl
      rw [if_neg positive.ne', leading, Nat.max_eq_left positive, ← Nat.add_assoc,
        ← Nat.succ_mul, Nat.succ_eq_add_one, Nat.sub_add_cancel positive]
  rw [nearestBits_eq numPos, exact, unit, shifted, bits, magnitudeBits_eq, infinity,
    Nat.min_eq_left]
  omega

end Binary64

end GrantConsole.Number
