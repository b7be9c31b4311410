import GrantConsole.Proofs.Json.Literal
import GrantConsole.Proofs.Record.Passing

/-!
# Whole numbers of 64 bits

A whole number within 64 bits is read as it is, however it stands, and one far beyond them is
refused. In between are those that round to the bounds as binary numbers. They are taken as well,
and cut to 64 bits.
-/

namespace GrantConsole.Record

open GrantConsole.Number GrantConsole.Json

/-- The whole number of 64 bits that is nearest. -/
def clamp (n : Int) : Int :=
  max (-int64Bound) (min n (int64Bound - 1))

theorem int64Bound_eq : (int64Bound : Int) = 2 ^ 63 := by decide

theorem clamp_of_inRange {n : Int} (least : -int64Bound ≤ n) (most : n < int64Bound) :
    clamp n = n := by
  unfold clamp
  omega

theorem toInt_ofInt_clamp (n : Int) : (Int64.ofInt (clamp n)).toInt = clamp n := by
  have bound := int64Bound_eq
  apply Int64.toInt_ofInt_of_le <;>
    · unfold clamp
      omega

theorem ofInt_clamp_eq_iff {n : Int64} {v : Int} :
    Int64.ofInt (clamp v) = n ↔ n.toInt = clamp v := by
  rw [← Int64.toInt_inj, toInt_ofInt_clamp]
  exact eq_comm

/-! ## Binary numbers -/

theorem integerOfReal?_eq_some {x : Binary64} {n : Int} :
    integerOfReal? x = some n ↔
      x.isFinite = true ∧ ∃ m : Nat, x.value = m ∧ n = signedWhole x.signed m := by
  have positive := x.denominator_pos
  have whole (m : Nat) : x.value = m ↔ x.numerator = m * x.denominator := by
    rw [x.value_eq_div, div_eq_iff (Nat.cast_ne_zero.mpr positive.ne')]
    exact_mod_cast Iff.rfl
  have quotient (m : Nat) (same : x.numerator = m * x.denominator) :
      (x.numerator : Int) / x.denominator = m := by
    rw [same, ← Int.natCast_ediv, Nat.mul_div_cancel m positive]
  unfold integerOfReal? signedWhole
  dsimp only
  constructor
  · intro found
    split at found
    · rename_i holds
      obtain ⟨m, same⟩ := Nat.dvd_of_mod_eq_zero holds.2
      rw [Nat.mul_comm] at same
      rw [quotient m same] at found
      exact ⟨holds.1, m, (whole m).mpr same, (Option.some.inj found).symm⟩
    · cases found
  · rintro ⟨finite, m, value, rfl⟩
    have same := (whole m).mp value
    rw [if_pos ⟨finite, same ▸ Nat.mul_mod_left m x.denominator⟩, quotient m same]

/-- A binary number is taken if it is whole and not beyond `2 ^ 63`, and is cut to 64 bits. -/
theorem ofReal_eq_ok {x : Binary64} {n : Int64} :
    coerceWhole.ofReal x = .ok n ↔
      x.isFinite = true ∧ ∃ m : Nat, x.value = m ∧ m ≤ int64Bound ∧
        n.toInt = clamp (signedWhole x.signed m) := by
  unfold coerceWhole.ofReal
  cases whole : integerOfReal? x with
  | none =>
      constructor
      · exact fun failed => nomatch failed
      · rintro ⟨finite, m, value, -⟩
        have found := integerOfReal?_eq_some.mpr ⟨finite, m, value, rfl⟩
        cases whole.symm.trans found
  | some v =>
      obtain ⟨finite, m, value, rfl⟩ := integerOfReal?_eq_some.mp whole
      have range : -int64Bound ≤ signedWhole x.signed m ∧ signedWhole x.signed m ≤ int64Bound ↔
          m ≤ int64Bound := by
        unfold signedWhole
        split <;> omega
      have only (k : Nat) (same : x.value = k) : k = m :=
        Nat.cast_injective (same.symm.trans value)
      dsimp only
      by_cases within : m ≤ int64Bound
      · have least := (range.mpr within).1
        have cut : min (signedWhole x.signed m) (int64Bound - 1) =
            clamp (signedWhole x.signed m) := by
          have bound := int64Bound_eq
          unfold clamp
          omega
        rw [if_pos (range.mpr within), cut, Except.ok.injEq, ofInt_clamp_eq_iff]
        constructor
        · exact fun clamped => ⟨finite, m, value, within, clamped⟩
        · rintro ⟨-, k, same, -, clamped⟩
          exact only k same ▸ clamped
      · rw [if_neg fun holds => within (range.mp holds)]
        constructor
        · exact fun failed => nomatch failed
        · rintro ⟨-, k, same, inRange, -⟩
          exact absurd (only k same ▸ inRange) within

/-! ## Whole numbers from `2 ^ 63` up to a word -/

section
variable {m : Nat} (least : int64Bound ≤ m) (most : m < wordBound)
include least most

theorem unitOf_large : Binary64.unitOf m 1 = 11 := by
  have positive : 0 < m := Nat.lt_of_lt_of_le (by decide) least
  obtain ⟨below, above⟩ := floorLog2_spec positive Nat.one_pos
  rw [Nat.cast_one, div_one] at below above
  have least' : (2 : ℚ) ^ (63 : Int) ≤ m := by exact_mod_cast least
  have most' : (m : ℚ) < 2 ^ (64 : Int) := by exact_mod_cast most
  have upper := (zpow_lt_zpow_iff_right₀ (by norm_num)).mp (below.trans_lt most')
  have lower := (zpow_lt_zpow_iff_right₀ (by norm_num)).mp (least'.trans_lt above)
  unfold Binary64.unitOf
  omega

theorem coefficientOf_large : Binary64.coefficientOf m 1 = roundHalfEven m 2048 := by
  rw [Binary64.coefficientOf, unitOf_large least most]
  change roundHalfEven (m * 1) 2048 = _
  rw [Nat.mul_one]

/-- A number of 64 binary digits is rounded to a multiple of 2048. -/
theorem ofRatio_large (negative : Bool) :
    (Binary64.ofRatio negative m 1).isFinite = true ∧
      (Binary64.ofRatio negative m 1).signed = negative ∧
      (Binary64.ofRatio negative m 1).value = (roundHalfEven m 2048 * 2048 : Nat) := by
  have positive : 0 < m := Nat.lt_of_lt_of_le (by decide) least
  have unit := unitOf_large least most
  have coefficient := coefficientOf_large least most
  have carry := Binary64.coefficientOf_carry positive Nat.one_pos
  have small : (Binary64.unitOf m 1 + 1074).toNat * 2 ^ 52 + Binary64.coefficientOf m 1 <
      Binary64.infinityBits := by
    have bound : Binary64.infinityBits = 2047 * 2 ^ 52 := rfl
    rw [unit, bound]
    change 1085 * 2 ^ 52 + _ < _
    omega
  have bits : Binary64.nearestBits m 1 < Binary64.infinityBits := by
    rw [Binary64.nearestBits_eq positive]
    exact Nat.lt_of_le_of_lt (Nat.min_le_left _ _) small
  refine ⟨Binary64.isFinite_withSign negative bits,
    Binary64.signed_withSign negative (Nat.lt_trans bits (by decide)), ?_⟩
  rw [Binary64.value_ofRatio negative positive Nat.one_pos small.le, coefficient, unit]
  norm_num

end

theorem roundHalfEven_large {m : Nat} (least : int64Bound ≤ m) :
    roundHalfEven m 2048 * 2048 ≤ int64Bound ↔ m ≤ int64Bound + 1024 := by
  have bound : int64Bound = 2 ^ 52 * 2048 := rfl
  unfold roundHalfEven
  dsimp only
  rw [bound] at least ⊢
  split_ifs <;> omega

theorem le_roundHalfEven_large {m : Nat} (least : int64Bound ≤ m) :
    int64Bound ≤ roundHalfEven m 2048 * 2048 := by
  have leading : 2 ^ 52 ≤ roundHalfEven m 2048 := le_roundHalfEven (by decide) least
  exact Nat.mul_le_mul_right 2048 leading

/-- A number of 64 binary digits is taken as far as it rounds to `2 ^ 63`. -/
theorem ofReal_ofRatio_large {m : Nat} (least : int64Bound ≤ m) (most : m < wordBound)
    (negative : Bool) {n : Int64} :
    coerceWhole.ofReal (Binary64.ofRatio negative m 1) = .ok n ↔
      m ≤ int64Bound + 1024 ∧ n.toInt = clamp (signedWhole negative m) := by
  obtain ⟨finite, signed, value⟩ := ofRatio_large least most negative
  have rounded := le_roundHalfEven_large least
  -- What rounds to `2 ^ 63` is cut to the same bound as `2 ^ 63`.
  have bounds (k : Nat) (beyond : int64Bound ≤ k) :
      clamp (signedWhole negative k) = clamp (signedWhole negative int64Bound) := by
    unfold clamp signedWhole
    split <;> omega
  rw [ofReal_eq_ok, signed, bounds m least, ← roundHalfEven_large least]
  constructor
  · rintro ⟨-, k, same, inRange, clamped⟩
    obtain rfl : roundHalfEven m 2048 * 2048 = k := Nat.cast_injective (value.symm.trans same)
    exact ⟨inRange, clamped.trans (bounds _ rounded)⟩
  · rintro ⟨inRange, clamped⟩
    exact ⟨finite, _, value, inRange, clamped.trans (bounds _ rounded).symm⟩

/-! ## Whole numbers of any length -/

theorem natAbs_signedWhole (negative : Bool) (m : Nat) : (signedWhole negative m).natAbs = m := by
  unfold signedWhole
  split
  · rw [Int.natAbs_neg, Int.natAbs_natCast]
  · exact Int.natAbs_natCast m

theorem realOfInt_natCast (m : Nat) : realOfInt m = Binary64.ofRatio false m 1 := by
  have positive : ¬ (m : Int) < 0 := by omega
  rw [realOfInt, decide_eq_false positive, Int.natAbs_natCast]

/-- What has a whole form is within 64 bits, or a number of 64 binary digits. -/
theorem coerceWhole_whole {m : Nat} {negative : Bool} (form : HasWholeForm negative m)
    {n : Int64} :
    coerceWhole (.whole (signedWhole negative m)) = .ok n ↔
      m ≤ int64Bound + 1024 ∧ n.toInt = clamp (signedWhole negative m) := by
  rw [coerceWhole]
  by_cases inRange : -int64Bound ≤ signedWhole negative m ∧ signedWhole negative m < int64Bound
  · have small : m ≤ int64Bound + 1024 := by
      have magnitude := natAbs_signedWhole negative m
      omega
    have exactly := clamp_of_inRange inRange.1 inRange.2
    have taken := ofInt_clamp_eq_iff (n := n) (v := signedWhole negative m)
    rw [exactly] at taken
    rw [if_pos inRange, Except.ok.injEq, taken, exactly, and_iff_right small]
  · rw [if_neg inRange]
    cases negative with
    | true =>
        obtain ⟨nonzero, most⟩ := form.2 rfl
        simp only [signedWhole, if_true] at inRange
        omega
    | false =>
        have least : int64Bound ≤ m := by
          simp only [signedWhole, Bool.false_eq_true, if_false] at inRange
          omega
        exact realOfInt_natCast m ▸ ofReal_ofRatio_large least form.1 false

/-- What is not whole to the reader although it fits a word is minus zero, or below 64 bits. -/
theorem coerceWhole_formless {m : Nat} (fits : m < wordBound) (formless : m = 0 ∨ int64Bound < m)
    {n : Int64} :
    coerceWhole (.real (Binary64.ofRatio true m 1)) = .ok n ↔
      m ≤ int64Bound + 1024 ∧ n.toInt = clamp (signedWhole true m) := by
  rw [coerceWhole]
  rcases formless with rfl | beyond
  · have zero : (Binary64.ofRatio true 0 1).value = (0 : Nat) :=
      (Binary64.value_of_isZero (by decide)).trans Nat.cast_zero.symm
    have signed : (Binary64.ofRatio true 0 1).signed = true := by decide
    rw [ofReal_eq_ok, signed]
    constructor
    · rintro ⟨-, k, value, -, clamped⟩
      obtain rfl : 0 = k := Nat.cast_injective (zero.symm.trans value)
      exact ⟨Nat.zero_le _, clamped⟩
    · rintro ⟨-, clamped⟩
      exact ⟨by decide, 0, zero, Nat.zero_le _, clamped⟩
  · exact ofReal_ofRatio_large beyond.le fits true

/-- A binary number beyond `2 ^ 63` is refused. -/
theorem ofReal_of_beyond {x : Binary64} (beyond : (int64Bound : ℚ) < x.value) (n : Int64) :
    coerceWhole.ofReal x ≠ .ok n := by
  intro taken
  obtain ⟨-, m, value, inRange, -⟩ := ofReal_eq_ok.mp taken
  rw [value] at beyond
  exact absurd (Nat.cast_lt.mp beyond) (Nat.not_lt.mpr inRange)

/-- A text is read as a whole number by the value it stands for. -/
theorem read_whole_iff {depth : Nat} {cs rest : List Char} {v : Json}
    (found : Json.read depth cs = .ok (v, rest)) {n : Int64} {after : List Char} :
    Shape.whole.read depth cs = .ok (n, after) ↔ coerceWhole v = .ok n ∧ after = rest := by
  constructor
  · intro read
    obtain ⟨v', value, coerced⟩ := read_whole_eq_ok read
    cases found.symm.trans value
    exact ⟨coerced, rfl⟩
  · rintro ⟨coerced, rfl⟩
    change (Json.read depth cs >>= fun read =>
      coerceWhole read.1 >>= fun n => .ok (n, read.2)) = _
    rw [found]
    change (coerceWhole v >>= fun n => .ok (n, after)) = _
    rw [coerced]
    rfl

/-- A whole number is read exactly if it is within 64 bits. One that is at most 1024 beyond them is
cut to them, and any other is refused. -/
theorem read_whole_chars (w : WholeText) (depth : Nat) {rest : List Char} (ends : EndsNumber rest)
    (n : Int64) (after : List Char) :
    Shape.whole.read depth (w.chars ++ rest) = .ok (n, after) ↔
      w.value.natAbs ≤ 2 ^ 63 + 1024 ∧ n.toInt = clamp w.value ∧ after = rest := by
  have bound : int64Bound = 2 ^ 63 := rfl
  rw [WholeText.value, natAbs_signedWhole, ← bound, ← and_assoc]
  rcases Nat.lt_or_ge w.magnitude wordBound with fits | beyond
  · by_cases form : HasWholeForm w.negative w.magnitude
    · rw [read_whole_iff (w.read_of_form depth form ends), WholeText.value, coerceWhole_whole form]
    · obtain ⟨negative, formless⟩ := formless_of_fits fits form
      rw [read_whole_iff (w.read_of_fits depth negative fits formless ends),
        coerceWhole_formless fits formless, negative]
  · constructor
    · intro read
      obtain ⟨v, value, coerced⟩ := read_whole_eq_ok read
      obtain ⟨x, rfl, least⟩ := w.read_of_beyond depth beyond ends value
      have above : (int64Bound : ℚ) < x.value := by
        refine lt_of_lt_of_le ?_ least
        rw [bound]
        norm_num
      exact absurd coerced (ofReal_of_beyond above n)
    · rintro ⟨⟨small, -⟩, -⟩
      have far : int64Bound + 1024 < wordBound := by decide
      omega

/-- The first whole number past 64 bits. -/
def pastBound : WholeText where
  negative := false
  digits := "9223372036854775808".toList
  nonempty := by decide
  each := List.all_eq_true.mp (by decide)
  plain := by decide

/-- It is cut, and what follows it is left. -/
theorem read_whole_chars_cut :
    Shape.whole.read depthLimit ("9223372036854775808".toList ++ [',']) =
      .ok (Int64.maxValue, [',']) := by
  apply (read_whole_chars pastBound depthLimit (endsNumber_cons (by decide) []) Int64.maxValue
    [',']).mpr
  exact ⟨by decide, by decide, rfl⟩

/-- Not every whole number that is read is the one that is written. -/
theorem written_whole_replaced :
    ¬ ∀ (w : WholeText) (n : Int64),
      Shape.whole.read depthLimit w.chars = .ok (n, []) ↔ n.toInt = w.value := by
  intro unchanged
  have form : HasWholeForm pastBound.negative pastBound.magnitude :=
    ⟨by decide, fun negative => nomatch negative⟩
  have ends : EndsNumber [] := fun c member => nomatch member
  have found := pastBound.read_of_form depthLimit form ends
  rw [List.append_nil] at found
  have cut := (read_whole_iff found).mpr
    ⟨(coerceWhole_whole form).mpr ⟨by decide, (by decide : Int64.maxValue.toInt = _)⟩, rfl⟩
  have same := (unchanged pastBound Int64.maxValue).mp cut
  exact absurd same (by decide)

end GrantConsole.Record
