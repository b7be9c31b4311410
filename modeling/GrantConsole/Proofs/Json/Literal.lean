import GrantConsole.Proofs.Json.Decided
import GrantConsole.Proofs.Json.Written
import GrantConsole.Proofs.Number.Nearest

/-!
# Whole numbers of any length

A whole number stands as an optional sign and digits, however many. Digits whose value fits a word
are read exactly. If it does not, the first digits that fit make a binary number that is scaled by
the count of the others, and comes out far above the whole numbers of 64 bits or out of range.
-/

namespace GrantConsole.Json

open GrantConsole.Number GrantConsole.Text

/-- The text of a whole number: a zero comes first only where it is the only digit. -/
structure WholeText where
  negative : Bool
  digits : List Char
  nonempty : digits ≠ []
  each : ∀ c ∈ digits, isDigit c = true
  plain : digits.head? = some '0' → digits = ['0']

namespace WholeText

def chars (w : WholeText) : List Char :=
  if w.negative then '-' :: w.digits else w.digits

def magnitude (w : WholeText) : Nat :=
  digitsValue 0 w.digits

def value (w : WholeText) : Int :=
  signedWhole w.negative w.magnitude

end WholeText

/-! ## Too many digits -/

theorem takeDigits_dropping (significand taken : Nat) {dropped : Nat} (some : dropped ≠ 0)
    (cs : List Char) :
    takeDigits significand taken dropped cs = (significand, taken, dropped + cs.length) := by
  induction cs generalizing dropped with
  | nil => rfl
  | cons c cs ih =>
      rw [takeDigits, if_neg fun fits => some fits.1, ih (by omega), List.length_cons]
      congr 2
      omega

/-- Of digits that do not fit a word some are dropped, and the others fill the word but for less
than a digit. -/
theorem takeDigits_of_beyond {start : Nat} {cs : List Char} (fits : start < wordBound)
    (beyond : wordBound ≤ digitsValue start cs) (taken : Nat) :
    ∃ significand taken' dropped,
      takeDigits start taken 0 cs = (significand, taken', dropped) ∧ dropped ≠ 0 ∧
        ∃ c ∈ cs, wordBound ≤ 10 * significand + digitValue c := by
  induction cs generalizing start taken with
  | nil => exact absurd fits (Nat.not_lt.mpr beyond)
  | cons c cs ih =>
      rw [takeDigits]
      by_cases next : 10 * start + digitValue c < wordBound
      · obtain ⟨significand, taken', dropped, digits, some, d, member, full⟩ :=
          ih next beyond (taken + 1)
        rw [if_pos ⟨rfl, next⟩]
        exact ⟨significand, taken', dropped, digits, some, d, List.mem_cons_of_mem c member, full⟩
      · rw [if_neg fun fits => next fits.2, takeDigits_dropping start taken Nat.one_ne_zero]
        refine ⟨start, taken, 1 + cs.length, rfl, by omega, c, List.mem_cons_self, ?_⟩
        exact Nat.not_lt.mp next

theorem digitValue_le {c : Char} (digit : isDigit c = true) : digitValue c ≤ 9 := by
  have nine : c ≤ '9' := of_decide_eq_true ((Bool.and_eq_true _ _).mp digit).2
  have bound : c.toNat ≤ '9'.toNat := nine
  exact Nat.sub_le_sub_right bound '0'.toNat

theorem WholeText.wholePart (w : WholeText) : WholePart w.digits := by
  obtain ⟨_, digits, nonempty, each, plain⟩ := w
  obtain ⟨c, ds, rfl⟩ := List.exists_cons_of_ne_nil nonempty
  by_cases zero : c = '0'
  · subst zero
    obtain rfl : ds = [] := (List.cons.inj (plain rfl)).2
    exact .zero
  · exact .digits ⟨nonempty, each⟩ zero

/-- What fits a word and has no whole form is minus zero, or below 64 bits. -/
theorem formless_of_fits {negative : Bool} {m : Nat} (fits : m < wordBound)
    (formless : ¬ HasWholeForm negative m) : negative = true ∧ (m = 0 ∨ int64Bound < m) := by
  unfold HasWholeForm at formless
  cases negative with
  | false => exact absurd ⟨fits, fun negative => nomatch negative⟩ formless
  | true =>
      refine ⟨rfl, ?_⟩
      by_contra whole
      exact formless ⟨fits, fun _ => by omega⟩

/-! ## Scaling -/

theorem powerOfTen_eq {n : Nat} (small : n ≤ 308) :
    powerOfTen n = Binary64.ofRatio false (tenTo n) 1 := by
  have most : ¬ (310 : Int) < n := by omega
  have least : ¬ (n : Int) + Decimal.width 1 < -330 := by omega
  have denominator : (-(n : Int)).toNat = 0 := by omega
  unfold powerOfTen Decimal.nearest
  dsimp only
  rw [if_neg Nat.one_ne_zero, if_neg most, if_neg least, Int.toNat_natCast, denominator,
    Nat.one_mul]
  rfl

/-- Ten to some power is at least eight, also when it is rounded. -/
theorem le_value_powerOfTen {n : Nat} (positive : n ≠ 0) (small : n ≤ 308) :
    ((1 : Nat) : ℚ) * 2 ^ (3 : Int) ≤ (powerOfTen n).value := by
  have ten : 10 ≤ tenTo n := Nat.le_self_pow positive 10
  rw [powerOfTen_eq small]
  apply Binary64.le_value_ofRatio false (by omega) Nat.one_pos (by decide) (by decide) (by decide)
  have bound : (10 : ℚ) ≤ (tenTo n : Nat) := by exact_mod_cast ten
  norm_num
  linarith

/-- A magnitude is scaled up in one step, if it is not zero. -/
theorem scaleByTen_eq_ok {fuel n : Nat} {x y : Binary64} (some : x.isZero = false)
    (scaled : scaleByTen (fuel + 1) x n = .ok y) : n ≤ 308 ∧ y = x.times (powerOfTen n) := by
  have magnitude : (n : Int).natAbs = n := Int.natAbs_natCast n
  have positive : (0 : Int) ≤ n := Int.natCast_nonneg n
  rw [scaleByTen, magnitude, if_pos positive, some, if_pos positive] at scaled
  by_cases small : n ≤ 308
  · rw [if_pos small] at scaled
    dsimp only at scaled
    split at scaled
    · exact ⟨small, (Except.ok.inj scaled).symm⟩
    · cases scaled
  · rw [if_neg small] at scaled
    cases scaled

/-- A significand that fills a word, scaled by dropped digits, is well above `2 ^ 63`. -/
theorem le_value_realOfParts {negative : Bool} {significand dropped : Nat} {x : Binary64}
    (full : wordBound ≤ 10 * significand + 9) (some : dropped ≠ 0)
    (parts : realOfParts negative significand dropped = .ok x) :
    ((3 * 1 : Nat) : ℚ) * 2 ^ (59 + 3 : Int) ≤ x.value := by
  have least : ((3 : Nat) : ℚ) * 2 ^ (59 : Int) ≤ (Binary64.ofRatio false significand 1).value := by
    have bound : 3 * 2 ^ 59 ≤ significand := by
      change 2 ^ 64 ≤ _ at full
      omega
    apply Binary64.le_value_ofRatio false (by omega) Nat.one_pos (by decide) (by decide) (by decide)
    have : ((3 * 2 ^ 59 : Nat) : ℚ) ≤ significand := Nat.cast_le.mpr bound
    norm_num at this ⊢
    exact this
  have nonzero : (Binary64.ofRatio false significand 1).isZero = false := by
    by_contra zero
    rw [Binary64.value_of_isZero (by simpa using zero)] at least
    norm_num at least
  obtain ⟨y, scaled, same⟩ := bind_eq_ok.mp parts
  obtain ⟨small, product⟩ := scaleByTen_eq_ok nonzero scaled
  have value : x.value = y.value := by
    rw [← Except.ok.inj same, product]
    exact Binary64.value_withSign_ofRatio negative _ _
  rw [value, product]
  exact Binary64.le_value_times (by decide) (by decide) (by decide) (by decide) least
    (le_value_powerOfTen some small)

/-! ## Whole numbers as values -/

namespace WholeText

variable (w : WholeText) (depth : Nat) {rest : List Char}

theorem read_chars (ends : EndsNumber rest) :
    read depth (w.chars ++ rest) =
      readNumberEnd w.negative (takeDigits 0 0 0 w.digits).1 (takeDigits 0 0 0 w.digits).2.2 rest
        >>= fun number => .ok (number.1.toJson, number.2) := by
  rw [← w.wholePart.readMagnitude ends.stopsDigits w.negative, read, chars]
  cases w.negative with
  | true =>
      rw [if_pos rfl, List.cons_append, readWith.eq_def, skipSpace_cons rfl]
      rfl
  | false =>
      obtain ⟨c, ds, digits⟩ := List.exists_cons_of_ne_nil w.nonempty
      have digit : isDigit c = true := w.each c (digits ▸ List.mem_cons_self)
      rw [if_neg Bool.false_ne_true, digits, List.cons_append, readWith_digit digit]
      rfl

/-- A number that has a whole form is read as it is. -/
theorem read_of_form (form : HasWholeForm w.negative w.magnitude) (ends : EndsNumber rest) :
    read depth (w.chars ++ rest) = .ok (.whole w.value, rest) := by
  rw [w.read_chars depth ends, takeDigits_of_fits form.1]
  dsimp only
  rw [← magnitude, readNumberEnd_whole form ends]
  rfl

/-- Another number that fits a word is read as a binary one. -/
theorem read_of_fits (negative : w.negative = true) (fits : w.magnitude < wordBound)
    (formless : w.magnitude = 0 ∨ int64Bound < w.magnitude) (ends : EndsNumber rest) :
    read depth (w.chars ++ rest) = .ok (.real (Binary64.ofRatio true w.magnitude 1), rest) := by
  rw [w.read_chars depth ends, takeDigits_of_fits fits, readNumberEnd_kept ends, negative,
    readNumberEnd.wholeEnd, if_neg (by decide), ← magnitude, if_pos formless]
  rfl

/-- What does not fit a word is read as a binary number far beyond `2 ^ 63`, if at all. -/
theorem read_of_beyond {v : Json} {after : List Char} (beyond : wordBound ≤ w.magnitude)
    (ends : EndsNumber rest) (found : read depth (w.chars ++ rest) = .ok (v, after)) :
    ∃ x, v = .real x ∧ ((3 * 1 : Nat) : ℚ) * 2 ^ (59 + 3 : Int) ≤ x.value := by
  obtain ⟨significand, taken, dropped, digits, some, c, member, full⟩ :=
    takeDigits_of_beyond (by decide) beyond 0
  have digit := digitValue_le (w.each c member)
  rw [w.read_chars depth ends, digits, readNumberEnd_dropped some ends] at found
  obtain ⟨⟨number, after'⟩, real, same⟩ := bind_eq_ok.mp found
  obtain ⟨x, parts, same'⟩ := bind_eq_ok.mp real
  cases same'
  cases same
  exact ⟨x, rfl, le_value_realOfParts (by omega) some parts⟩

end WholeText

end GrantConsole.Json
