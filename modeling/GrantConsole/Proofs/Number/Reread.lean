import GrantConsole.Number.Layout
import GrantConsole.Proofs.Json.Numeral
import GrantConsole.Proofs.Number.Exact

/-!
# Written numbers, read again

The plain text of a finite binary number is read as that number. The shortest decimal rounds to the
number, without the zeros at its end as well as with them, and the text has just the digits and the
point of that decimal.
-/

namespace GrantConsole.Number

open GrantConsole.Json GrantConsole.Text

theorem tenTo_pos (n : Nat) : 0 < tenTo n :=
  Nat.pow_pos (by decide)

theorem cast_tenTo (n : Nat) : ((tenTo n : Nat) : ℚ) = 10 ^ n := by
  rw [tenTo, Nat.pow_eq, Nat.cast_pow, Nat.cast_ofNat]

/-- A power of ten that is beyond the finite range. -/
theorem two_pow_le_ten_pow : (2 : ℚ) ^ 1024 ≤ 10 ^ 310 :=
  calc
    (2 : ℚ) ^ 1024 = (2 ^ 93) ^ 11 * 2 := by rw [← pow_mul, ← pow_succ]
    _ ≤ (10 ^ 28) ^ 11 * 10 ^ 2 := by gcongr <;> norm_num
    _ = 10 ^ 310 := by rw [← pow_mul, ← pow_add]

theorem tenTo_succ (n : Nat) : tenTo (n + 1) = tenTo n * 10 :=
  rfl

namespace Decimal

/-! ## Bits of decimals -/

/-- The bits, without those of a sign, of the number nearest to a decimal. -/
def nearestBits (d : Decimal) : Nat :=
  if d.digits = 0 then 0
  else if 310 < d.exponent then Binary64.infinityBits
  else if d.exponent + width d.digits < -330 then 0
  else Binary64.nearestBits (d.digits * tenTo d.exponent.toNat) (tenTo (-d.exponent).toNat)

theorem nearest_eq (negative : Bool) (d : Decimal) :
    d.nearest negative = Binary64.withSign negative d.nearestBits := by
  unfold nearest nearestBits Binary64.infinity Binary64.ofRatio
  split_ifs <;> rfl

theorem nearestBits_lt (d : Decimal) : d.nearestBits < 2 ^ 63 := by
  have bound : Binary64.infinityBits < 2 ^ 63 := by decide
  have quotient := Binary64.nearestBits_le (d.digits * tenTo d.exponent.toNat)
    (tenTo (-d.exponent).toNat)
  unfold nearestBits
  split_ifs <;> omega

variable {x : Binary64} {d : Decimal}

/-- A decimal with the bits of a number is read as the number, once it has its sign. -/
theorem nearest_of_bits (same : d.nearestBits = x.magnitudeBits) : d.nearest x.signed = x := by
  rw [nearest_eq, same, x.withSign_magnitudeBits]

theorem bits_of_readsBack (reads : readsBack x d = true) : d.nearestBits = x.magnitudeBits := by
  have same : d.nearest false = x.magnitude := eq_of_beq reads
  have small : x.bits.toNat % 2 ^ 63 < 2 ^ 64 := by omega
  rw [nearest_eq] at same
  have bits : (Binary64.withSign false d.nearestBits).bits.toNat = x.magnitude.bits.toNat := by
    rw [same]
  rw [Binary64.toNat_withSign false d.nearestBits_lt] at bits
  rw [Binary64.magnitudeBits, ← Nat.mod_eq_of_lt small]
  exact bits

/-! ## Decimals of one value -/

theorem width_eq {n : Nat} (positive : n ≠ 0) : width n = (Nat.toDigits 10 n).length := by
  rw [width, if_neg positive, natChars_eq]

theorem width_ten_mul {n : Nat} (positive : n ≠ 0) : width (10 * n) = width n + 1 := by
  rw [width_eq positive, width_eq (by omega), Nat.toDigits_of_base_le (by decide) (by omega)]
  simp

theorem lt_tenTo_width (n : Nat) : n < tenTo (width n) := by
  by_cases zero : n = 0
  · subst zero
    decide
  · rw [width_eq zero]
    exact (Nat.length_toDigits_le_iff (by decide) Nat.length_toDigits_pos).mp (Nat.le_refl _)

theorem nearestBits_mul_tenTo_310 {m : Nat} (positive : 0 < m) :
    Binary64.nearestBits (m * tenTo 310) (tenTo 0) = Binary64.infinityBits := by
  refine Binary64.nearestBits_of_large (Nat.mul_pos positive (tenTo_pos _)) (tenTo_pos _) ?_
  have digits : (1 : ℚ) ≤ m := Nat.one_le_cast.mpr positive
  calc
    (2 : ℚ) ^ (1024 : Int) = 2 ^ 1024 := zpow_ofNat 2 1024
    _ ≤ 1 * 10 ^ 310 := by rw [one_mul]; exact two_pow_le_ten_pow
    _ ≤ m * 10 ^ 310 := mul_le_mul_of_nonneg_right digits (by positivity)
    _ = (m * tenTo 310 : Nat) / (tenTo 0 : Nat) := by
      rw [Nat.cast_mul, cast_tenTo, cast_tenTo, pow_zero, div_one]

/-- A factor of ten may stand in the digits or in the exponent. -/
theorem nearestBits_ten_mul (m : Nat) (e : Int) :
    nearestBits ⟨10 * m, e⟩ = nearestBits ⟨m, e + 1⟩ := by
  by_cases zero : m = 0
  · rw [zero, Nat.mul_zero, nearestBits, nearestBits, if_pos rfl, if_pos rfl]
  have positive : 0 < m := Nat.pos_of_ne_zero zero
  unfold nearestBits
  dsimp only
  rw [if_neg (by omega : ¬ 10 * m = 0), if_neg zero, width_ten_mul zero]
  have shift : e + (width m + 1 : Nat) = e + 1 + width m := by push_cast; ring
  rw [shift]
  by_cases huge : 310 < e
  · rw [if_pos huge, if_pos (by omega)]
  rw [if_neg huge]
  by_cases large : 310 < e + 1
  · -- Ten times this power of ten is beyond the finite range.
    obtain rfl : e = 310 := by omega
    rw [if_pos large, if_neg (by omega)]
    exact nearestBits_mul_tenTo_310 (by omega)
  rw [if_neg large]
  split
  · rfl
  · refine Binary64.nearestBits_congr (Nat.mul_pos (by omega) (tenTo_pos _)) (tenTo_pos _)
      (Nat.mul_pos positive (tenTo_pos _)) (tenTo_pos _) ?_
    rcases Int.lt_or_le e 0 with down | up
    · obtain ⟨n, rfl⟩ := Int.eq_negSucc_of_lt_zero down
      have none : (Int.negSucc n).toNat = 0 := rfl
      have none' : (Int.negSucc n + 1).toNat = 0 := by omega
      have places : (-Int.negSucc n).toNat = n + 1 := rfl
      have places' : (-(Int.negSucc n + 1)).toNat = n := by omega
      rw [none, none', places, places', tenTo_succ]
      ring
    · obtain ⟨n, rfl⟩ := Int.eq_ofNat_of_zero_le up
      have next : ((n : Int) + 1).toNat = n + 1 := by omega
      have none : (-(n : Int)).toNat = 0 := by omega
      have none' : (-((n : Int) + 1)).toNat = 0 := by omega
      rw [next, none, none', Int.toNat_natCast, tenTo_succ]
      ring

/-- Zeros at the end of the digits count as powers of ten. -/
theorem nearestBits_mul_tenTo (m : Nat) (e : Int) (k : Nat) :
    nearestBits ⟨m * tenTo k, e⟩ = nearestBits ⟨m, e + k⟩ := by
  induction k generalizing e with
  | zero => simp [tenTo]
  | succ k ih =>
    have digits : m * tenTo (k + 1) = 10 * (m * tenTo k) := by rw [tenTo_succ]; ring
    have exponent : e + 1 + (k : Int) = e + (k + 1 : Nat) := by push_cast; ring
    rw [digits, nearestBits_ten_mul, ih, exponent]

theorem nearestBits_stripZeros (fuel : Nat) (d : Decimal) :
    (stripZeros fuel d).nearestBits = d.nearestBits := by
  induction fuel generalizing d with
  | zero => rfl
  | succ fuel ih =>
    unfold stripZeros
    split
    · rename_i zero
      have digits : 10 * (d.digits / 10) = d.digits := by omega
      rw [ih, ← nearestBits_ten_mul, digits]
    · rfl

/-! ## Shortest decimals -/

theorem readsBack_of_onGrid? {tie : Tie} {unit : Int} (found : onGrid? tie x unit = some d) :
    readsBack x d = true := by
  unfold onGrid? at found
  dsimp only at found
  split at found
  · rename_i below above
    split at found <;> cases found <;> assumption
  · cases found
    assumption
  · cases found
    assumption
  · cases found

theorem two_pow_le_five_pow {w k : Nat} (few : w ≤ 16 * k) : 2 ^ w ≤ 5 ^ (7 * k) :=
  calc
    2 ^ w ≤ 2 ^ (16 * k) := Nat.pow_le_pow_right (by decide) few
    _ = (2 ^ 16) ^ k := Nat.pow_mul ..
    _ ≤ (5 ^ 7) ^ k := Nat.pow_le_pow_left (by decide) k
    _ = 5 ^ (7 * k) := (Nat.pow_mul ..).symm

theorem exact_digits_pos (some : 0 < x.coefficient) : 0 < (exact x).digits :=
  Nat.mul_pos (Nat.mul_pos some (Nat.two_pow_pos _)) (Nat.pow_pos (by decide))

/-- The smallest numbers have their first digit at most 323 places behind the point. -/
theorem exact_width (some : 0 < x.coefficient) :
    -330 ≤ (exact x).exponent + width (exact x).digits := by
  have least : -1074 ≤ x.scale := by
    unfold Binary64.scale
    omega
  have exponent : (exact x).exponent = min x.scale 0 := rfl
  rw [exponent]
  by_contra short
  -- The number of places is at most 1074, and all but 331 of them would be more than the digits.
  generalize places : (-x.scale).toNat = n at *
  have few : width (exact x).digits + 331 ≤ n := by omega
  have many : n ≤ 1074 := by omega
  have digits : 5 ^ n ≤ (exact x).digits := by
    rw [← places]
    exact Nat.le_mul_of_pos_left _ (Nat.mul_pos some (Nat.two_pow_pos _))
  have bound : (exact x).digits < 10 ^ width (exact x).digits := lt_tenTo_width _
  generalize width (exact x).digits = w at *
  obtain ⟨k, fewTwos, fewFives⟩ : ∃ k, w ≤ 16 * k ∧ 7 * k + w ≤ n := ⟨47, by omega, by omega⟩
  have fewer : 10 ^ w ≤ 5 ^ n :=
    calc
      10 ^ w = 2 ^ w * 5 ^ w := (Nat.mul_pow 2 5 w)
      _ ≤ 5 ^ (7 * k) * 5 ^ w := Nat.mul_le_mul_right _ (two_pow_le_five_pow fewTwos)
      _ = 5 ^ (7 * k + w) := (Nat.pow_add 5 _ w).symm
      _ ≤ 5 ^ n := Nat.pow_le_pow_right (by decide) fewFives
  omega

/-- The exact decimal of a number is read as that number. -/
theorem nearestBits_exact (finite : x.isFinite = true) (some : 0 < x.coefficient) :
    (exact x).nearestBits = x.magnitudeBits := by
  have digits := exact_digits_pos some
  have first := exact_width some
  have exponent : (exact x).exponent = min x.scale 0 := rfl
  have whole : (exact x).exponent.toNat = 0 := by omega
  have places : (-(exact x).exponent).toNat = (-x.scale).toNat := by omega
  unfold nearestBits
  rw [if_neg digits.ne', if_neg (by omega), if_neg (by omega), whole, places]
  refine Binary64.nearestBits_of_value finite (Nat.mul_pos digits (tenTo_pos _)) (tenTo_pos _) ?_
  have five : (0 : ℚ) < 5 ^ (-x.scale).toNat := by positivity
  have value : (exact x).digits = x.numerator * 5 ^ (-x.scale).toNat := rfl
  have ten : tenTo (-x.scale).toNat = x.denominator * 5 ^ (-x.scale).toNat := Nat.mul_pow 2 5 _
  rw [x.value_eq_div, value, ten, show tenTo 0 = 1 from rfl, Nat.mul_one]
  push_cast
  exact mul_div_mul_right _ _ five.ne'

theorem nearestBits_shortest (tie : Tie) (finite : x.isFinite = true) (some : 0 < x.coefficient) :
    (shortest tie x).nearestBits = x.magnitudeBits := by
  unfold shortest
  dsimp only
  rw [nearestBits_stripZeros]
  cases found : (List.range 17).findSome? fun (more : Nat) =>
      onGrid? tie x (floorLog10 x.numerator x.denominator - more) with
  | none => exact nearestBits_exact finite some
  | some d =>
    obtain ⟨more, -, onGrid⟩ := List.exists_of_findSome?_eq_some found
    exact bits_of_readsBack (readsBack_of_onGrid? onGrid)

/-! ## Digits of decimals -/

theorem digitsValue_append (start : Nat) (cs others : List Char) :
    digitsValue start (cs ++ others) = digitsValue (digitsValue start cs) others :=
  List.foldl_append

theorem digitsValue_zeros (start k : Nat) : digitsValue start (zeros k) = start * tenTo k := by
  induction k generalizing start with
  | zero => exact (Nat.mul_one start).symm
  | succ k ih =>
    have next : digitsValue start (zeros (k + 1)) = digitsValue (10 * start) (zeros k) := rfl
    rw [next, ih, tenTo_succ]
    ring

theorem isDigit_zeros (k : Nat) : ∀ c ∈ zeros k, isDigit c = true := by
  intro c mem
  rw [(List.mem_replicate.mp mem).2]
  rfl

theorem takeWhile_isDigit {cs : List Char} (digits : ∀ c ∈ cs, isDigit c = true) :
    cs.takeWhile isDigit = cs := by
  simpa using takeWhile_digits digits (show StopsDigits [] from nofun)

theorem dropWhile_isDigit {cs : List Char} (digits : ∀ c ∈ cs, isDigit c = true) :
    cs.dropWhile isDigit = [] := by
  simpa using dropWhile_digits digits (show StopsDigits [] from nofun)

/-- Digits alone are read as a whole number. -/
theorem readDecimal?_digits {cs : List Char} (digits : ∀ c ∈ cs, isDigit c = true)
    (nonempty : cs ≠ []) : readDecimal? cs = some ⟨digitsValue 0 cs, 0⟩ := by
  unfold readDecimal?
  simp [takeWhile_isDigit digits, dropWhile_isDigit digits, nonempty, readExponent?]

/-- The digits behind a point are counted. -/
theorem readDecimal?_point {whole part : List Char} (digits : ∀ c ∈ whole, isDigit c = true)
    (digits' : ∀ c ∈ part, isDigit c = true) (nonempty : whole ≠ []) :
    readDecimal? (whole ++ '.' :: part) =
      some ⟨digitsValue 0 (whole ++ part), -(part.length : Int)⟩ := by
  have stops : StopsDigits ('.' :: part) := fun c first => by
    cases first
    rfl
  have before := takeWhile_digits digits stops
  have after := dropWhile_digits digits stops
  unfold readDecimal?
  simp [before, after, takeWhile_isDigit digits', dropWhile_isDigit digits', nonempty,
    readExponent?]

theorem natChars_ne_nil (n : Nat) : natChars n ≠ [] := by
  rw [natChars_eq]
  exact List.length_pos_iff.mp Nat.length_toDigits_pos

/-- The plain form of a decimal is read as a decimal with the same nearest number. -/
theorem readDecimal?_plainChars (d : Decimal) :
    ∃ read, readDecimal? (d.plainChars []) = some read ∧ read.nearestBits = d.nearestBits := by
  obtain ⟨digits, exponent⟩ := d
  have isDigits := isDigit_natChars digits
  have value := digitsValue_natChars digits
  have nonempty := natChars_ne_nil digits
  unfold plainChars point
  dsimp only
  generalize natChars digits = cs at *
  split
  · -- The digits stand behind the point and zeros.
    rename_i behind
    have part : ∀ c ∈ zeros (-(cs.length + exponent)).toNat ++ cs, isDigit c = true :=
      List.forall_mem_append.mpr ⟨isDigit_zeros _, isDigits⟩
    have whole : ∀ c ∈ ['0'], isDigit c = true := by simp [isDigit]
    have shape (k : Nat) : ['0', '.'] ++ zeros k ++ cs = ['0'] ++ '.' :: (zeros k ++ cs) := rfl
    rw [shape]
    refine ⟨_, readDecimal?_point whole part (List.cons_ne_nil _ _), ?_⟩
    have same : digitsValue 0 (['0'] ++ (zeros (-(cs.length + exponent)).toNat ++ cs)) = digits := by
      have zero : digitsValue 0 ['0'] = 0 := rfl
      rw [digitsValue_append, digitsValue_append, zero, digitsValue_zeros, Nat.zero_mul, value]
    have places : -(((zeros (-(cs.length + exponent)).toNat ++ cs).length : Nat) : Int) =
        exponent := by
      rw [List.length_append, zeros, List.length_replicate]
      omega
    rw [same, places]
  split
  · -- Zeros stand behind the digits.
    rename_i _ before
    have all : ∀ c ∈ cs ++ zeros ((cs.length + exponent).toNat - cs.length), isDigit c = true :=
      List.forall_mem_append.mpr ⟨isDigits, isDigit_zeros _⟩
    rw [List.append_nil]
    refine ⟨_, readDecimal?_digits all (List.append_ne_nil_of_left_ne_nil nonempty _), ?_⟩
    have count : 0 + (((cs.length + exponent).toNat - cs.length : Nat) : Int) = exponent := by
      omega
    rw [digitsValue_append, digitsValue_zeros, value, nearestBits_mul_tenTo, count]
  · -- The point stands among the digits.
    rename_i inside before
    have both := List.take_append_drop (cs.length + exponent).toNat cs
    have digits' : ∀ c ∈ cs.take (cs.length + exponent).toNat ++
        cs.drop (cs.length + exponent).toNat, isDigit c = true := by rwa [both]
    obtain ⟨whole, part⟩ := List.forall_mem_append.mp digits'
    have some : cs.take (cs.length + exponent).toNat ≠ [] := by
      rw [Ne, List.take_eq_nil_iff]
      rintro (none | none)
      · omega
      · exact nonempty none
    rw [List.append_assoc, List.singleton_append]
    refine ⟨_, readDecimal?_point whole part some, ?_⟩
    have places : -((cs.drop (cs.length + exponent).toNat).length : Int) = exponent := by
      rw [List.length_drop]
      omega
    rw [both, value, places]

theorem plainChars_head (d : Decimal) :
    ∃ c rest, d.plainChars [] = c :: rest ∧ isDigit c = true := by
  obtain ⟨c, rest, chars⟩ := List.exists_cons_of_ne_nil (natChars_ne_nil d.digits)
  have digit : isDigit c = true :=
    isDigit_natChars d.digits c (chars ▸ List.mem_cons_self)
  unfold plainChars
  dsimp only
  rw [chars]
  split
  · exact ⟨'0', _, rfl, rfl⟩
  split
  · exact ⟨c, _, rfl, digit⟩
  · rename_i inside _
    obtain ⟨p, place⟩ : ∃ p, d.point.toNat = p + 1 := ⟨d.point.toNat - 1, by omega⟩
    rw [place, List.take_succ_cons]
    exact ⟨c, _, rfl, digit⟩

theorem mem_plainChars (d : Decimal) {c : Char} (mem : c ∈ d.plainChars []) :
    isDigit c = true ∨ c = '.' := by
  have digits := isDigit_natChars d.digits
  unfold plainChars at mem
  dsimp only at mem
  split at mem
  · rcases List.mem_append.mp mem with mem | mem
    · rcases List.mem_append.mp mem with mem | mem
      · rcases List.mem_pair.mp mem with rfl | rfl
        · exact .inl rfl
        · exact .inr rfl
      · exact .inl (isDigit_zeros _ c mem)
    · exact .inl (digits c mem)
  split at mem
  · rw [List.append_nil] at mem
    exact .inl ((List.mem_append.mp mem).elim (digits c) (isDigit_zeros _ c))
  · rcases List.mem_append.mp mem with mem | mem
    · rcases List.mem_append.mp mem with mem | mem
      · exact .inl (digits c (List.mem_of_mem_take mem))
      · exact .inr (List.mem_singleton.mp mem)
    · exact .inl (digits c (List.mem_of_mem_drop mem))

end Decimal

/-! ## Texts of numbers -/

theorem readBinary64?_signChars (negative : Bool) {c : Char} (digit : isDigit c = true)
    (rest : List Char) :
    readBinary64? (signChars negative ++ c :: rest) = readMagnitude? negative (c :: rest) := by
  cases negative with
  | true => rfl
  | false =>
    have plus : c ≠ '+' := by
      rintro rfl
      cases digit
    have minus : c ≠ '-' := by
      rintro rfl
      cases digit
    change readBinary64? (c :: rest) = _
    unfold readBinary64?
    split
    · rename_i same
      exact absurd (List.cons.inj same).1 plus
    · rename_i same
      exact absurd (List.cons.inj same).1 minus
    · rfl

namespace Binary64

variable {x : Binary64}

theorem coefficient_pos (some : x.isZero = false) : 0 < x.coefficient := by
  unfold coefficient
  split
  · rename_i zero
    have fraction : x.fraction ≠ 0 := by simpa [isZero, zero] using some
    omega
  · exact Nat.add_pos_left (Nat.two_pow_pos _) _

theorem eq_withSign_of_isZero (zero : x.isZero = true) : withSign x.signed 0 = x := by
  obtain ⟨exponent, fraction⟩ := (Bool.and_eq_true _ _).mp zero
  have bits : x.magnitudeBits = 0 := by
    rw [magnitudeBits_eq, eq_of_beq exponent, eq_of_beq fraction, Nat.zero_mul]
  rw [← bits, withSign_magnitudeBits]

/-- The characters of a finite number, with its sign. -/
def plainDigits (x : Binary64) : List Char :=
  if x.isZero then ['0'] else (Decimal.shortest .up x).plainChars []

theorem plainText_eq (finite : x.isFinite = true) :
    x.plainText = String.ofList (signChars x.signed ++ x.plainDigits) := by
  unfold plainText plainDigits
  rw [isNaN_of_isFinite finite, finite]
  cases x.isZero <;> rfl

/-- The plain text of a finite number is read as that number. -/
theorem readBinary64?_plainText (finite : x.isFinite = true) :
    readBinary64? x.plainText.toList = some x := by
  rw [plainText_eq finite, String.toList_ofList, plainDigits]
  cases zero : x.isZero with
  | true =>
    rw [if_pos rfl, readBinary64?_signChars x.signed rfl]
    exact congrArg some (eq_withSign_of_isZero zero)
  | false =>
    rw [if_neg Bool.false_ne_true]
    obtain ⟨read, decimal, bits⟩ := Decimal.readDecimal?_plainChars (Decimal.shortest .up x)
    obtain ⟨c, rest, chars, digit⟩ := Decimal.plainChars_head (Decimal.shortest .up x)
    rw [chars, readBinary64?_signChars x.signed digit, ← chars, readMagnitude?, decimal]
    exact congrArg some (Decimal.nearest_of_bits
      (bits.trans (Decimal.nearestBits_shortest .up finite (coefficient_pos zero))))

/-- The plain text of a finite number has digits, a point and a sign alone. -/
theorem mem_plainText (finite : x.isFinite = true) {c : Char} (mem : c ∈ x.plainText.toList) :
    isDigit c = true ∨ c = '.' ∨ c = '-' := by
  rw [plainText_eq finite, String.toList_ofList] at mem
  rcases List.mem_append.mp mem with sign | mem
  · refine .inr (.inr ?_)
    unfold signChars at sign
    split at sign
    · exact List.mem_singleton.mp sign
    · cases sign
  · unfold plainDigits at mem
    split at mem
    · exact .inl (List.mem_singleton.mp mem ▸ rfl)
    · exact (Decimal.mem_plainChars _ mem).imp_right .inl

end Binary64

end GrantConsole.Number
