import GrantConsole.Form.Basic
import GrantConsole.Proofs.Json.Written
import GrantConsole.Proofs.Number.Cents
import GrantConsole.Proofs.Number.Reread

/-!
# Amounts as they are shown

An amount is shown by its hundredths: the whole part in groups of three, a point and two places. The
text without its commas is the plain numeral, and it is read again, as the number nearest to these
hundredths. The sign is that of the amount itself, so amounts that are equal when they are rounded
look equal, except on the two sides of zero.
-/

namespace GrantConsole

open GrantConsole.Json GrantConsole.Number GrantConsole.Text

namespace Number

/-! ## Numerals -/

/-- The digits denote the number, and no zeros stand before them in vain. -/
structure IsNumeral (cs : List Char) (n : Nat) : Prop where
  whole : WholePart cs
  value : decimalValue cs = n

/-- Two digits that denote the number. -/
structure IsPlaces (cs : List Char) (n : Nat) : Prop where
  digits : Digits cs
  two : cs.length = 2
  value : decimalValue cs = n

theorem decimalValue_eq (cs : List Char) : decimalValue cs = digitsValue 0 cs := by
  rw [digitsValue_eq, Nat.mul_zero, Nat.add_zero]

theorem isNumeral_natChars (n : Nat) : IsNumeral (natChars n) n :=
  ⟨wholePart_natChars n, (decimalValue_eq _).trans (digitsValue_natChars n)⟩

theorem ne_comma_of_isDigit {c : Char} (digit : isDigit c = true) : (c != ',') = true := by
  rw [bne_iff_ne]
  rintro rfl
  cases digit

theorem IsNumeral.digits {cs : List Char} {n : Nat} (numeral : IsNumeral cs n) : Digits cs := by
  obtain ⟨whole, -⟩ := numeral
  cases whole with
  | zero => exact ⟨List.cons_ne_nil _ _, by simp [isDigit]⟩
  | digits digits => exact digits

theorem isPlaces_twoDigits {n : Nat} (small : n < 100) : IsPlaces (twoDigits n) n := by
  have digits := (isNumeral_natChars n).digits
  have value := (isNumeral_natChars n).value
  unfold twoDigits
  split
  · rename_i one
    refine ⟨⟨List.cons_ne_nil _ _, List.forall_mem_cons.mpr ⟨rfl, digits.each⟩⟩, ?_, ?_⟩
    · rw [natChars_eq, Nat.toDigits_of_lt_base one]
      rfl
    · rwa [decimalValue_eq] at value ⊢
  · rename_i two
    refine ⟨digits, ?_, value⟩
    rw [natChars_eq, Nat.toDigits_of_base_le (by decide) (by omega),
      Nat.toDigits_of_lt_base (by omega)]
    rfl

/-! ## Groups of three -/

/-- The text has the digits, with a comma before each group of three but a first one, counted from
the end. -/
inductive Grouped : List Char → List Char → Prop
  | first {group : List Char} (some : group ≠ []) (few : group.length ≤ 3) : Grouped group group
  | next {digits text group : List Char} (before : Grouped digits text)
      (three : group.length = 3) : Grouped (digits ++ group) (text ++ ',' :: group)

namespace Grouped

variable {digits text : List Char}

theorem single (c : Char) : Grouped [c] [c] :=
  .first (List.cons_ne_nil _ _) (Nat.le_add_left 1 2)

/-- A digit in front stands alone before full groups, and joins a first group that is not full. -/
theorem cons (c : Char) (grouped : Grouped digits text) :
    Grouped (c :: digits) (if digits.length % 3 = 0 then c :: ',' :: text else c :: text) := by
  induction grouped with
  | @first group some few =>
      have count : 0 < group.length := List.length_pos_iff.mpr some
      split
      · exact (single c).next (by omega)
      · exact .first (List.cons_ne_nil _ _) (by rw [List.length_cons]; omega)
  | @next digits text group before three ih =>
      have same : (digits ++ group).length % 3 = digits.length % 3 := by
        rw [List.length_append]
        omega
      rw [same]
      split at ih <;> rename_i full
      · exact (if_pos full).symm ▸ ih.next three
      · exact (if_neg full).symm ▸ ih.next three

/-- A test that commas fail and digits pass takes the commas out again. -/
theorem filter (grouped : Grouped digits text) {p : Char → Bool} (comma : p ',' = false)
    (each : ∀ c ∈ digits, p c = true) : text.filter p = digits := by
  induction grouped with
  | first => exact List.filter_eq_self.mpr each
  | next before three ih =>
      obtain ⟨front, last⟩ := List.forall_mem_append.mp each
      rw [List.filter_append, ih front, List.filter_cons_of_neg (by simp [comma]),
        List.filter_eq_self.mpr last]

theorem mem (grouped : Grouped digits text) {c : Char} (member : c ∈ text) :
    c ∈ digits ∨ c = ',' := by
  induction grouped with
  | first => exact .inl member
  | next before three ih =>
      rcases List.mem_append.mp member with front | last
      · exact (ih front).imp_left (List.mem_append_left _)
      · rcases List.mem_cons.mp last with comma | last
        · exact .inr comma
        · exact .inl (List.mem_append_right _ last)

end Grouped

theorem grouped_groupDigits {cs : List Char} (some : cs ≠ []) : Grouped cs (groupDigits cs) := by
  induction cs with
  | nil => exact absurd rfl some
  | cons c cs ih =>
      cases cs with
      | nil => exact .single c
      | cons d ds =>
          have longer := (ih (List.cons_ne_nil d ds)).cons c
          unfold groupDigits
          simpa using longer

/-! ## Amounts without a sign -/

/-- The parts of an amount of so many hundredths: the whole part, plain and in groups, and the
places. -/
structure ShowsCents (cents : Nat) (whole grouped places : List Char) : Prop where
  numeral : IsNumeral whole (cents / 100)
  grouped : Grouped whole grouped
  places : IsPlaces places (cents % 100)

theorem showsCents (cents : Nat) :
    ShowsCents cents (natChars (cents / 100)) (groupDigits (natChars (cents / 100)))
      (twoDigits (cents % 100)) where
  numeral := isNumeral_natChars _
  grouped := grouped_groupDigits (Decimal.natChars_ne_nil _)
  places := isPlaces_twoDigits (Nat.mod_lt _ (by decide))

namespace ShowsCents

variable {cents : Nat} {whole grouped places : List Char}

theorem value (shows_ : ShowsCents cents whole grouped places) :
    digitsValue 0 (whole ++ places) = cents := by
  have hundreds := shows_.numeral.value
  have rest := shows_.places.value
  rw [decimalValue_eq] at hundreds
  rw [Decimal.digitsValue_append, hundreds, digitsValue_eq, rest, shows_.places.two]
  omega

theorem filter (shows_ : ShowsCents cents whole grouped places) {p : Char → Bool}
    (comma : p ',' = false) (each : ∀ c, isDigit c = true → p c = true) :
    (grouped ++ '.' :: places).filter p = whole ++ (['.'].filter p ++ places) := by
  have front := shows_.grouped.filter comma fun c mem => each c (shows_.numeral.digits.each c mem)
  have last : places.filter p = places :=
    List.filter_eq_self.mpr fun c mem => each c (shows_.places.digits.each c mem)
  rw [List.filter_append, front, ← List.singleton_append, List.filter_append, last]

theorem mem (shows_ : ShowsCents cents whole grouped places) {c : Char}
    (member : c ∈ grouped ++ '.' :: places) : isDigit c = true ∨ c = ',' ∨ c = '.' := by
  rcases List.mem_append.mp member with front | last
  · exact (shows_.grouped.mem front).imp (shows_.numeral.digits.each c) .inl
  · rcases List.mem_cons.mp last with point | last
    · exact .inr (.inr point)
    · exact .inl (shows_.places.digits.each c last)

end ShowsCents

namespace Binary64

variable {x y : Binary64}

/-! ## Amounts with their sign -/

theorem toList_moneyText (finite : x.isFinite = true) :
    x.moneyText.toList = signChars x.isNegative ++
      (groupDigits (natChars (x.cents / 100)) ++ '.' :: twoDigits (x.cents % 100)) := by
  rw [moneyText, String.toList_ofList, moneyChars, isNaN_of_isFinite finite, finite]
  simp

theorem digitsValue_moneyText (finite : x.isFinite = true) :
    digitsValue 0 (x.moneyText.toList.filter isDigit) = x.cents := by
  have sign : (signChars x.isNegative).filter isDigit = [] := by
    cases x.isNegative <;> rfl
  rw [toList_moneyText finite, List.filter_append, sign,
    (showsCents x.cents).filter rfl fun _ digit => digit]
  exact (showsCents x.cents).value

/-- A minus sign stands before the amounts below zero. -/
theorem minus_mem_moneyText (finite : x.isFinite = true) :
    '-' ∈ x.moneyText.toList ↔ x.isNegative = true := by
  have unsigned : '-' ∉ groupDigits (natChars (x.cents / 100)) ++
      '.' :: twoDigits (x.cents % 100) := by
    intro minus
    rcases (showsCents x.cents).mem minus with digit | comma | point
    · cases digit
    · cases comma
    · cases point
  rw [toList_moneyText finite, List.mem_append, or_iff_left unsigned]
  cases x.isNegative <;> simp [signChars]

/-- The text of an amount shows its hundredths and its sign, and nothing else. -/
theorem moneyText_inj (finite : x.isFinite = true) (finite' : y.isFinite = true) :
    x.moneyText = y.moneyText ↔ x.isNegative = y.isNegative ∧ x.cents = y.cents := by
  constructor
  · intro same
    refine ⟨?_, ?_⟩
    · rw [Bool.eq_iff_iff, ← minus_mem_moneyText finite, ← minus_mem_moneyText finite', same]
    · rw [← digitsValue_moneyText finite, ← digitsValue_moneyText finite', same]
  · rintro ⟨sign, cents⟩
    rw [← String.toList_inj, toList_moneyText finite, toList_moneyText finite', sign, cents]

/-! ## Rounded amounts -/

/-- The exact value of a finite number. -/
def exactValue (x : Binary64) : ℚ :=
  if x.signed then -x.value else x.value

theorem isNegative_iff (finite : x.isFinite = true) : x.isNegative = true ↔ x.exactValue < 0 := by
  have number := isNaN_of_isFinite finite
  unfold isNegative exactValue
  rw [number]
  cases zero : x.isZero with
  | true => simp [value_of_isZero zero]
  | false =>
    have positive : 0 < x.value :=
      mul_pos (Nat.cast_pos.mpr (coefficient_pos zero)) (zpow_two_pos _)
    cases x.signed with
    | true => simpa using positive
    | false => simpa using positive.le

theorem nearestWhole_exactValue (x : Binary64) :
    NearestWhole (100 * x.exactValue) (signedWhole x.signed x.cents) := by
  unfold exactValue signedWhole
  split
  · rw [mul_neg]
    exact x.nearestWhole_cents.neg
  · exact x.nearestWhole_cents

theorem natAbs_of_nearestWhole {n : Int} (rounded : NearestWhole (100 * x.exactValue) n) :
    n.natAbs = x.cents := by
  have same := rounded.unique x.nearestWhole_exactValue
  unfold signedWhole at same
  split at same <;> omega

/-- Rounding keeps the sign of an amount that it does not round to zero. -/
theorem negative_iff_of_nearestWhole {n : Int} (rounded : NearestWhole (100 * x.exactValue) n)
    (some : n ≠ 0) : x.exactValue < 0 ↔ n < 0 := by
  constructor
  · intro negative
    have least := rounded.neg.nonneg (by linarith)
    omega
  · intro negative
    by_contra positive
    have least := rounded.nonneg (by linarith)
    omega

/-- Amounts with the same rounded hundredths look equal, except that one below zero and one that is
not look different when both are rounded to zero. A minus sign stands before every amount that is
below zero when it is rounded, and before those below zero that are rounded to it. -/
theorem moneyText_eq_iff_rounded (finite : x.isFinite = true) (finite' : y.isFinite = true)
    {m n : Int} (rounded : NearestWhole (100 * x.exactValue) m)
    (rounded' : NearestWhole (100 * y.exactValue) n) :
    (x.moneyText = y.moneyText ↔ m = n ∧ (m = 0 → (x.exactValue < 0 ↔ y.exactValue < 0))) ∧
      ('-' ∈ x.moneyText.toList ↔ m < 0 ∨ m = 0 ∧ x.exactValue < 0) := by
  have cents := natAbs_of_nearestWhole rounded
  have cents' := natAbs_of_nearestWhole rounded'
  have below := negative_iff_of_nearestWhole rounded
  have below' := negative_iff_of_nearestWhole rounded'
  rw [moneyText_inj finite finite', minus_mem_moneyText finite, Bool.eq_iff_iff,
    isNegative_iff finite, isNegative_iff finite', ← cents, ← cents']
  refine ⟨⟨?_, ?_⟩, ?_⟩
  · rintro ⟨sign, size⟩
    refine ⟨?_, fun _ => sign⟩
    -- Different numbers of one size are on the two sides of zero.
    by_contra different
    have some : m ≠ 0 ∧ n ≠ 0 := by omega
    rw [below some.1, below' some.2] at sign
    omega
  · rintro ⟨rfl, sign⟩
    refine ⟨?_, rfl⟩
    by_cases none : m = 0
    · exact sign none
    · rw [below none, below' none]
  · by_cases none : m = 0
    · simp [none]
    · rw [below none]
      simp [none]

/-- An eighth is a tie, which goes to the even number of hundredths. -/
theorem moneyText_eq_iff_rounded_eighth :
    let eighth : Binary64 := ⟨0x3FC0000000000000⟩
    let twelve : Binary64 := ⟨0x3FBEB851EB851EB8⟩
    (eighth.isFinite = true ∧ twelve.isFinite = true) ∧
      (NearestWhole (100 * eighth.exactValue) 12 ∧ NearestWhole (100 * twelve.exactValue) 12) ∧
      eighth.moneyText = twelve.moneyText ∧ '-' ∉ eighth.moneyText.toList := by
  intro eighth twelve
  have finite : eighth.isFinite = true ∧ twelve.isFinite = true := by decide
  have rounded : NearestWhole (100 * eighth.exactValue) 12 :=
    (by decide : signedWhole eighth.signed eighth.cents = 12) ▸ eighth.nearestWhole_exactValue
  have rounded' : NearestWhole (100 * twelve.exactValue) 12 :=
    (by decide : signedWhole twelve.signed twelve.cents = 12) ▸ twelve.nearestWhole_exactValue
  obtain ⟨same, sign⟩ := moneyText_eq_iff_rounded finite.1 finite.2 rounded rounded'
  exact ⟨finite, ⟨rounded, rounded'⟩, same.mpr ⟨rfl, by decide⟩, by rw [sign]; decide⟩

/-- A thousandth below zero and a thousandth above it are rounded to zero, and look different. -/
theorem moneyText_parts_zeros :
    let below : Binary64 := ⟨0xBF50624DD2F1A9FC⟩
    let above : Binary64 := ⟨0x3F50624DD2F1A9FC⟩
    (below.isFinite = true ∧ above.isFinite = true) ∧
      (NearestWhole (100 * below.exactValue) 0 ∧ NearestWhole (100 * above.exactValue) 0) ∧
      below.moneyText = "-0.00" ∧ above.moneyText = "0.00" := by
  intro below above
  have rounded : NearestWhole (100 * below.exactValue) 0 :=
    (by decide : signedWhole below.signed below.cents = 0) ▸ below.nearestWhole_exactValue
  have rounded' : NearestWhole (100 * above.exactValue) 0 :=
    (by decide : signedWhole above.signed above.cents = 0) ▸ above.nearestWhole_exactValue
  exact ⟨by decide, ⟨rounded, rounded'⟩, by decide, by decide⟩

end Binary64

end Number

/-! ## Amounts, read again -/

/-- A text without blanks is read by its characters, the commas left out. -/
theorem readAmountText_eq_ok {s : String} {x : Binary64}
    (plain : ∀ c ∈ s.toList, isBlank c = false)
    (read : readBinary64? (s.toList.filter (· != ',')) = some x) (finite : x.isFinite = true) :
    readAmountText s = .ok x := by
  have bare : Bare s.toList :=
    ⟨fun c first => plain c (List.mem_of_mem_head? first),
      fun c last => plain c (List.mem_of_mem_getLast? last)⟩
  rw [readAmountText, trim_of_bare bare, read]
  exact if_pos finite

theorem nearest_hundredths (negative : Bool) (cents : Nat) :
    Decimal.nearest negative ⟨cents, -2⟩ = Binary64.ofRatio negative cents 100 := by
  unfold Decimal.nearest
  dsimp only
  split
  · rename_i none
    rw [none]
    rfl
  · have whole : tenTo (-2 : Int).toNat = 1 := rfl
    have hundred : tenTo (- -2 : Int).toNat = 100 := rfl
    rw [if_neg (by decide), if_neg (by omega), whole, hundred, Nat.mul_one]

theorem readBinary64?_of_showsCents {cents : Nat} {whole grouped places : List Char}
    (shows_ : ShowsCents cents whole grouped places) (negative : Bool) :
    readBinary64? (signChars negative ++ (whole ++ '.' :: places)) =
      some (.ofRatio negative cents 100) := by
  have digits := shows_.numeral.digits
  obtain ⟨c, rest, chars⟩ := List.exists_cons_of_ne_nil digits.some
  have first : isDigit c = true := digits.each c (chars ▸ List.mem_cons_self)
  have decimal := Decimal.readDecimal?_point digits.each shows_.places.digits.each digits.some
  rw [shows_.value, shows_.places.two] at decimal
  rw [chars, List.cons_append, readBinary64?_signChars negative first, ← List.cons_append, ← chars,
    readMagnitude?, decimal]
  exact congrArg some (nearest_hundredths negative cents)

theorem isBlank_moneyText {x : Binary64} (finite : x.isFinite = true) {c : Char}
    (member : c ∈ x.moneyText.toList) : isBlank c = false := by
  rw [Binary64.toList_moneyText finite, List.mem_append] at member
  rcases member with sign | member
  · unfold signChars at sign
    split at sign
    · rw [List.mem_singleton.mp sign]
      rfl
    · cases sign
  · rcases (showsCents x.cents).mem member with digit | rfl | rfl
    · exact isBlank_of_isDigit digit
    · rfl
    · rfl

/-- The text of a finite amount shows its hundredths, rounded from the exact magnitude, and they
are what is read from it. -/
theorem moneyText_shows_cents {x : Binary64} (finite : x.isFinite = true) :
    NearestWhole (100 * x.value) x.cents ∧
      ∃ whole grouped places, ShowsCents x.cents whole grouped places ∧
        x.moneyText.toList = signChars x.isNegative ++ (grouped ++ '.' :: places) ∧
        x.moneyText.toList.filter (· != ',') = signChars x.isNegative ++ (whole ++ '.' :: places) ∧
        readAmountText x.moneyText = .ok (.ofRatio x.isNegative x.cents 100) := by
  have shown := showsCents x.cents
  have text := Binary64.toList_moneyText finite
  have plain : x.moneyText.toList.filter (· != ',') = signChars x.isNegative ++
      (natChars (x.cents / 100) ++ '.' :: twoDigits (x.cents % 100)) := by
    have sign : (signChars x.isNegative).filter (· != ',') = signChars x.isNegative := by
      cases x.isNegative <;> rfl
    rw [text, List.filter_append, sign, shown.filter rfl fun _ => ne_comma_of_isDigit]
    rfl
  refine ⟨x.nearestWhole_cents, _, _, _, shown, text, plain, ?_⟩
  refine readAmountText_eq_ok (fun c => isBlank_moneyText finite) ?_ ?_
  · rw [plain]
    exact readBinary64?_of_showsCents shown x.isNegative
  · exact Binary64.isFinite_withSign _ (Binary64.nearestBits_cents_lt finite)

/-- Rounding carries through all of the digits. -/
theorem moneyText_shows_cents_carry :
    let x : Binary64 := ⟨0x412E847FFF7CED91⟩
    x.isFinite = true ∧ NearestWhole (100 * x.value) 100000000 ∧ x.moneyText = "1,000,000.00" ∧
      readAmountText "1,000,000.00" = .ok (.ofRatio false 100000000 100) := by
  intro x
  have finite : x.isFinite = true := by decide
  have text : x.moneyText = "1,000,000.00" := by decide
  have cents : x.cents = 100000000 := by decide
  have positive : x.isNegative = false := by decide
  obtain ⟨rounded, whole, grouped, places, -, -, -, read⟩ := moneyText_shows_cents finite
  rw [cents] at rounded
  rw [text, cents, positive] at read
  exact ⟨finite, rounded, text, read⟩

end GrantConsole
