import GrantConsole.Json.Digits
import GrantConsole.Proofs.Json.Quoted

/-!
# Numbers, written and read

The digits of a whole number that fits 64 bits are read back as that number. A number that can be
read can also be passed over, up to the same place.
-/

namespace GrantConsole.Json

open GrantConsole.Number GrantConsole.Text

/-! ## Digits -/

theorem isDigit_of_isDigit {c : Char} (digit : c.isDigit = true) : isDigit c = true := by
  simpa [isDigit, Char.isDigit, Char.le_def] using digit

theorem natChars_eq (n : Nat) : natChars n = Nat.toDigits 10 n := by
  rw [natChars, Nat.toString_eq_repr, Nat.toList_repr]

theorem isDigit_natChars (n : Nat) : ∀ c ∈ natChars n, isDigit c = true := by
  intro c member
  rw [natChars_eq] at member
  exact isDigit_of_isDigit (Nat.isDigit_of_mem_toDigits (by decide) (by decide) member)

theorem digitsValue_natChars (n : Nat) : digitsValue 0 (natChars n) = n := by
  rw [natChars_eq]
  exact (Nat.ofDigitChars_eq_foldl).symm.trans Nat.ofDigitChars_ten_toDigits

/-- The digits of a number that is not zero start with one that is not zero. -/
theorem natChars_head {n : Nat} (positive : n ≠ 0) :
    ∃ c rest, natChars n = c :: rest ∧ c ≠ '0' ∧ isDigit c = true := by
  rw [natChars_eq]
  induction n using Nat.strongRecOn with
  | ind n ih =>
      by_cases small : n < 10
      · refine ⟨n.digitChar, [], Nat.toDigits_of_lt_base small, ?_, ?_⟩
        · have : ∀ n < 10, n ≠ 0 → n.digitChar ≠ '0' := by decide
          exact this n small positive
        · have : ∀ n < 10, isDigit n.digitChar = true := by decide
          exact this n small
      · obtain ⟨c, rest, digits, rest'⟩ := ih (n / 10) (by omega) (by omega)
        rw [Nat.toDigits_of_base_le (by decide) (by omega), digits]
        exact ⟨c, _, rfl, rest'⟩

theorem le_digitsValue (start : Nat) (cs : List Char) : start ≤ digitsValue start cs := by
  induction cs generalizing start with
  | nil => exact Nat.le_refl start
  | cons c cs ih =>
      have first : start ≤ 10 * start + digitValue c := by omega
      exact Nat.le_trans first (ih _)

/-- Digits whose value fits a word are all taken into the significand. -/
theorem takeDigits_of_fits {start : Nat} {cs : List Char} (fits : digitsValue start cs < wordBound)
    (taken : Nat) :
    takeDigits start taken 0 cs = (digitsValue start cs, taken + cs.length, 0) := by
  induction cs generalizing start taken with
  | nil => rfl
  | cons c cs ih =>
      have next : 10 * start + digitValue c < wordBound :=
        Nat.lt_of_le_of_lt (le_digitsValue _ cs) fits
      rw [takeDigits, if_pos ⟨rfl, next⟩, ih fits, List.length_cons, Nat.add_right_comm]
      rfl

/-! ## Whole numbers -/

/-- A number that ends here does not go on with the text. -/
def EndsNumber (rest : List Char) : Prop :=
  ∀ c ∈ rest.head?, isDigit c = false ∧ c ≠ '.' ∧ c ≠ 'e' ∧ c ≠ 'E'

/-- The digits before a text end where it starts. -/
def StopsDigits (rest : List Char) : Prop :=
  ∀ c ∈ rest.head?, isDigit c = false

theorem EndsNumber.stopsDigits {rest : List Char} (ends : EndsNumber rest) : StopsDigits rest :=
  fun c first => (ends c first).1

theorem takeWhile_digits {ds rest : List Char} (digits : ∀ c ∈ ds, isDigit c = true)
    (stops : StopsDigits rest) : (ds ++ rest).takeWhile isDigit = ds := by
  rw [List.takeWhile_append_of_pos digits]
  cases rest with
  | nil => simp
  | cons c rest => simp [stops c rfl]

theorem dropWhile_digits {ds rest : List Char} (digits : ∀ c ∈ ds, isDigit c = true)
    (stops : StopsDigits rest) : (ds ++ rest).dropWhile isDigit = rest := by
  rw [List.dropWhile_append_of_pos digits]
  cases rest with
  | nil => rfl
  | cons c rest => simp [stops c rfl]

/-- The whole number of a significand that fits 64 bits with its sign. -/
def signedWhole (negative : Bool) (n : Nat) : Int :=
  if negative then -n else n

/-- The number has a whole form: it fits a word, and a negative one is not zero. -/
def HasWholeForm (negative : Bool) (n : Nat) : Prop :=
  n < wordBound ∧ (negative = true → n ≠ 0 ∧ n ≤ int64Bound)

theorem readNumberEnd_whole {negative : Bool} {n : Nat} (form : HasWholeForm negative n)
    {rest : List Char} (ends : EndsNumber rest) :
    readNumberEnd negative n 0 rest = .ok (.whole (signedWhole negative n), rest) := by
  have wholeEnd : readNumberEnd.wholeEnd negative n rest =
      .ok (.whole (signedWhole negative n), rest) := by
    unfold readNumberEnd.wholeEnd signedWhole
    cases negative with
    | false => rfl
    | true =>
        have outside : ¬ (n = 0 ∨ int64Bound < n) := by
          have := form.2 rfl
          omega
        simp [outside]
  cases rest with
  | nil => exact wholeEnd
  | cons c rest =>
      obtain ⟨-, point, small, large⟩ := ends c rfl
      rw [readNumberEnd]
      · rw [if_neg (by simp [small, large])]
        exact wholeEnd
      · exact point

theorem readMagnitude_natChars {negative : Bool} {n : Nat} (form : HasWholeForm negative n)
    {rest : List Char} (ends : EndsNumber rest) :
    readMagnitude negative (natChars n ++ rest) =
      .ok (.whole (signedWhole negative n), rest) := by
  by_cases zero : n = 0
  · subst zero
    change readMagnitude negative ('0' :: rest) = _
    unfold readMagnitude
    cases rest with
    | nil => exact readNumberEnd_whole form ends
    | cons c rest =>
        simp only [(ends c rfl).1, Bool.false_eq_true, if_false]
        exact readNumberEnd_whole form ends
  · obtain ⟨c, ds, chars, nonzero, digit⟩ := natChars_head zero
    have fits : digitsValue 0 (natChars n) < wordBound := by
      rw [digitsValue_natChars]
      exact form.1
    have taken := takeDigits_of_fits fits 0
    have before := takeWhile_digits (isDigit_natChars n) ends.stopsDigits
    have after := dropWhile_digits (isDigit_natChars n) ends.stopsDigits
    rw [digitsValue_natChars] at taken
    rw [chars] at taken before after ⊢
    rw [List.cons_append] at before after ⊢
    rw [readMagnitude, if_pos digit, before, after, taken]
    · exact readNumberEnd_whole form ends
    · exact nonzero

theorem skipRealEnd_of_ends {rest : List Char} (ends : EndsNumber rest) :
    skipRealEnd rest = .ok rest := by
  cases rest with
  | nil => rfl
  | cons c rest =>
      obtain ⟨-, -, small, large⟩ := ends c rfl
      rw [skipRealEnd, if_neg (by simp [small, large])]

/-! ## Passing over -/

/-- An exponent has a digit after its sign, if it has a sign. -/
theorem readExponentDigits_eq_ok {cs rest : List Char} {n : Int}
    (read : readExponentDigits cs = .ok (n, rest)) :
    ∃ c ds, isDigit c = true ∧ rest = ds.dropWhile isDigit ∧
      (cs = c :: ds ∨ cs = '+' :: c :: ds ∨ cs = '-' :: c :: ds) := by
  unfold readExponentDigits at read
  split at read
  rename_i negative digits signed
  have sign : cs = digits ∨ cs = '+' :: digits ∨ cs = '-' :: digits := by
    split at signed <;> cases signed <;> simp
  cases digits with
  | nil => cases read
  | cons c ds =>
      dsimp only at read
      split at read
      · rename_i digit
        obtain ⟨-, rfl⟩ := Prod.mk.inj (Except.ok.inj read)
        exact ⟨c, ds, digit, List.dropWhile_cons_of_pos digit, sign⟩
      · cases read

theorem skipExponent_of_readExponentDigits {cs rest : List Char} {n : Int}
    (read : readExponentDigits cs = .ok (n, rest)) : skipExponent cs = .ok rest := by
  obtain ⟨c, ds, digit, rfl, rfl | rfl | rfl⟩ := readExponentDigits_eq_ok read
  · have plus : c ≠ '+' := by
      rintro rfl
      cases digit
    have minus : c ≠ '-' := by
      rintro rfl
      cases digit
    unfold skipExponent
    split
    · rename_i same
      exact absurd (List.cons.inj same).1 plus
    · rename_i same
      exact absurd (List.cons.inj same).1 minus
    · exact if_pos digit
  · exact if_pos digit
  · exact if_pos digit

theorem skipRealEnd_of_readRealEnd {negative : Bool} {significand : Nat} {exponent : Int}
    {cs rest : List Char} {n : Numeral}
    (read : readRealEnd negative significand exponent cs = .ok (n, rest)) :
    skipRealEnd cs = .ok rest := by
  unfold readRealEnd at read
  unfold skipRealEnd
  cases cs with
  | nil =>
      obtain ⟨x, -, same⟩ := bind_eq_ok.mp read
      cases same
      rfl
  | cons c cs =>
      dsimp only at read ⊢
      split at read
      · rename_i letter
        obtain ⟨⟨written, after⟩, digits, read⟩ := bind_eq_ok.mp read
        obtain ⟨x, -, same⟩ := bind_eq_ok.mp read
        cases same
        rw [if_pos letter]
        exact skipExponent_of_readExponentDigits digits
      · rename_i other
        obtain ⟨x, -, same⟩ := bind_eq_ok.mp read
        cases same
        rw [if_neg other]

theorem wholeEnd_rest {negative : Bool} {significand : Nat} {cs rest : List Char} {n : Numeral}
    (read : readNumberEnd.wholeEnd negative significand cs = .ok (n, rest)) : rest = cs := by
  unfold readNumberEnd.wholeEnd at read
  repeat' split at read
  all_goals cases read; rfl

theorem skipNumberEnd_of_readNumberEnd {negative : Bool} {significand dropped : Nat}
    {cs rest : List Char} {n : Numeral}
    (read : readNumberEnd negative significand dropped cs = .ok (n, rest)) :
    skipNumberEnd cs = .ok rest := by
  unfold readNumberEnd at read
  split at read
  · rename_i digits
    dsimp only at read
    split at read
    · split at read <;> cases read
    · rename_i some
      rw [skipNumberEnd, if_neg some]
      exact skipRealEnd_of_readRealEnd read
  · rename_i c cs other
    rw [skipNumberEnd]
    · split at read
      · exact skipRealEnd_of_readRealEnd read
      · rename_i whole
        have plain : ¬ (c = 'e' ∨ c = 'E') := fun letter => whole (or_assoc.mp (.inl letter))
        rw [wholeEnd_rest read, skipRealEnd, if_neg plain]
    · exact fun _ same => other (List.cons.inj same).1
  · split at read
    · exact skipRealEnd_of_readRealEnd read
    · rw [wholeEnd_rest read]
      rfl

/-- A number that can be read can be passed over. -/
theorem skipMagnitude_of_readMagnitude {negative : Bool} {cs rest : List Char} {n : Numeral}
    (read : readMagnitude negative cs = .ok (n, rest)) : skipMagnitude cs = .ok rest := by
  unfold readMagnitude at read
  split at read
  · cases read
  · rename_i after
    cases after with
    | nil =>
        have skipped := skipNumberEnd_of_readNumberEnd read
        exact skipped
    | cons c cs =>
        dsimp only at read
        split at read
        · cases read
        · rename_i other
          exact (if_neg other).trans (skipNumberEnd_of_readNumberEnd read)
  · rename_i c cs nonzero
    split at read
    · rename_i digit
      rw [skipMagnitude, if_pos digit]
      · exact skipNumberEnd_of_readNumberEnd read
      · exact nonzero
    · cases read

end GrantConsole.Json
