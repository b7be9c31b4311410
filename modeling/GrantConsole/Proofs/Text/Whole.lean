import GrantConsole.Proofs.Text.Trimmed
import GrantConsole.Text.Whole
import Mathlib.Data.Nat.Digits.Defs

/-!
# Whole numbers, by their grammar

A whole number is an optional sign and at least one ASCII digit, and its value is that of its digits
in base ten. The reader takes exactly such texts, and one of 64 bits exactly those whose value is in
range.
-/

namespace GrantConsole.Text

open GrantConsole.Number

/-- What may stand before the digits of a whole number, and the factor that it stands for. -/
inductive Sign : List Char → Int → Prop
  | none : Sign [] 1
  | plus : Sign ['+'] 1
  | minus : Sign ['-'] (-1)

/-- At least one ASCII digit. -/
structure Digits (cs : List Char) : Prop where
  some : cs ≠ []
  each : ∀ c ∈ cs, isDigit c = true

/-- The value of digits in base ten, the last of which counts ones. -/
def decimalValue (cs : List Char) : Nat :=
  Nat.ofDigits 10 (cs.reverse.map digitValue)

/-- The characters are an optional sign and digits, which denote the number. -/
def DenotesWhole (cs : List Char) (n : Int) : Prop :=
  ∃ sign factor digits, Sign sign factor ∧ Digits digits ∧ cs = sign ++ digits ∧
    n = factor * decimalValue digits

/-! ## Digits -/

theorem digitsValue_eq (start : Nat) (cs : List Char) :
    digitsValue start cs = decimalValue cs + 10 ^ cs.length * start := by
  induction cs generalizing start with
  | nil => simp [digitsValue, decimalValue]
  | cons c cs ih =>
      have next : digitsValue start (c :: cs) = digitsValue (10 * start + digitValue c) cs := rfl
      have first : decimalValue (c :: cs) = decimalValue cs + 10 ^ cs.length * digitValue c := by
        simp [decimalValue, Nat.ofDigits_append]
      rw [next, ih, first, List.length_cons, Nat.pow_succ]
      ring

theorem readDigits?_eq_some {cs : List Char} {n : Nat} :
    readDigits? cs = some n ↔ Digits cs ∧ n = decimalValue cs := by
  have value : digitsValue 0 cs = decimalValue cs := by simp [digitsValue_eq]
  unfold readDigits?
  rw [value]
  constructor
  · intro read
    split at read
    · rename_i digits
      obtain ⟨some, each⟩ := Bool.and_eq_true_iff.mp digits
      cases read
      exact ⟨⟨by simpa using some, List.all_eq_true.mp each⟩, rfl⟩
    · cases read
  · rintro ⟨⟨some, each⟩, rfl⟩
    exact if_pos (Bool.and_eq_true_iff.mpr ⟨by simpa using some, List.all_eq_true.mpr each⟩)

theorem Digits.ne_sign {c : Char} {cs : List Char} (digits : Digits (c :: cs)) :
    c ≠ '+' ∧ c ≠ '-' := by
  have digit := digits.each c List.mem_cons_self
  constructor <;>
    · rintro rfl
      cases digit

/-! ## Signs -/

/-- The reader takes what denotes a whole number, and nothing else. -/
theorem readInt?_eq_some {cs : List Char} {n : Int} :
    readInt? cs = some n ↔ DenotesWhole cs n := by
  constructor
  · intro read
    unfold readInt? at read
    split at read <;> obtain ⟨m, found, rfl⟩ := Option.map_eq_some_iff.mp read <;>
      obtain ⟨digits, rfl⟩ := readDigits?_eq_some.mp found
    · exact ⟨_, _, _, .plus, digits, rfl, (Int.one_mul _).symm⟩
    · exact ⟨_, _, _, .minus, digits, rfl, (Int.neg_one_mul _).symm⟩
    · exact ⟨_, _, _, .none, digits, rfl, (Int.one_mul _).symm⟩
  · rintro ⟨sign, factor, digits, signed, each, rfl, rfl⟩
    have read := readDigits?_eq_some.mpr ⟨each, rfl⟩
    cases signed with
    | none =>
        obtain ⟨c, rest, rfl⟩ := List.exists_cons_of_ne_nil each.some
        obtain ⟨noPlus, noMinus⟩ := each.ne_sign
        rw [List.nil_append, readInt?, read, Int.one_mul]
        · rfl
        · simpa using noPlus
        · simpa using noMinus
    | plus =>
        rw [List.singleton_append, readInt?, read, Int.one_mul]
        rfl
    | minus =>
        rw [List.singleton_append, readInt?, read, Int.neg_one_mul]
        rfl

/-- The reader of numbers of 64 bits takes the whole numbers in range, each as it is. -/
theorem readInt64?_eq_some {cs : List Char} {n : Int64} :
    readInt64? cs = some n ↔ DenotesWhole cs n.toInt := by
  have bound : (int64Bound : Int) = 2 ^ 63 := by decide
  unfold readInt64?
  constructor
  · intro read
    obtain ⟨m, whole, inRange⟩ := Option.bind_eq_some_iff.mp read
    split at inRange
    · rename_i range
      cases inRange
      rw [Int64.toInt_ofInt_of_le (by omega) (by omega)]
      exact readInt?_eq_some.mp whole
    · cases inRange
  · intro denotes
    have least := n.le_toInt
    have most := n.toInt_lt
    refine Option.bind_eq_some_iff.mpr ⟨_, readInt?_eq_some.mpr denotes, ?_⟩
    rw [if_pos (by omega), Int64.ofInt_toInt]

/-! ## Between blanks -/

theorem isBlank_of_isDigit {c : Char} (digit : isDigit c = true) : isBlank c = false := by
  have least : '0'.toNat ≤ c.toNat := of_decide_eq_true (Bool.and_eq_true_iff.mp digit).1
  have most : c.toNat ≤ '9'.toNat := of_decide_eq_true (Bool.and_eq_true_iff.mp digit).2
  have zero : '0'.toNat = 48 := rfl
  have nine : '9'.toNat = 57 := rfl
  unfold isBlank blankRanges inRanges
  grind [inRanges]

theorem DenotesWhole.bare {cs : List Char} {n : Int} (denotes : DenotesWhole cs n) : Bare cs := by
  obtain ⟨sign, factor, digits, signed, each, rfl, -⟩ := denotes
  have clear : ∀ c ∈ sign ++ digits, isBlank c = false := by
    intro c member
    rcases List.mem_append.mp member with before | digit
    · cases signed with
      | none => cases before
      | plus | minus =>
          cases List.mem_singleton.mp before
          decide
    · exact isBlank_of_isDigit (each.each c digit)
  exact ⟨fun c head => clear c (List.mem_of_mem_head? head),
    fun c last => clear c (List.mem_of_getLast? last)⟩

/-- A trimmed text denotes a number if the number stands in it with blanks alone around it. -/
theorem denotesWhole_trim {s : String} {n : Int} :
    DenotesWhole (trim s).toList n ↔ ∃ core, Surrounded core s.toList ∧ DenotesWhole core n := by
  constructor
  · exact fun denotes => ⟨_, surrounded_trim s, denotes⟩
  · rintro ⟨core, surrounded, denotes⟩
    rwa [toList_trim_eq surrounded denotes.bare]

end GrantConsole.Text
