import GrantConsole.Proofs.Json.Taken

/-!
# Numbers, whatever follows

A number is read from its own text, whether it is in range or not: what follows it, if that does not
go on with the number, is left.
-/

namespace GrantConsole.Json

open GrantConsole.Number GrantConsole.Text

/-- Of a text that starts so the reader takes in this much, and what it says of it does not depend
on what follows. -/
def Decides {α : Type} (reader : Reader α) (text : List Char) : Prop :=
  ∃ result : Except Fault α, ∀ rest, EndsNumber rest →
    reader (text ++ rest) = result.map fun a => (a, rest)

theorem Decides.takesIn {α : Type} {reader : Reader α} {text tail rest : List Char} {a : α}
    (decides : Decides reader text) (ends : EndsNumber tail)
    (read : reader (text ++ tail) = .ok (a, rest)) : TakesIn reader text a := by
  obtain ⟨result, whatever⟩ := decides
  rw [whatever tail ends] at read
  intro rest' ends'
  cases result with
  | error fault => cases read
  | ok b =>
      cases read
      exact whatever rest' ends'

theorem readExponentDigits_signed {sign cs : List Char} {factor : Int} (signed : Sign sign factor)
    (digits : Digits cs) : ∃ n, ∀ rest, StopsDigits rest →
      readExponentDigits (sign ++ (cs ++ rest)) = .ok (n, rest) := by
  obtain ⟨c, ds, rfl⟩ := List.exists_cons_of_ne_nil digits.some
  obtain ⟨noPlus, noMinus⟩ := digits.ne_sign
  have digit := digits.each c List.mem_cons_self
  have each : ∀ d ∈ ds, isDigit d = true := fun d member =>
    digits.each d (List.mem_cons_of_mem c member)
  have before {rest : List Char} (stops : StopsDigits rest) := takeWhile_digits each stops
  have after {rest : List Char} (stops : StopsDigits rest) := dropWhile_digits each stops
  cases signed with
  | none =>
      refine ⟨digitsValue 0 (c :: ds), fun rest stops => ?_⟩
      simp [readExponentDigits, noPlus, noMinus, digit, before stops, after stops]
  | plus =>
      refine ⟨digitsValue 0 (c :: ds), fun rest stops => ?_⟩
      simp [readExponentDigits, digit, before stops, after stops]
  | minus =>
      refine ⟨-(digitsValue 0 (c :: ds) : Int), fun rest stops => ?_⟩
      simp [readExponentDigits, digit, before stops, after stops]

theorem bind_real (x? : Except Fault Binary64) (rest : List Char) :
    (x? >>= fun x => .ok (Numeral.real x, rest)) = (x?.map .real).map fun n => (n, rest) := by
  cases x? <;> rfl

theorem readRealEnd_of_ends {negative : Bool} {significand : Nat} {exponent : Int}
    {rest : List Char} (ends : EndsNumber rest) :
    readRealEnd negative significand exponent rest =
      realOfParts negative significand exponent >>= fun x => .ok (.real x, rest) := by
  cases rest with
  | nil => rw [readRealEnd]
  | cons c rest =>
      obtain ⟨-, -, small, large⟩ := ends c rfl
      rw [readRealEnd, if_neg (by simp [small, large])]

theorem Exponent.decides {cs : List Char} (exponent : Exponent cs) (negative : Bool)
    (significand : Nat) (before : Int) : Decides (readRealEnd negative significand before) cs := by
  cases exponent with
  | none =>
      refine ⟨(realOfParts negative significand before).map .real, fun rest ends => ?_⟩
      rw [← bind_real, ← readRealEnd_of_ends ends]
      rfl
  | some letter signed digits =>
      obtain ⟨n, whatever⟩ := readExponentDigits_signed signed digits
      refine ⟨(realOfExponent negative significand before n).map .real, fun rest ends => ?_⟩
      rw [List.cons_append, List.append_assoc, readRealEnd, if_pos letter,
        whatever rest ends.stopsDigits]
      exact bind_real _ rest

section
variable {negative : Bool} {significand dropped : Nat} {rest : List Char}

theorem readNumberEnd_kept (ends : EndsNumber rest) :
    readNumberEnd negative significand 0 rest =
      readNumberEnd.wholeEnd negative significand rest := by
  cases rest with
  | nil => rfl
  | cons c rest =>
      obtain ⟨-, point, small, large⟩ := ends c rfl
      rw [readNumberEnd, if_neg (by simp [small, large])]
      exact point

theorem readNumberEnd_dropped (some : dropped ≠ 0) (ends : EndsNumber rest) :
    readNumberEnd negative significand dropped rest =
      realOfParts negative significand dropped >>= fun x => .ok (.real x, rest) := by
  rw [← readRealEnd_of_ends ends]
  cases rest with
  | nil => rw [readNumberEnd, if_pos some]
  | cons c rest =>
      obtain ⟨-, point, -, -⟩ := ends c rfl
      rw [readNumberEnd, if_pos (.inr (.inr some))]
      exact point

end

theorem wholeEnd_decides (negative : Bool) (significand : Nat) :
    ∃ n, ∀ rest, readNumberEnd.wholeEnd negative significand rest = .ok (n, rest) := by
  unfold readNumberEnd.wholeEnd
  split
  · exact ⟨_, fun _ => rfl⟩
  · split
    · exact ⟨_, fun _ => rfl⟩
    · exact ⟨_, fun _ => rfl⟩

/-- What follows the whole part of a number. -/
theorem decides_parts {fraction exponent : List Char} (first : Fraction fraction)
    (second : Exponent exponent) (negative : Bool) (significand dropped : Nat) :
    Decides (readNumberEnd negative significand dropped) (fraction ++ exponent) := by
  cases first with
  | none =>
      cases second with
      | none =>
          by_cases kept : dropped = 0
          · subst kept
            obtain ⟨n, whatever⟩ := wholeEnd_decides negative significand
            exact ⟨.ok n, fun rest ends => (readNumberEnd_kept ends).trans (whatever rest)⟩
          · refine ⟨(realOfParts negative significand dropped).map .real, fun rest ends => ?_⟩
            exact (readNumberEnd_dropped kept ends).trans (bind_real _ rest)
      | @some e sign cs factor letter signed digits =>
          obtain ⟨result, whatever⟩ :=
            (Exponent.some letter signed digits).decides negative significand dropped
          refine ⟨result, fun rest ends => ?_⟩
          rw [← whatever rest ends, List.nil_append, List.cons_append, readNumberEnd,
            if_pos (by tauto)]
          rintro rfl
          rcases letter with letter | letter <;> cases letter
  | @some cs digits =>
      obtain ⟨result, whatever⟩ := second.decides negative
        (takeDigits significand 0 0 cs).1 (dropped - (takeDigits significand 0 0 cs).2.1)
      refine ⟨result, fun rest ends => ?_⟩
      have stops := second.stopsDigits ends
      rw [← whatever rest ends, List.cons_append, List.cons_append, List.append_assoc,
        readNumberEnd, takeWhile_digits digits.each stops, dropWhile_digits digits.each stops,
        if_neg (by simpa using digits.some)]

theorem WholePart.readMagnitude {cs rest : List Char} (whole : WholePart cs)
    (stops : StopsDigits rest) (negative : Bool) :
    readMagnitude negative (cs ++ rest) =
      readNumberEnd negative (takeDigits 0 0 0 cs).1 (takeDigits 0 0 0 cs).2.2 rest := by
  cases whole with
  | zero =>
      change Json.readMagnitude negative ('0' :: rest) = readNumberEnd negative 0 0 rest
      unfold Json.readMagnitude
      cases rest with
      | nil => rfl
      | cons c rest => simp only [stops c rfl, Bool.false_eq_true, if_false]
  | @digits c cs digits plain =>
      have before := takeWhile_digits digits.each stops
      have after := dropWhile_digits digits.each stops
      rw [List.cons_append] at before after ⊢
      rw [Json.readMagnitude, if_pos (digits.each c List.mem_cons_self), before, after]
      exact plain

/-- What a number is read as is decided by its text. -/
theorem Unsigned.decides {cs : List Char} (unsigned : Unsigned cs) (negative : Bool) :
    Decides (readMagnitude negative) cs := by
  obtain ⟨first, second, third⟩ := unsigned
  obtain ⟨result, whatever⟩ := decides_parts second third negative _ _
  refine ⟨result, fun rest ends => ?_⟩
  have stops := second.stopsDigits (third.stopsDigits ends)
  have parts := whatever rest ends
  rw [List.append_assoc] at parts
  rw [List.append_assoc, List.append_assoc, first.readMagnitude stops, parts]

/-! ## Numbers among values -/

theorem Value.negative_of_start {v tail body : List Char} (value : Value v)
    (start : v ++ tail = '-' :: body) : ∃ cs, v = '-' :: cs ∧ Unsigned cs ∧ body = cs ++ tail := by
  cases value with
  | number unsigned =>
      obtain ⟨c, ds, rfl, digit⟩ := unsigned.exists_cons
      obtain ⟨rfl, -⟩ := List.cons.inj start
      cases digit
  | negative unsigned => exact ⟨_, rfl, unsigned, (List.cons.inj start).2.symm⟩
  | _ => cases (List.cons.inj start).1

theorem Value.unsigned_of_start {v tail ds : List Char} {c : Char} (value : Value v)
    (start : v ++ tail = c :: ds) (digit : isDigit c = true) : Unsigned v := by
  cases value with
  | number unsigned => exact unsigned
  | _ =>
    obtain ⟨rfl, -⟩ := List.cons.inj start
    cases digit

end GrantConsole.Json
