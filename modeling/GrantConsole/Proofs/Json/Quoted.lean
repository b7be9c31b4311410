import GrantConsole.Json.Reader

/-!
# Quoted text, written and read

What is written between quotes is read back as it was, whatever follows it. What can be read
between quotes can also be passed over, up to the same place.
-/

namespace GrantConsole.Json

/-- What a step and the steps after it have given was given by the step first. -/
theorem bind_eq_ok {α β : Type} {step : Except Fault α} {next : α → Except Fault β} {b : β} :
    step >>= next = .ok b ↔ ∃ a, step = .ok a ∧ next a = .ok b := by
  cases step <;> simp [bind, Except.bind]

/-! ## Reading back -/

theorem hexValue?_hexChar : ∀ n < 16, hexValue? (hexChar n) = some n := by
  decide

theorem readHex_hexChars {n : Nat} (small : n < 0x20) (rest : List Char) :
    readHex ('0' :: '0' :: hexChar (n / 16) :: hexChar (n % 16) :: rest) = .ok (n, rest) := by
  have zero : hexValue? '0' = some 0 := rfl
  simp only [readHex, zero, hexValue?_hexChar (n / 16) (by omega),
    hexValue?_hexChar (n % 16) (by omega)]
  congr 2
  omega

/-- Puts a character before the text that has been read. -/
def prepend (c : Char) (read : Except Fault (List Char × List Char)) :
    Except Fault (List Char × List Char) :=
  read.map fun (body, rest) => (c :: body, rest)

theorem readQuotedWith_escape {cs rest : List Char} {c : Char}
    (escape : readEscape cs = .ok (c, rest)) (fuel : Nat) :
    readQuotedWith (fuel + 1) ('\\' :: cs) = prepend c (readQuotedWith fuel rest) := by
  rw [readQuotedWith, escape]
  change (readQuotedWith fuel rest >>= fun read => .ok (c :: read.1, read.2)) = _
  cases readQuotedWith fuel rest <;> rfl

theorem readQuotedWith_plain {c : Char} (quote : c ≠ '"') (backslash : c ≠ '\\')
    (printed : ¬ c.toNat < 0x20) (fuel : Nat) (rest : List Char) :
    readQuotedWith (fuel + 1) (c :: rest) = prepend c (readQuotedWith fuel rest) := by
  rw [readQuotedWith, if_neg printed]
  · cases readQuotedWith fuel rest <;> rfl
  · exact quote
  · exact backslash

theorem readEscape_control {c : Char} (control : c.toNat < 0x20) (rest : List Char) :
    readEscape ('u' :: '0' :: '0' :: hexChar (c.toNat / 16) :: hexChar (c.toNat % 16) :: rest) =
      .ok (c, rest) := by
  have low : isLowSurrogate c.toNat = false := by
    unfold isLowSurrogate
    simp
    omega
  have high : isHighSurrogate c.toNat = false := by
    unfold isHighSurrogate
    simp
    omega
  simp [readEscape, readHex_hexChars control, bind, Except.bind, low, high]

/-- A character between quotes is read back as that character. -/
theorem readQuotedWith_quoteChar (c : Char) (fuel : Nat) (rest : List Char) :
    readQuotedWith (fuel + 1) (quoteChar c ++ rest) = prepend c (readQuotedWith fuel rest) := by
  by_cases short : c ∈ ['"', '\\', '\x08', '\x0c', '\n', '\r', '\t']
  · simp only [List.mem_cons, List.not_mem_nil, or_false] at short
    rcases short with rfl | rfl | rfl | rfl | rfl | rfl | rfl <;>
      exact readQuotedWith_escape rfl fuel
  · simp only [List.mem_cons, List.not_mem_nil, or_false, not_or] at short
    obtain ⟨quote, backslash, backspace, feed, line, back, tab⟩ := short
    unfold quoteChar
    simp only [if_neg quote, if_neg backslash, if_neg backspace, if_neg feed, if_neg line,
      if_neg back, if_neg tab]
    by_cases control : c.toNat < 0x20
    · rw [if_pos control]
      exact readQuotedWith_escape (readEscape_control control rest) fuel
    · rw [if_neg control]
      exact readQuotedWith_plain quote backslash control fuel rest

theorem length_quoteChar_pos (c : Char) : 0 < (quoteChar c).length := by
  unfold quoteChar
  repeat' split
  all_goals exact Nat.zero_lt_succ _

theorem length_le_length_flatMap (cs : List Char) : cs.length ≤ (cs.flatMap quoteChar).length := by
  induction cs with
  | nil => exact Nat.le_refl 0
  | cons c cs ih =>
      have one := length_quoteChar_pos c
      rw [List.flatMap_cons, List.length_append, List.length_cons]
      omega

theorem readQuotedWith_flatMap {cs : List Char} {fuel : Nat} (enough : cs.length < fuel)
    (rest : List Char) :
    readQuotedWith fuel (cs.flatMap quoteChar ++ '"' :: rest) = .ok (cs, rest) := by
  induction cs generalizing fuel with
  | nil =>
      obtain ⟨fuel, rfl⟩ := Nat.exists_eq_succ_of_ne_zero (Nat.ne_zero_of_lt enough)
      rfl
  | cons c cs ih =>
      obtain ⟨fuel, rfl⟩ := Nat.exists_eq_succ_of_ne_zero (Nat.ne_zero_of_lt enough)
      rw [List.flatMap_cons, List.append_assoc, readQuotedWith_quoteChar,
        ih (Nat.lt_of_succ_lt_succ enough)]
      rfl

/-- A quoted text is read back, whatever follows it. -/
theorem readQuoted_quoted (s : String) (rest : List Char) :
    readQuoted (s.toList.flatMap quoteChar ++ '"' :: rest) = .ok (s, rest) := by
  have enough : s.toList.length < (s.toList.flatMap quoteChar ++ '"' :: rest).length := by
    have := length_le_length_flatMap s.toList
    rw [List.length_append, List.length_cons]
    omega
  rw [readQuoted, readQuotedWith_flatMap enough]
  change Except.ok (String.ofList s.toList, rest) = _
  rw [String.ofList_toList]

/-! ## Passing over -/

theorem readHex_eq_ok {cs rest : List Char} {n : Nat} (read : readHex cs = .ok (n, rest)) :
    ∃ a b c d, cs = a :: b :: c :: d :: rest := by
  unfold readHex at read
  split at read
  · split at read
    · cases read
      exact ⟨_, _, _, _, rfl⟩
    · cases read
  · split at read <;> cases read

theorem skipEscape_hex {cs rest : List Char} {n : Nat} (read : readHex cs = .ok (n, rest)) :
    skipEscape ('u' :: cs) = .ok rest := by
  rw [skipEscape, read]
  rfl

theorem readLowSurrogate_eq_ok {high : Nat} {cs rest : List Char} {c : Char}
    (read : readLowSurrogate high cs = .ok (c, rest)) :
    ∃ hex n, cs = '\\' :: 'u' :: hex ∧ readHex hex = .ok (n, rest) := by
  unfold readLowSurrogate at read
  split at read
  · cases read
  · cases read
  · obtain ⟨⟨n, after⟩, hex, read⟩ := bind_eq_ok.mp read
    dsimp only at read
    split at read
    · obtain ⟨-, rfl⟩ := Prod.mk.inj (Except.ok.inj read)
      exact ⟨_, n, rfl, hex⟩
    · cases read
  · cases read

/-- An escape that can be read can be passed over, in two parts where it is a pair. -/
theorem skipEscape_of_readEscape {cs rest : List Char} {c : Char}
    (read : readEscape cs = .ok (c, rest)) :
    skipEscape cs = .ok rest ∨
      ∃ half, skipEscape cs = .ok ('\\' :: half) ∧ skipEscape half = .ok rest := by
  unfold readEscape at read
  split at read
  · cases read
  · obtain ⟨⟨n, after⟩, hex, read⟩ := bind_eq_ok.mp read
    dsimp only at read
    split at read
    · cases read
    · split at read
      · obtain ⟨second, low, rfl, hex'⟩ := readLowSurrogate_eq_ok read
        exact .inr ⟨_, skipEscape_hex hex, skipEscape_hex hex'⟩
      · cases read
        exact .inl (skipEscape_hex hex)
  · rename_i letter after other
    split at read
    · rename_i known
      cases read
      left
      rw [skipEscape, if_pos (by rw [known]; rfl)]
      exact other
    · cases read

theorem length_lt_of_skipEscape {cs rest : List Char} (passed : skipEscape cs = .ok rest) :
    rest.length < cs.length := by
  unfold skipEscape at passed
  split at passed
  · cases passed
  · obtain ⟨⟨n, after⟩, hex, same⟩ := bind_eq_ok.mp passed
    cases same
    obtain ⟨a, b, c, d, rfl⟩ := readHex_eq_ok hex
    simp only [List.length_cons]
    omega
  · split at passed
    · cases passed
      exact Nat.lt_succ_self _
    · cases passed

theorem skipQuotedWith_escape {cs rest : List Char} (escape : skipEscape cs = .ok rest)
    (fuel : Nat) : skipQuotedWith (fuel + 1) ('\\' :: cs) = skipQuotedWith fuel rest := by
  rw [skipQuotedWith, escape]
  rfl

/-- A quoted text that can be read can be passed over; a pair of surrogates takes two steps. -/
theorem skipQuotedWith_of_readQuotedWith {read skip : Nat} {cs body rest : List Char}
    (ok : readQuotedWith read cs = .ok (body, rest)) (enough : cs.length ≤ skip) :
    skipQuotedWith skip cs = .ok rest := by
  induction read, cs using readQuotedWith.induct generalizing skip body with
  | case1 => cases ok
  | case2 => cases ok
  | case3 fuel after =>
      cases ok
      obtain ⟨skip, rfl⟩ := Nat.exists_eq_succ_of_ne_zero (Nat.ne_zero_of_lt enough)
      rfl
  | case4 fuel cs ih =>
      obtain ⟨⟨c, after⟩, escape, ok⟩ := bind_eq_ok.mp ok
      obtain ⟨⟨body, rest⟩, ok, same⟩ := bind_eq_ok.mp ok
      cases same
      rw [List.length_cons] at enough
      obtain ⟨skip, rfl⟩ := Nat.exists_eq_succ_of_ne_zero (Nat.ne_zero_of_lt enough)
      rcases skipEscape_of_readEscape escape with whole | ⟨half, first, second⟩
      · have shorter := length_lt_of_skipEscape whole
        rw [skipQuotedWith_escape whole]
        exact ih _ ok (by omega)
      · -- Two escapes make one character, so the fuel is bounded by the text, not by what is read.
        have shorter := length_lt_of_skipEscape first
        have shorter' := length_lt_of_skipEscape second
        rw [List.length_cons] at shorter
        obtain ⟨skip, rfl⟩ := Nat.exists_eq_succ_of_ne_zero (n := skip) (by omega)
        rw [skipQuotedWith_escape first, skipQuotedWith_escape second]
        exact ih _ ok (by omega)
  | case5 fuel c cs quote backslash control =>
      rw [readQuotedWith, if_pos control] at ok
      · cases ok
      · exact quote
      · exact backslash
  | case6 fuel c cs quote backslash printed ih =>
      rw [readQuotedWith, if_neg printed] at ok
      · obtain ⟨⟨body, rest⟩, ok, same⟩ := bind_eq_ok.mp ok
        cases same
        rw [List.length_cons] at enough
        obtain ⟨skip, rfl⟩ := Nat.exists_eq_succ_of_ne_zero (Nat.ne_zero_of_lt enough)
        rw [skipQuotedWith, if_neg printed]
        · exact ih ok (by omega)
        · exact quote
        · exact backslash
      · exact quote
      · exact backslash

/-- A quoted text that can be read can be passed over. -/
theorem skipQuoted_of_readQuoted {cs rest : List Char} {s : String}
    (read : readQuoted cs = .ok (s, rest)) : skipQuoted cs = .ok rest := by
  obtain ⟨⟨body, after⟩, read, same⟩ := bind_eq_ok.mp read
  cases same
  exact skipQuotedWith_of_readQuotedWith read (Nat.le_refl _)

/-! ## Whatever follows -/

/-- What the reader takes in does not depend on what follows it. -/
def Exact {α : Type} (reader : Reader α) : Prop :=
  ∀ cs a rest, reader cs = .ok (a, rest) →
    ∃ text, cs = text ++ rest ∧ ∀ tail, reader (text ++ tail) = .ok (a, tail)

theorem exact_readHex : Exact readHex := by
  intro cs n rest read
  obtain ⟨a, b, c, d, rfl⟩ := readHex_eq_ok read
  refine ⟨[a, b, c, d], rfl, fun tail => ?_⟩
  simp only [readHex, List.cons_append, List.nil_append] at read ⊢
  split at read
  · cases read
    rfl
  · cases read

theorem exact_readLowSurrogate (high : Nat) : Exact (readLowSurrogate high) := by
  intro cs c rest read
  obtain ⟨hex, n, rfl, digits⟩ := readLowSurrogate_eq_ok read
  obtain ⟨text, rfl, whatever⟩ := exact_readHex _ _ _ digits
  obtain ⟨⟨_, _⟩, digits', paired⟩ := bind_eq_ok.mp read
  cases digits.symm.trans digits'
  dsimp only at paired
  split at paired
  · rename_i low
    obtain ⟨rfl, -⟩ := Prod.mk.inj (Except.ok.inj paired)
    refine ⟨'\\' :: 'u' :: text, rfl, fun tail => bind_eq_ok.mpr ⟨_, whatever tail, ?_⟩⟩
    exact if_pos low
  · cases paired

theorem exact_readEscape : Exact readEscape := by
  intro cs c rest read
  unfold readEscape at read
  split at read
  · cases read
  · obtain ⟨⟨n, after⟩, hex, taken⟩ := bind_eq_ok.mp read
    obtain ⟨digits, same, whatever⟩ := exact_readHex _ _ _ hex
    dsimp only at taken
    split at taken
    · cases taken
    · rename_i single
      split at taken
      · rename_i pair
        obtain ⟨low, same', whatever'⟩ := exact_readLowSurrogate n _ _ _ taken
        refine ⟨'u' :: (digits ++ low), by simp [same, same'], fun tail => ?_⟩
        rw [List.cons_append, List.append_assoc]
        refine bind_eq_ok.mpr ⟨_, whatever _, ?_⟩
        dsimp only
        rw [if_neg single, if_pos pair, whatever']
      · rename_i plain
        cases taken
        refine ⟨'u' :: digits, by simp [same], fun tail => bind_eq_ok.mpr ⟨_, whatever _, ?_⟩⟩
        dsimp only
        rw [if_neg single, if_neg plain]
  · rename_i letter after other
    split at read
    · rename_i known
      cases read
      refine ⟨[letter], rfl, fun tail => ?_⟩
      rw [List.singleton_append, readEscape, known]
      exact other
    · cases read

theorem exact_readQuotedWith {fuel : Nat} {cs body rest : List Char}
    (read : readQuotedWith fuel cs = .ok (body, rest)) :
    ∃ text, cs = text ++ rest ∧ ∀ fuel' tail, text.length ≤ fuel' →
      readQuotedWith fuel' (text ++ tail) = .ok (body, tail) := by
  induction fuel, cs using readQuotedWith.induct generalizing body with
  | case1 => cases read
  | case2 => cases read
  | case3 fuel after =>
      cases read
      refine ⟨['"'], rfl, fun fuel' tail enough => ?_⟩
      obtain ⟨fuel', rfl⟩ := Nat.exists_eq_succ_of_ne_zero (Nat.ne_zero_of_lt enough)
      rfl
  | case4 fuel cs ih =>
      obtain ⟨⟨c, after⟩, escape, read⟩ := bind_eq_ok.mp read
      obtain ⟨⟨body, rest⟩, read, same⟩ := bind_eq_ok.mp read
      cases same
      obtain ⟨letters, here, whatever⟩ := exact_readEscape _ _ _ escape
      obtain ⟨text, there, others⟩ := ih _ read
      refine ⟨'\\' :: (letters ++ text), by simp [here, there], fun fuel' tail enough => ?_⟩
      rw [List.length_cons, List.length_append] at enough
      obtain ⟨fuel', rfl⟩ := Nat.exists_eq_succ_of_ne_zero (Nat.ne_zero_of_lt enough)
      rw [List.cons_append, List.append_assoc, readQuotedWith_escape (whatever _),
        others fuel' tail (by omega)]
      rfl
  | case5 fuel c cs quote backslash control =>
      rw [readQuotedWith, if_pos control] at read
      · cases read
      · exact quote
      · exact backslash
  | case6 fuel c cs quote backslash printed ih =>
      rw [readQuotedWith, if_neg printed] at read
      · obtain ⟨⟨body, rest⟩, read, same⟩ := bind_eq_ok.mp read
        cases same
        obtain ⟨text, there, others⟩ := ih read
        refine ⟨c :: text, by simp [there], fun fuel' tail enough => ?_⟩
        rw [List.length_cons] at enough
        obtain ⟨fuel', rfl⟩ := Nat.exists_eq_succ_of_ne_zero (Nat.ne_zero_of_lt enough)
        rw [List.cons_append, readQuotedWith_plain quote backslash printed,
          others fuel' tail (by omega)]
        rfl
      · exact quote
      · exact backslash

theorem exact_readQuoted : Exact readQuoted := by
  intro cs s rest read
  obtain ⟨⟨body, after⟩, read, same⟩ := bind_eq_ok.mp read
  cases same
  obtain ⟨text, there, whatever⟩ := exact_readQuotedWith read
  refine ⟨text, there, fun tail => bind_eq_ok.mpr ⟨_, whatever _ tail ?_, rfl⟩⟩
  rw [List.length_append]
  omega

theorem length_readQuotedWith {fuel : Nat} {cs body rest : List Char}
    (read : readQuotedWith fuel cs = .ok (body, rest)) : body.length + rest.length < cs.length := by
  induction fuel, cs using readQuotedWith.induct generalizing body with
  | case1 => cases read
  | case2 => cases read
  | case3 fuel after =>
      cases read
      simp
  | case4 fuel cs ih =>
      obtain ⟨⟨c, after⟩, escape, read⟩ := bind_eq_ok.mp read
      obtain ⟨⟨body, rest⟩, read, same⟩ := bind_eq_ok.mp read
      cases same
      obtain ⟨letters, here, -⟩ := exact_readEscape _ _ _ escape
      have shorter := ih _ read
      simp only [here, List.length_cons, List.length_append]
      omega
  | case5 fuel c cs quote backslash control =>
      rw [readQuotedWith, if_pos control] at read
      · cases read
      · exact quote
      · exact backslash
  | case6 fuel c cs quote backslash printed ih =>
      rw [readQuotedWith, if_neg printed] at read
      · obtain ⟨⟨body, rest⟩, read, same⟩ := bind_eq_ok.mp read
        cases same
        have shorter := ih read
        simp only [List.length_cons]
        omega
      · exact quote
      · exact backslash

/-- A text is shorter than what stands for it. -/
theorem length_lt_of_readQuoted {cs rest : List Char} {s : String}
    (read : readQuoted cs = .ok (s, rest)) : s.toList.length < cs.length := by
  obtain ⟨⟨body, after⟩, read, same⟩ := bind_eq_ok.mp read
  cases same
  have shorter := length_readQuotedWith read
  rw [String.toList_ofList]
  omega

end GrantConsole.Json
