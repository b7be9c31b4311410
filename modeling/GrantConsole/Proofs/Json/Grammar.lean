import GrantConsole.Proofs.Json.Passing
import GrantConsole.Proofs.Text.Whole

/-!
# The grammar of JSON

The texts that are JSON values. Numbers may be of any size, texts may escape lone surrogates and
lists and objects may nest without bound. Every such text can be passed over, up to its end.
-/

namespace GrantConsole.Json

open GrantConsole.Text

/-! ## Texts between quotes -/

/-- What may stand between the quotes of a text. -/
inductive Quotable : List Char → Prop
  | nil : Quotable []
  | plain {c : Char} {cs : List Char} (quote : c ≠ '"') (backslash : c ≠ '\\')
      (printed : ¬ c.toNat < 0x20) (rest : Quotable cs) : Quotable (c :: cs)
  | letter {c : Char} {cs : List Char} (known : (escapeOf? c).isSome = true)
      (rest : Quotable cs) : Quotable ('\\' :: c :: cs)
  | code {a b c d : Char} {cs : List Char}
      (digits : ∀ x ∈ [a, b, c, d], (hexValue? x).isSome = true) (rest : Quotable cs) :
      Quotable ('\\' :: 'u' :: a :: b :: c :: d :: cs)

/-! ## Numbers -/

/-- The digits before the point: a zero comes first only where it is the only one. -/
inductive WholePart : List Char → Prop
  | zero : WholePart ['0']
  | digits {c : Char} {cs : List Char} (digits : Digits (c :: cs)) (plain : c ≠ '0') :
      WholePart (c :: cs)

inductive Fraction : List Char → Prop
  | none : Fraction []
  | some {cs : List Char} (digits : Digits cs) : Fraction ('.' :: cs)

inductive Exponent : List Char → Prop
  | none : Exponent []
  | some {e : Char} {sign cs : List Char} {factor : Int} (letter : e = 'e' ∨ e = 'E')
      (signed : Sign sign factor) (digits : Digits cs) : Exponent (e :: (sign ++ cs))

/-- A number without its sign. -/
inductive Unsigned : List Char → Prop
  | mk {whole fraction exponent : List Char} (first : WholePart whole)
      (second : Fraction fraction) (third : Exponent exponent) :
      Unsigned (whole ++ (fraction ++ exponent))

/-! ## Lists and objects -/

structure Blanks where
  chars : List Char
  each : ∀ c ∈ chars, isSpace c = true

/-- A value among the blanks around it. -/
structure Item where
  before : Blanks
  value : List Char
  after : Blanks

def Item.chars (i : Item) : List Char :=
  i.before.chars ++ (i.value ++ i.after.chars)

/-- A value under its key, which is taken as it stands between its quotes. -/
structure Member extends Item where
  lead : Blanks
  key : List Char
  gap : Blanks

def Member.chars (m : Member) : List Char :=
  m.lead.chars ++ '"' :: (m.key ++ '"' :: (m.gap.chars ++ ':' :: m.toItem.chars))

/-- The parts that follow the first one, and the closing bracket. -/
def closing (bracket : Char) : List (List Char) → List Char
  | [] => [bracket]
  | part :: parts => ',' :: (part ++ closing bracket parts)

/-- Parts with commas between them, and the closing bracket; without parts there may be blanks. -/
def enclosed (bracket : Char) (blanks : Blanks) : List (List Char) → List Char
  | [] => blanks.chars ++ [bracket]
  | part :: parts => part ++ closing bracket parts

def listText (blanks : Blanks) (items : List Item) : List Char :=
  '[' :: enclosed ']' blanks (items.map Item.chars)

def objectText (blanks : Blanks) (members : List Member) : List Char :=
  '{' :: enclosed '}' blanks (members.map Member.chars)

/-- The text is a value, without blanks around it. -/
inductive Value : List Char → Prop
  | null : Value ['n', 'u', 'l', 'l']
  | yes : Value ['t', 'r', 'u', 'e']
  | no : Value ['f', 'a', 'l', 's', 'e']
  | number {cs : List Char} (unsigned : Unsigned cs) : Value cs
  | negative {cs : List Char} (unsigned : Unsigned cs) : Value ('-' :: cs)
  | text {cs : List Char} (quotable : Quotable cs) : Value ('"' :: (cs ++ ['"']))
  | list (blanks : Blanks) {items : List Item} (each : ∀ i ∈ items, Value i.value) :
      Value (listText blanks items)
  | object (blanks : Blanks) {members : List Member} (keys : ∀ m ∈ members, Quotable m.key)
      (each : ∀ m ∈ members, Value m.value) : Value (objectText blanks members)

/-! ## Blanks -/

theorem Blanks.skipSpace_append (blanks : Blanks) (cs : List Char) :
    skipSpace (blanks.chars ++ cs) = skipSpace cs :=
  List.dropWhile_append_of_pos blanks.each

theorem exists_blanks (cs : List Char) : ∃ blanks : Blanks, cs = blanks.chars ++ skipSpace cs :=
  ⟨⟨cs.takeWhile isSpace, fun _ member => List.mem_takeWhile_imp member⟩,
    List.takeWhile_append_dropWhile.symm⟩

theorem exists_blanks_of_start {cs rest : List Char} {c : Char} (start : skipSpace cs = c :: rest) :
    ∃ blanks : Blanks, cs = blanks.chars ++ c :: rest := by
  obtain ⟨blanks, split⟩ := exists_blanks cs
  exact ⟨blanks, start ▸ split⟩

theorem Blanks.skipSpace_cons_append (blanks : Blanks) {c : Char} (dark : isSpace c = false)
    (cs : List Char) : skipSpace (blanks.chars ++ c :: cs) = c :: cs :=
  (blanks.skipSpace_append _).trans (skipSpace_cons dark cs)

theorem skipWith_skipSpace (fuel : Nat) (cs : List Char) :
    skipWith fuel (skipSpace cs) = skipWith fuel cs := by
  cases fuel with
  | zero => rfl
  | succ fuel => rw [skipWith_succ, skipSpace_skipSpace, ← skipWith_succ]

theorem Blanks.skipWith_append (blanks : Blanks) (fuel : Nat) (cs : List Char) :
    skipWith fuel (blanks.chars ++ cs) = skipWith fuel cs := by
  rw [← skipWith_skipSpace, blanks.skipSpace_append, skipWith_skipSpace]

theorem Blanks.skipItemEnd_append (blanks : Blanks) (fuel : Nat) (cs : List Char) :
    skipItemEnd fuel (blanks.chars ++ cs) = skipItemEnd fuel cs := by
  rw [skipItemEnd, blanks.skipSpace_append, ← skipItemEnd]

theorem Blanks.skipMemberEnd_append (blanks : Blanks) (fuel : Nat) (cs : List Char) :
    skipMemberEnd fuel (blanks.chars ++ cs) = skipMemberEnd fuel cs := by
  rw [skipMemberEnd, blanks.skipSpace_append, ← skipMemberEnd]

theorem Blanks.skipKey_append (blanks : Blanks) (cs : List Char) :
    skipKey (blanks.chars ++ cs) = skipKey cs := by
  rw [skipKey, blanks.skipSpace_append, ← skipKey]

theorem Blanks.readColon_append (blanks : Blanks) (cs : List Char) :
    readColon (blanks.chars ++ cs) = readColon cs := by
  rw [readColon, blanks.skipSpace_append, ← readColon]

theorem Blanks.readColon_colon (blanks : Blanks) (cs : List Char) :
    readColon (blanks.chars ++ ':' :: cs) = .ok cs := by
  rw [blanks.readColon_append]
  rfl

theorem Blanks.readEnd_chars (blanks : Blanks) : readEnd blanks.chars = .ok () := by
  have blank := blanks.skipSpace_append []
  rw [List.append_nil] at blank
  rw [readEnd, blank]
  rfl

/-! ## Passing over numbers -/

theorem endsNumber_of_isSpace {c : Char} (space : isSpace c = true) (rest : List Char) :
    EndsNumber (c :: rest) := by
  intro c' first
  cases first
  simp only [isSpace, Bool.or_eq_true, beq_iff_eq] at space
  rcases space with ((rfl | rfl) | rfl) | rfl <;> decide

theorem Blanks.endsNumber_append (blanks : Blanks) {rest : List Char} (ends : EndsNumber rest) :
    EndsNumber (blanks.chars ++ rest) := by
  cases chars : blanks.chars with
  | nil => exact ends
  | cons c cs => exact endsNumber_of_isSpace (blanks.each c (chars ▸ List.mem_cons_self)) _

theorem Blanks.endsNumber_chars (blanks : Blanks) : EndsNumber blanks.chars :=
  List.append_nil blanks.chars ▸ blanks.endsNumber_append nofun

theorem Exponent.stopsDigits {cs rest : List Char} (exponent : Exponent cs)
    (ends : EndsNumber rest) : StopsDigits (cs ++ rest) := by
  cases exponent with
  | none => exact ends.stopsDigits
  | some letter signed digits =>
      intro c first
      cases first
      rcases letter with rfl | rfl <;> rfl

theorem skipExponent_signed {sign cs rest : List Char} {factor : Int} (signed : Sign sign factor)
    (digits : Digits cs) (stops : StopsDigits rest) :
    skipExponent (sign ++ (cs ++ rest)) = .ok rest := by
  have after := dropWhile_digits digits.each stops
  obtain ⟨c, ds, rfl⟩ := List.exists_cons_of_ne_nil digits.some
  obtain ⟨noPlus, noMinus⟩ := digits.ne_sign
  have digit := digits.each c List.mem_cons_self
  rw [List.cons_append, List.dropWhile_cons_of_pos digit] at after
  cases signed <;> simp [skipExponent, digit, noPlus, noMinus, after]

theorem Exponent.skipRealEnd {cs rest : List Char} (exponent : Exponent cs)
    (ends : EndsNumber rest) : skipRealEnd (cs ++ rest) = .ok rest := by
  cases exponent with
  | none => exact skipRealEnd_of_ends ends
  | some letter signed digits =>
      rw [List.cons_append, List.append_assoc, Json.skipRealEnd, if_pos letter]
      exact skipExponent_signed signed digits ends.stopsDigits

theorem Fraction.stopsDigits {cs rest : List Char} (fraction : Fraction cs)
    (stops : StopsDigits rest) : StopsDigits (cs ++ rest) := by
  cases fraction with
  | none => exact stops
  | some digits =>
      intro c first
      cases first
      rfl

/-- The fraction and the exponent are passed over, and nothing after them. -/
theorem skipNumberEnd_parts {fraction exponent rest : List Char} (first : Fraction fraction)
    (second : Exponent exponent) (ends : EndsNumber rest) :
    skipNumberEnd (fraction ++ (exponent ++ rest)) = .ok rest := by
  have stops := second.stopsDigits ends
  cases first with
  | none =>
      rw [List.nil_append, skipNumberEnd, second.skipRealEnd ends]
      cases second with
      | none =>
          rintro cs rfl
          exact (ends '.' rfl).2.1 rfl
      | some letter signed digits =>
          rintro cs same
          obtain ⟨rfl, -⟩ := List.cons.inj same
          rcases letter with letter | letter <;> cases letter
  | some digits =>
      rw [List.cons_append, skipNumberEnd, takeWhile_digits digits.each stops,
        dropWhile_digits digits.each stops, if_neg (by simpa using digits.some)]
      exact second.skipRealEnd ends

theorem Unsigned.skipMagnitude {cs rest : List Char} (unsigned : Unsigned cs)
    (ends : EndsNumber rest) : skipMagnitude (cs ++ rest) = .ok rest := by
  obtain ⟨first, second, third⟩ := unsigned
  have passed := skipNumberEnd_parts second third ends
  have stops := second.stopsDigits (third.stopsDigits ends)
  simp only [List.append_assoc]
  cases first with
  | zero =>
      rw [List.singleton_append]
      generalize _ ++ (_ ++ rest) = text at passed stops ⊢
      cases text with
      | nil => exact passed
      | cons c text => simpa [Json.skipMagnitude, stops c rfl] using passed
  | @digits c cs digits plain =>
      have digit := digits.each c List.mem_cons_self
      have after := dropWhile_digits digits.each stops
      rw [List.cons_append] at after ⊢
      rw [Json.skipMagnitude, if_pos digit, after]
      · exact passed
      · exact plain

/-! ## Passing over texts -/

theorem readHex_digits {a b c d : Char} (digits : ∀ x ∈ [a, b, c, d], (hexValue? x).isSome = true)
    (rest : List Char) : ∃ n, readHex (a :: b :: c :: d :: rest) = .ok (n, rest) := by
  simp only [List.mem_cons, List.not_mem_nil, or_false, forall_eq_or_imp, forall_eq,
    Option.isSome_iff_exists] at digits
  obtain ⟨⟨_, first⟩, ⟨_, second⟩, ⟨_, third⟩, _, fourth⟩ := digits
  simp only [readHex, first, second, third, fourth]
  exact ⟨_, rfl⟩

theorem Quotable.skipQuotedWith {cs rest : List Char} (quotable : Quotable cs) {fuel : Nat}
    (enough : cs.length < fuel) : skipQuotedWith fuel (cs ++ '"' :: rest) = .ok rest := by
  induction quotable generalizing fuel with
  | nil =>
      obtain ⟨fuel, rfl⟩ := Nat.exists_eq_succ_of_ne_zero (Nat.ne_zero_of_lt enough)
      rfl
  | plain quote backslash printed _ ih =>
      obtain ⟨fuel, rfl⟩ := Nat.exists_eq_succ_of_ne_zero (Nat.ne_zero_of_lt enough)
      rw [List.cons_append, Json.skipQuotedWith, if_neg printed]
      · exact ih (Nat.lt_of_succ_lt_succ enough)
      · exact quote
      · exact backslash
  | @letter c cs known _ ih =>
      obtain ⟨fuel, rfl⟩ := Nat.exists_eq_succ_of_ne_zero (Nat.ne_zero_of_lt enough)
      have escape : skipEscape (c :: (cs ++ '"' :: rest)) = .ok (cs ++ '"' :: rest) := by
        rw [skipEscape, if_pos known]
        rintro rfl
        cases known
      rw [List.cons_append, List.cons_append, skipQuotedWith_escape escape]
      refine ih ?_
      rw [List.length_cons, List.length_cons] at enough
      omega
  | @code a b c d cs digits _ ih =>
      obtain ⟨fuel, rfl⟩ := Nat.exists_eq_succ_of_ne_zero (Nat.ne_zero_of_lt enough)
      obtain ⟨n, hex⟩ := readHex_digits digits (cs ++ '"' :: rest)
      simp only [List.cons_append]
      rw [skipQuotedWith_escape (skipEscape_hex hex)]
      refine ih ?_
      simp only [List.length_cons] at enough
      omega

theorem Quotable.skipQuoted {cs : List Char} (quotable : Quotable cs) (rest : List Char) :
    skipQuoted (cs ++ '"' :: rest) = .ok rest := by
  refine quotable.skipQuotedWith ?_
  rw [List.length_append, List.length_cons]
  omega

/-! ## Passing over values -/

/-- As much fuel as the text has characters passes over it. -/
def Passable (cs : List Char) : Prop :=
  ∀ fuel rest, cs.length ≤ fuel → EndsNumber rest → skipWith fuel (cs ++ rest) = .ok rest

theorem endsNumber_cons {c : Char} (h : isDigit c = false ∧ c ≠ '.' ∧ c ≠ 'e' ∧ c ≠ 'E')
    (rest : List Char) : EndsNumber (c :: rest) := by
  intro c' same
  cases same
  exact h

theorem endsNumber_closing {bracket : Char} (plain : bracket = ']' ∨ bracket = '}')
    (parts : List (List Char)) (rest : List Char) : EndsNumber (closing bracket parts ++ rest) := by
  cases parts with
  | nil =>
      refine endsNumber_cons ?_ _
      rcases plain with rfl | rfl <;> decide
  | cons part parts => exact endsNumber_cons (by decide) _

/-- A text that starts like a value: neither a blank nor the end of a list. -/
def StartsValue (cs : List Char) : Prop :=
  ∃ c rest, cs = c :: rest ∧ isSpace c = false ∧ c ≠ ']'

theorem Unsigned.exists_cons {cs : List Char} (unsigned : Unsigned cs) :
    ∃ c ds, cs = c :: ds ∧ isDigit c = true := by
  obtain ⟨first, -, -⟩ := unsigned
  cases first with
  | zero => exact ⟨_, _, rfl, rfl⟩
  | digits digits _ => exact ⟨_, _, rfl, digits.each _ List.mem_cons_self⟩

theorem Value.startsValue {cs : List Char} (value : Value cs) (rest : List Char) :
    StartsValue (cs ++ rest) := by
  cases value with
  | number unsigned =>
      obtain ⟨c, ds, rfl, digit⟩ := unsigned.exists_cons
      refine ⟨c, ds ++ rest, rfl, isSpace_of_isDigit digit, ?_⟩
      rintro rfl
      cases digit
  | _ => exact ⟨_, _, rfl, rfl, by decide⟩

theorem Value.exists_cons {cs : List Char} (value : Value cs) :
    ∃ c rest, cs = c :: rest ∧ isSpace c = false := by
  obtain ⟨c, rest, chars, dark, -⟩ := value.startsValue []
  rw [List.append_nil] at chars
  exact ⟨c, rest, chars, dark⟩

theorem Value.eq_null {cs : List Char} (value : Value cs) (first : cs.head? = some 'n') :
    cs = ['n', 'u', 'l', 'l'] := by
  cases value with
  | null => rfl
  | number unsigned =>
      obtain ⟨c, ds, rfl, digit⟩ := unsigned.exists_cons
      cases first
      cases digit
  | _ => cases first

theorem StartsValue.skipSpace {cs : List Char} (starts : StartsValue cs) : skipSpace cs = cs := by
  obtain ⟨c, rest, rfl, dark, -⟩ := starts
  exact skipSpace_cons dark rest

theorem Item.chars_append (i : Item) (text : List Char) :
    i.chars ++ text = i.before.chars ++ (i.value ++ (i.after.chars ++ text)) := by
  simp only [Item.chars, List.append_assoc]

theorem Item.skipWith_chars {i : Item} (value : Passable i.value) {fuel : Nat}
    (enough : i.value.length ≤ fuel) {text : List Char} (ends : EndsNumber text) :
    skipWith fuel (i.chars ++ text) = .ok (i.after.chars ++ text) := by
  rw [i.chars_append, i.before.skipWith_append]
  exact value fuel _ enough (i.after.endsNumber_append ends)

section Items

variable {i : Item} {items : List Item} {text : List Char} {fuel : Nat}

theorem skipItemsWith_item (value : Passable i.value) (enough : i.value.length ≤ fuel)
    (ends : EndsNumber text) :
    skipItemsWith (fuel + 1) (i.chars ++ text) = skipItemEnd fuel text := by
  rw [skipItemsWith_succ, i.skipWith_chars value enough ends]
  exact i.after.skipItemEnd_append fuel text

theorem length_closing_pos (bracket : Char) (parts : List (List Char)) :
    0 < (closing bracket parts).length := by
  cases parts <;> exact Nat.zero_lt_succ _

theorem skipItemEnd_closing (each : ∀ i ∈ items, Passable i.value) (rest : List Char)
    (enough : (closing ']' (items.map Item.chars)).length ≤ fuel + 1) :
    skipItemEnd fuel (closing ']' (items.map Item.chars) ++ rest) = .ok rest := by
  induction items generalizing fuel with
  | nil => rfl
  | cons i items ih =>
      have some := length_closing_pos ']' (items.map Item.chars)
      rw [List.map_cons, closing, List.length_cons, List.length_append, Item.chars,
        List.length_append, List.length_append] at enough
      obtain ⟨fuel, rfl⟩ : ∃ less, fuel = less + 1 := ⟨fuel - 1, by omega⟩
      change skipItemsWith (fuel + 1) ((i.chars ++ closing ']' (items.map Item.chars)) ++ rest) = _
      rw [List.append_assoc, skipItemsWith_item (each i List.mem_cons_self) (by omega)
        (endsNumber_closing (.inl rfl) _ rest)]
      exact ih (fun i member => each i (List.mem_cons_of_mem _ member)) (by omega)

end Items

theorem skipList_of_starts {cs : List Char} (starts : StartsValue (skipSpace cs)) (fuel : Nat) :
    skipList fuel cs = skipItemsWith fuel (skipSpace cs) := by
  obtain ⟨c, rest, start, -, item⟩ := starts
  rw [skipList, start]
  split
  · contradiction
  · rename_i same
    exact absurd (List.cons.inj same).1 item
  · rfl

theorem skipItemsWith_skipSpace (fuel : Nat) (cs : List Char) :
    skipItemsWith fuel (skipSpace cs) = skipItemsWith fuel cs := by
  cases fuel with
  | zero => rfl
  | succ fuel => rw [skipItemsWith_succ, skipItemsWith_succ, skipWith_skipSpace]

theorem passable_listText (blanks : Blanks) {items : List Item}
    (values : ∀ i ∈ items, Value i.value) (each : ∀ i ∈ items, Passable i.value) :
    Passable (listText blanks items) := by
  intro fuel rest enough ends
  rw [listText, List.length_cons] at enough
  obtain ⟨fuel, rfl⟩ := Nat.exists_eq_succ_of_ne_zero (Nat.ne_zero_of_lt enough)
  rw [listText, List.cons_append, skipWith_succ]
  change skipList fuel (enclosed ']' blanks (items.map Item.chars) ++ rest) = _
  cases items with
  | nil =>
      change skipList fuel ((blanks.chars ++ [']']) ++ rest) = _
      rw [List.append_assoc, skipList, blanks.skipSpace_append]
      rfl
  | cons i items =>
      have some := length_closing_pos ']' (items.map Item.chars)
      have start := (values i List.mem_cons_self).startsValue
      rw [List.map_cons, enclosed, List.length_append, Item.chars, List.length_append,
        List.length_append] at enough
      obtain ⟨fuel, rfl⟩ : ∃ less, fuel = less + 1 := ⟨fuel - 1, by omega⟩
      rw [List.map_cons, enclosed, List.append_assoc]
      have starts : StartsValue
          (skipSpace (i.chars ++ (closing ']' (items.map Item.chars) ++ rest))) := by
        rw [i.chars_append, i.before.skipSpace_append, (start _).skipSpace]
        exact start _
      rw [skipList_of_starts starts, skipItemsWith_skipSpace,
        skipItemsWith_item (each i List.mem_cons_self) (by omega)
          (endsNumber_closing (.inl rfl) _ rest)]
      exact skipItemEnd_closing (fun i member => each i (List.mem_cons_of_mem _ member)) rest
        (by omega)

/-! ### Objects -/

theorem Member.chars_append (m : Member) (text : List Char) :
    m.chars ++ text = m.lead.chars ++
      '"' :: (m.key ++ '"' :: (m.gap.chars ++ ':' :: (m.toItem.chars ++ text))) := by
  simp only [Member.chars, List.append_assoc, List.cons_append]

theorem Member.skipKey_chars {m : Member} (quotable : Quotable m.key) (text : List Char) :
    skipKey (m.chars ++ text) = .ok (m.toItem.chars ++ text) := by
  rw [m.chars_append, m.lead.skipKey_append, skipKey, skipSpace_cons rfl]
  change (skipQuoted _ >>= readColon) = _
  rw [quotable.skipQuoted]
  exact m.gap.readColon_colon _

section Members

variable {m : Member} {members : List Member} {text : List Char} {fuel : Nat}

theorem skipMembersWith_member (value : Passable m.value) (enough : m.value.length ≤ fuel)
    (ends : EndsNumber text) :
    skipMembersWith (fuel + 1) (m.toItem.chars ++ text) = skipMemberEnd fuel text := by
  rw [skipMembersWith_succ, m.toItem.skipWith_chars value enough ends]
  exact m.after.skipMemberEnd_append fuel text

theorem Member.length_value_le (m : Member) : m.value.length ≤ m.chars.length := by
  simp only [Member.chars, Item.chars, List.length_append, List.length_cons]
  omega

theorem skipMemberEnd_closing (keys : ∀ m ∈ members, Quotable m.key)
    (each : ∀ m ∈ members, Passable m.value) (rest : List Char)
    (enough : (closing '}' (members.map Member.chars)).length ≤ fuel + 1) :
    skipMemberEnd fuel (closing '}' (members.map Member.chars) ++ rest) = .ok rest := by
  induction members generalizing fuel with
  | nil => rfl
  | cons m members ih =>
      have some := length_closing_pos '}' (members.map Member.chars)
      have bound := m.length_value_le
      rw [List.map_cons, closing, List.length_cons, List.length_append] at enough
      obtain ⟨fuel, rfl⟩ : ∃ less, fuel = less + 1 := ⟨fuel - 1, by omega⟩
      change (skipKey ((m.chars ++ closing '}' (members.map Member.chars)) ++ rest) >>=
        skipMembersWith (fuel + 1)) = _
      rw [List.append_assoc, m.skipKey_chars (keys m List.mem_cons_self)]
      change skipMembersWith (fuel + 1) _ = _
      rw [skipMembersWith_member (each m List.mem_cons_self) (by omega)
        (endsNumber_closing (.inr rfl) _ rest)]
      exact ih (fun m member => keys m (List.mem_cons_of_mem _ member))
        (fun m member => each m (List.mem_cons_of_mem _ member)) (by omega)

end Members

theorem passable_objectText (blanks : Blanks) {members : List Member}
    (keys : ∀ m ∈ members, Quotable m.key) (each : ∀ m ∈ members, Passable m.value) :
    Passable (objectText blanks members) := by
  intro fuel rest enough ends
  rw [objectText, List.length_cons] at enough
  obtain ⟨fuel, rfl⟩ := Nat.exists_eq_succ_of_ne_zero (Nat.ne_zero_of_lt enough)
  rw [objectText, List.cons_append, skipWith_succ]
  change skipObject fuel (enclosed '}' blanks (members.map Member.chars) ++ rest) = _
  cases members with
  | nil =>
      change skipObject fuel ((blanks.chars ++ ['}']) ++ rest) = _
      rw [List.append_assoc, skipObject, blanks.skipSpace_append]
      rfl
  | cons m members =>
      have some := length_closing_pos '}' (members.map Member.chars)
      have bound := m.length_value_le
      rw [List.map_cons, enclosed, List.length_append] at enough
      obtain ⟨fuel, rfl⟩ : ∃ less, fuel = less + 1 := ⟨fuel - 1, by omega⟩
      have key := m.skipKey_chars (keys m List.mem_cons_self)
        (closing '}' (members.map Member.chars) ++ rest)
      rw [m.chars_append, m.lead.skipKey_append] at key
      rw [List.map_cons, enclosed, List.append_assoc, m.chars_append, skipObject,
        m.lead.skipSpace_append, skipSpace_cons rfl]
      change (skipKey _ >>= skipMembersWith (fuel + 1)) = _
      rw [key]
      change skipMembersWith (fuel + 1) _ = _
      rw [skipMembersWith_member (each m List.mem_cons_self) (by omega)
        (endsNumber_closing (.inr rfl) _ rest)]
      exact skipMemberEnd_closing (fun m member => keys m (List.mem_cons_of_mem _ member))
        (fun m member => each m (List.mem_cons_of_mem _ member)) rest (by omega)

/-- A value can be passed over. -/
theorem Value.passable {cs : List Char} (value : Value cs) : Passable cs := by
  induction value with
  | null | yes | no =>
      intro fuel rest enough ends
      obtain ⟨fuel, rfl⟩ := Nat.exists_eq_succ_of_ne_zero (Nat.ne_zero_of_lt enough)
      rfl
  | number unsigned =>
      intro fuel rest enough ends
      have passed := unsigned.skipMagnitude ends
      obtain ⟨c, ds, rfl, digit⟩ := unsigned.exists_cons
      obtain ⟨fuel, rfl⟩ := Nat.exists_eq_succ_of_ne_zero (Nat.ne_zero_of_lt enough)
      have start := skipSpace_cons (isSpace_of_isDigit digit) (ds ++ rest)
      exact (skipWith_digit start digit fuel).trans passed
  | negative unsigned =>
      intro fuel rest enough ends
      obtain ⟨fuel, rfl⟩ := Nat.exists_eq_succ_of_ne_zero (Nat.ne_zero_of_lt enough)
      exact unsigned.skipMagnitude ends
  | text quotable =>
      intro fuel rest enough ends
      obtain ⟨fuel, rfl⟩ := Nat.exists_eq_succ_of_ne_zero (Nat.ne_zero_of_lt enough)
      rw [List.cons_append, List.append_assoc]
      exact quotable.skipQuoted rest
  | list blanks each ih => exact passable_listText blanks each ih
  | object blanks keys each ih => exact passable_objectText blanks keys ih

theorem Value.skip {cs rest : List Char} (value : Value cs) (ends : EndsNumber rest) :
    skip (cs ++ rest) = .ok rest := by
  refine value.passable _ rest ?_ ends
  rw [List.length_append]
  omega

theorem Value.passes {cs rest : List Char} (value : Value cs) (ends : EndsNumber rest) :
    Passes (cs ++ rest) rest :=
  ⟨_, value.passable _ rest (Nat.le_refl _) ends⟩

end GrantConsole.Json
