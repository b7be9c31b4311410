import GrantConsole.Json.Skip
import GrantConsole.Proofs.Json.Numeral
import Mathlib.Data.List.DropRight

/-!
# What can be passed over

A text that starts with a value is passed over up to one place, however much fuel there is. What a
reader of lists, of objects or of single values takes in can be passed over up to the same place, so
that all readers of a text agree on where its value ends.
-/

namespace GrantConsole.Json

open GrantConsole.Text

theorem skipSpace_cons {c : Char} (dark : isSpace c = false) (cs : List Char) :
    skipSpace (c :: cs) = c :: cs := by
  simp [skipSpace, dark]

theorem isSpace_of_isDigit {c : Char} (digit : isDigit c = true) : isSpace c = false := by
  rw [← Bool.not_eq_true]
  intro space
  simp only [isSpace, Bool.or_eq_true, beq_iff_eq] at space
  rcases space with ((rfl | rfl) | rfl) | rfl <;> cases digit

theorem readWord_eq_ok {word cs rest : List Char} (read : readWord word cs = .ok rest) :
    cs = word ++ rest := by
  induction word generalizing cs with
  | nil =>
      cases read
      rfl
  | cons w word ih =>
      cases cs with
      | nil => cases read
      | cons c cs =>
          rw [readWord] at read
          split at read
          · rename_i same
            rw [same, ih read, List.cons_append]
          · cases read

theorem readColon_eq_ok {cs rest : List Char} (read : readColon cs = .ok rest) :
    skipSpace cs = ':' :: rest := by
  unfold readColon at read
  split at read
  · cases read
  · cases read
    assumption
  · cases read

/-- Passes over a list after its bracket. -/
def skipList (fuel : Nat) (cs : List Char) : Except Fault (List Char) :=
  match skipSpace cs with
  | [] => .error .endInList
  | ']' :: rest => .ok rest
  | rest => skipItemsWith fuel rest

/-- Passes over an object after its brace. -/
def skipObject (fuel : Nat) (cs : List Char) : Except Fault (List Char) :=
  match skipSpace cs with
  | [] => .error .endInObject
  | '}' :: rest => .ok rest
  | rest => skipKey rest >>= skipMembersWith fuel

/-- Passes over what follows an item of a list. -/
def skipItemEnd (fuel : Nat) (cs : List Char) : Except Fault (List Char) :=
  match skipSpace cs with
  | [] => .error .endInList
  | ',' :: rest => skipItemsWith fuel rest
  | ']' :: rest => .ok rest
  | _ => .error .listCommaWanted

/-- Passes over what follows a member of an object. -/
def skipMemberEnd (fuel : Nat) (cs : List Char) : Except Fault (List Char) :=
  match skipSpace cs with
  | [] => .error .endInObject
  | ',' :: rest => skipKey rest >>= skipMembersWith fuel
  | '}' :: rest => .ok rest
  | _ => .error .objectCommaWanted

theorem skipItemsWith_succ (fuel : Nat) (cs : List Char) :
    skipItemsWith (fuel + 1) cs = skipWith fuel cs >>= skipItemEnd fuel := by
  rw [skipItemsWith]
  rfl

theorem skipMembersWith_succ (fuel : Nat) (cs : List Char) :
    skipMembersWith (fuel + 1) cs = skipWith fuel cs >>= skipMemberEnd fuel := by
  rw [skipMembersWith]
  rfl

/-- What passing over a value comes to, by the character that the value starts with. -/
theorem skipWith_succ (fuel : Nat) (cs : List Char) :
    skipWith (fuel + 1) cs = match skipSpace cs with
      | [] => .error .endInValue
      | 'n' :: rest => readWord ['u', 'l', 'l'] rest
      | 't' :: rest => readWord ['r', 'u', 'e'] rest
      | 'f' :: rest => readWord ['a', 'l', 's', 'e'] rest
      | '-' :: rest => skipMagnitude rest
      | '"' :: rest => skipQuoted rest
      | '[' :: rest => skipList fuel rest
      | '{' :: rest => skipObject fuel rest
      | c :: rest => if isDigit c then skipMagnitude (c :: rest) else .error .valueWanted := by
  rw [skipWith.eq_def]
  rfl

theorem skipWith_digit {cs ds : List Char} {c : Char} (start : skipSpace cs = c :: ds)
    (digit : isDigit c = true) (fuel : Nat) :
    skipWith (fuel + 1) cs = skipMagnitude (c :: ds) := by
  rw [skipWith_succ, start]
  split
  case h_1 same => cases same
  case h_9 same =>
    obtain ⟨rfl, rfl⟩ := List.cons.inj same
    exact if_pos digit
  all_goals
    rename_i same
    obtain ⟨rfl, -⟩ := List.cons.inj same
    cases digit

/-! ## More fuel -/

theorem skipList_mono {fuel more : Nat}
    (items : ∀ cs rest, skipItemsWith fuel cs = .ok rest → skipItemsWith more cs = .ok rest)
    {cs rest : List Char} (passed : skipList fuel cs = .ok rest) : skipList more cs = .ok rest := by
  unfold skipList at passed ⊢
  generalize skipSpace cs = text at passed ⊢
  split at passed
  · cases passed
  · exact passed
  · exact items _ _ passed

theorem skipObject_mono {fuel more : Nat}
    (members : ∀ cs rest, skipMembersWith fuel cs = .ok rest → skipMembersWith more cs = .ok rest)
    {cs rest : List Char} (passed : skipObject fuel cs = .ok rest) :
    skipObject more cs = .ok rest := by
  unfold skipObject at passed ⊢
  generalize skipSpace cs = text at passed ⊢
  split at passed
  · cases passed
  · exact passed
  · obtain ⟨after, key, passed⟩ := bind_eq_ok.mp passed
    exact bind_eq_ok.mpr ⟨after, key, members _ _ passed⟩

theorem skipItemEnd_mono {fuel more : Nat}
    (items : ∀ cs rest, skipItemsWith fuel cs = .ok rest → skipItemsWith more cs = .ok rest)
    {cs rest : List Char} (passed : skipItemEnd fuel cs = .ok rest) :
    skipItemEnd more cs = .ok rest := by
  unfold skipItemEnd at passed ⊢
  generalize skipSpace cs = text at passed ⊢
  split at passed
  · cases passed
  · exact items _ _ passed
  · exact passed
  · cases passed

theorem skipMemberEnd_mono {fuel more : Nat}
    (members : ∀ cs rest, skipMembersWith fuel cs = .ok rest → skipMembersWith more cs = .ok rest)
    {cs rest : List Char} (passed : skipMemberEnd fuel cs = .ok rest) :
    skipMemberEnd more cs = .ok rest := by
  unfold skipMemberEnd at passed ⊢
  generalize skipSpace cs = text at passed ⊢
  split at passed
  · cases passed
  · obtain ⟨after, key, passed⟩ := bind_eq_ok.mp passed
    exact bind_eq_ok.mpr ⟨after, key, members _ _ passed⟩
  · exact passed
  · cases passed

/-- What can be passed over can be passed over with more fuel. -/
theorem skip_mono {fuel more : Nat} (le : fuel ≤ more) :
    (∀ cs rest, skipWith fuel cs = .ok rest → skipWith more cs = .ok rest) ∧
      (∀ cs rest, skipItemsWith fuel cs = .ok rest → skipItemsWith more cs = .ok rest) ∧
      ∀ cs rest, skipMembersWith fuel cs = .ok rest → skipMembersWith more cs = .ok rest := by
  induction fuel generalizing more with
  | zero => exact ⟨nofun, nofun, nofun⟩
  | succ fuel ih =>
      obtain ⟨more, rfl⟩ := Nat.exists_eq_succ_of_ne_zero (Nat.ne_zero_of_lt le)
      obtain ⟨value, items, members⟩ := ih (Nat.le_of_succ_le_succ le)
      refine ⟨?_, ?_, ?_⟩
      · intro cs rest passed
        rw [skipWith_succ] at passed ⊢
        generalize skipSpace cs = text at passed ⊢
        split at passed
        -- Only lists and objects use the fuel.
        case h_7 => exact skipList_mono items passed
        case h_8 => exact skipObject_mono members passed
        all_goals exact passed
      · intro cs rest passed
        rw [skipItemsWith_succ] at passed ⊢
        obtain ⟨after, item, passed⟩ := bind_eq_ok.mp passed
        exact bind_eq_ok.mpr ⟨after, value _ _ item, skipItemEnd_mono items passed⟩
      · intro cs rest passed
        rw [skipMembersWith_succ] at passed ⊢
        obtain ⟨after, item, passed⟩ := bind_eq_ok.mp passed
        exact bind_eq_ok.mpr ⟨after, value _ _ item, skipMemberEnd_mono members passed⟩

/-- The text starts with a value that can be passed over up to `rest`. -/
def Passes (cs rest : List Char) : Prop :=
  ∃ fuel, skipWith fuel cs = .ok rest

theorem Passes.unique {cs rest rest' : List Char} (one : Passes cs rest)
    (other : Passes cs rest') : rest = rest' := by
  obtain ⟨fuel, one⟩ := one
  obtain ⟨fuel', other⟩ := other
  have one := (skip_mono (Nat.le_max_left fuel fuel')).1 _ _ one
  have other := (skip_mono (Nat.le_max_right fuel fuel')).1 _ _ other
  exact Except.ok.inj (one.symm.trans other)

theorem skipSpace_skipSpace (cs : List Char) : skipSpace (skipSpace cs) = skipSpace cs :=
  List.dropWhile_idempotent _ _

theorem passes_skipSpace {cs rest : List Char} : Passes (skipSpace cs) rest ↔ Passes cs rest := by
  constructor
  · rintro ⟨fuel, passed⟩
    refine ⟨fuel, ?_⟩
    cases fuel with
    | zero => cases passed
    | succ fuel => rwa [skipWith_succ, skipSpace_skipSpace, ← skipWith_succ] at passed
  · rintro ⟨fuel, passed⟩
    refine ⟨fuel, ?_⟩
    cases fuel with
    | zero => cases passed
    | succ fuel => rwa [skipWith_succ, skipSpace_skipSpace, ← skipWith_succ]

/-! ## Passing over what can be read -/

/-- Whatever the reader takes in can be passed over, up to the same place. -/
def ReadsValues {α : Type} (reader : Reader α) : Prop :=
  ∀ cs a rest, reader cs = .ok (a, rest) → Passes cs rest

theorem Passes.items {cs after rest : List Char} (item : Passes cs after)
    (others : ∃ fuel, skipItemEnd fuel after = .ok rest) :
    ∃ fuel, skipItemsWith fuel cs = .ok rest := by
  obtain ⟨fuel, item⟩ := item
  obtain ⟨fuel', others⟩ := others
  have left := Nat.le_max_left fuel fuel'
  have right := Nat.le_max_right fuel fuel'
  refine ⟨max fuel fuel' + 1, ?_⟩
  rw [skipItemsWith_succ, (skip_mono left).1 _ _ item]
  exact skipItemEnd_mono (skip_mono right).2.1 others

theorem Passes.members {cs after rest : List Char} (value : Passes cs after)
    (others : ∃ fuel, skipMemberEnd fuel after = .ok rest) :
    ∃ fuel, skipMembersWith fuel cs = .ok rest := by
  obtain ⟨fuel, value⟩ := value
  obtain ⟨fuel', others⟩ := others
  have left := Nat.le_max_left fuel fuel'
  have right := Nat.le_max_right fuel fuel'
  refine ⟨max fuel fuel' + 1, ?_⟩
  rw [skipMembersWith_succ, (skip_mono left).1 _ _ value]
  exact skipMemberEnd_mono (skip_mono right).2.2 others

theorem passes_of_start {cs text rest : List Char} (start : skipSpace cs = text)
    (passed : Passes text rest) : Passes cs rest :=
  passes_skipSpace.mp (start ▸ passed)

/-! ### Lists -/

theorem nextItem_eq_end {first : Bool} {cs rest : List Char}
    (next : nextItem first cs = .ok (false, rest)) : skipSpace cs = ']' :: rest := by
  unfold nextItem at next
  split at next
  · cases next
  · rename_i start
    cases next
    exact start
  · split at next
    · cases next
    · split at next
      · split at next <;> cases next
      · cases next

theorem nextItem_eq_first {cs text : List Char} (next : nextItem true cs = .ok (true, text)) :
    skipSpace cs = text ∧ ∃ c rest, text = c :: rest ∧ c ≠ ']' := by
  unfold nextItem at next
  split at next
  · cases next
  · cases next
  · rename_i c rest other start
    cases next
    exact ⟨start, c, rest, rfl, other⟩

theorem nextItem_eq_later {cs text : List Char} (next : nextItem false cs = .ok (true, text)) :
    ∃ rest, skipSpace cs = ',' :: rest ∧ skipSpace rest = text := by
  unfold nextItem at next
  split at next
  · cases next
  · cases next
  · rename_i c rest other start
    rw [if_neg Bool.false_ne_true] at next
    split at next
    · rename_i comma
      split at next
      · cases next
      · cases next
      · cases next
        exact ⟨rest, comma ▸ start, rfl⟩
    · cases next

theorem readItemsWith_eq_ok {α : Type} {item : Reader α} {fuel : Nat} {first : Bool}
    {cs rest : List Char} {as : List α}
    (read : readItemsWith item fuel first cs = .ok (as, rest)) :
    (as = [] ∧ nextItem first cs = .ok (false, rest)) ∨
      ∃ fuel' text a after as', nextItem first cs = .ok (true, text) ∧
        item text = .ok (a, after) ∧ as = a :: as' ∧
        fuel = fuel' + 1 ∧ readItemsWith item fuel' false after = .ok (as', rest) := by
  cases fuel with
  | zero => cases read
  | succ fuel =>
      obtain ⟨⟨more, text⟩, next, read⟩ := bind_eq_ok.mp read
      cases more with
      | false =>
          cases read
          exact .inl ⟨rfl, next⟩
      | true =>
          obtain ⟨⟨a, after⟩, head, read⟩ := bind_eq_ok.mp read
          obtain ⟨⟨as', rest'⟩, others, same⟩ := bind_eq_ok.mp read
          cases same
          exact .inr ⟨fuel, text, a, after, as', next, head, rfl, rfl, others⟩

/-- Passes over the items of a list, after its bracket or after an item. -/
def skipFrom (fuel : Nat) (first : Bool) (cs : List Char) : Except Fault (List Char) :=
  if first then skipList fuel cs else skipItemEnd fuel cs

theorem skipFrom_skipSpace (fuel : Nat) (first : Bool) (cs : List Char) :
    skipFrom fuel first (skipSpace cs) = skipFrom fuel first cs := by
  simp only [skipFrom, skipList, skipItemEnd, skipSpace_skipSpace]

theorem skipFrom_of_end {cs rest : List Char} (ended : skipSpace cs = ']' :: rest) (fuel : Nat)
    (first : Bool) : skipFrom fuel first cs = .ok rest := by
  cases first with
  | false =>
      change skipItemEnd fuel cs = _
      rw [skipItemEnd, ended]
      rfl
  | true =>
      change skipList fuel cs = _
      rw [skipList, ended]
      rfl

theorem skipFrom_of_item {first : Bool} {cs text after rest : List Char}
    (next : nextItem first cs = .ok (true, text)) (item : Passes text after)
    (others : ∃ fuel, skipFrom fuel false after = .ok rest) :
    ∃ fuel, skipFrom fuel first cs = .ok rest := by
  cases first with
  | false =>
      obtain ⟨between, comma, start⟩ := nextItem_eq_later next
      obtain ⟨fuel, passed⟩ := (passes_of_start start item).items others
      refine ⟨fuel, ?_⟩
      change skipItemEnd fuel cs = _
      rw [skipItemEnd, comma]
      exact passed
  | true =>
      obtain ⟨start, c, cs', rfl, inner⟩ := nextItem_eq_first next
      obtain ⟨fuel, passed⟩ := item.items others
      refine ⟨fuel, ?_⟩
      change skipList fuel cs = _
      rw [skipList, start]
      split
      · contradiction
      · rename_i same
        exact absurd (List.cons.inj same).1 inner
      · exact passed

theorem skipFrom_of_readItemsWith {α : Type} {item : Reader α} (each : ReadsValues item)
    {fuel : Nat} {first : Bool} {cs rest : List Char} {as : List α}
    (read : readItemsWith item fuel first cs = .ok (as, rest)) :
    ∃ fuel, skipFrom fuel first cs = .ok rest := by
  induction fuel generalizing first cs as with
  | zero => cases read
  | succ fuel ih =>
      rcases readItemsWith_eq_ok read with
        ⟨-, next⟩ | ⟨_, text, a, after, as, next, head, -, same, others⟩
      · exact ⟨0, skipFrom_of_end (nextItem_eq_end next) 0 first⟩
      · cases same
        exact skipFrom_of_item next (each _ _ _ head) (ih others)

theorem passes_list_of_skipFrom {cs body rest : List Char} (start : skipSpace cs = '[' :: body)
    (passed : ∃ fuel, skipFrom fuel true body = .ok rest) : Passes cs rest := by
  obtain ⟨fuel, passed⟩ := passed
  refine ⟨fuel + 1, ?_⟩
  rw [skipWith_succ, start]
  exact passed

theorem passes_list {α : Type} {item : Reader α} (each : ReadsValues item)
    {cs body rest : List Char} {as : List α} (start : skipSpace cs = '[' :: body)
    (read : readItems item body = .ok (as, rest)) : Passes cs rest :=
  passes_list_of_skipFrom start (skipFrom_of_readItemsWith each read)

/-! ### Objects -/

theorem readKey_eq_ok {cs rest : List Char} {key : Option String}
    (read : nextKey.key cs = .ok (key, rest)) :
    ∃ s, key = some s ∧ readQuoted cs = .ok (s, rest) := by
  obtain ⟨⟨s, after⟩, quoted, same⟩ := bind_eq_ok.mp read
  cases same
  exact ⟨s, rfl, quoted⟩

theorem nextKey_eq_end {first : Bool} {cs rest : List Char}
    (next : nextKey first cs = .ok (none, rest)) : skipSpace cs = '}' :: rest := by
  unfold nextKey at next
  split at next
  · cases next
  · rename_i start
    cases next
    exact start
  · split at next
    · split at next
      · obtain ⟨s, same, -⟩ := readKey_eq_ok next
        cases same
      · cases next
    · split at next
      · split at next
        · cases next
        · obtain ⟨s, same, -⟩ := readKey_eq_ok next
          cases same
        · cases next
        · cases next
      · cases next

theorem nextKey_eq_first {cs rest : List Char} {key : String}
    (next : nextKey true cs = .ok (some key, rest)) :
    ∃ body, skipSpace cs = '"' :: body ∧ readQuoted body = .ok (key, rest) := by
  unfold nextKey at next
  split at next
  · cases next
  · cases next
  · rename_i c body other start
    rw [if_pos rfl] at next
    split at next
    · rename_i quote
      obtain ⟨s, same, read⟩ := readKey_eq_ok next
      cases same
      exact ⟨body, quote ▸ start, read⟩
    · cases next

theorem nextKey_eq_later {cs rest : List Char} {key : String}
    (next : nextKey false cs = .ok (some key, rest)) :
    ∃ more body, skipSpace cs = ',' :: more ∧ skipSpace more = '"' :: body ∧
      readQuoted body = .ok (key, rest) := by
  unfold nextKey at next
  split at next
  · cases next
  · cases next
  · rename_i c more other start
    rw [if_neg Bool.false_ne_true] at next
    split at next
    · rename_i comma
      split at next
      · cases next
      · rename_i body quote
        obtain ⟨s, same, read⟩ := readKey_eq_ok next
        cases same
        exact ⟨more, body, comma ▸ start, quote, read⟩
      · cases next
      · cases next
    · cases next

theorem readMembersWith_eq_ok {σ : Type} {member : String → σ → Reader σ} {fuel : Nat}
    {first : Bool} {cs rest : List Char} {before after : σ}
    (read : readMembersWith member fuel first before cs = .ok (after, rest)) :
    (after = before ∧ nextKey first cs = .ok (none, rest)) ∨
      ∃ fuel' key text state between, nextKey first cs = .ok (some key, text) ∧
        member key before text = .ok (state, between) ∧ fuel = fuel' + 1 ∧
        readMembersWith member fuel' false state between = .ok (after, rest) := by
  cases fuel with
  | zero => cases read
  | succ fuel =>
      obtain ⟨⟨key, text⟩, next, read⟩ := bind_eq_ok.mp read
      cases key with
      | none =>
          cases read
          exact .inl ⟨rfl, next⟩
      | some key =>
          obtain ⟨⟨state, between⟩, head, others⟩ := bind_eq_ok.mp read
          exact .inr ⟨fuel, key, text, state, between, next, head, rfl, others⟩

/-- Whatever the reader of members takes in is a colon and a value that can be passed over. -/
def ReadsMembers {σ : Type} (member : String → σ → Reader σ) : Prop :=
  ∀ key before cs after rest, member key before cs = .ok (after, rest) →
    ∃ text, readColon cs = .ok text ∧ Passes text rest

theorem skipKey_of_readQuoted {cs body after text : List Char} {key : String}
    (start : skipSpace cs = '"' :: body) (read : readQuoted body = .ok (key, after))
    (colon : readColon after = .ok text) : skipKey cs = .ok text := by
  rw [skipKey, start]
  change (skipQuoted body >>= readColon) = _
  rw [skipQuoted_of_readQuoted read]
  exact colon

theorem skipMemberEnd_of_readMembersWith {σ : Type} {member : String → σ → Reader σ}
    (each : ReadsMembers member) {fuel : Nat} {cs rest : List Char} {before after : σ}
    (read : readMembersWith member fuel false before cs = .ok (after, rest)) :
    ∃ fuel, skipMemberEnd fuel cs = .ok rest := by
  induction fuel generalizing cs before with
  | zero => cases read
  | succ fuel ih =>
      rcases readMembersWith_eq_ok read with
        ⟨-, next⟩ | ⟨_, key, text, state, between, next, head, same, others⟩
      · refine ⟨0, ?_⟩
        rw [skipMemberEnd, nextKey_eq_end next]
        rfl
      · cases same
        obtain ⟨more, body, comma, quote, quoted⟩ := nextKey_eq_later next
        obtain ⟨value, colon, passed⟩ := each _ _ _ _ _ head
        obtain ⟨fuel', passed⟩ := passed.members (ih others)
        refine ⟨fuel', ?_⟩
        rw [skipMemberEnd, comma]
        change (skipKey more >>= skipMembersWith fuel') = _
        rw [skipKey_of_readQuoted quote quoted colon]
        exact passed

/-- An object with a member, and what follows that. -/
theorem passes_object_of_member {cs body between text after rest : List Char} {key : String}
    (start : skipSpace cs = '{' :: body) (next : nextKey true body = .ok (some key, between))
    (colon : readColon between = .ok text) (value : Passes text after)
    (others : ∃ fuel, skipMemberEnd fuel after = .ok rest) : Passes cs rest := by
  obtain ⟨quoted, quote, read⟩ := nextKey_eq_first next
  obtain ⟨fuel, passed⟩ := value.members others
  refine ⟨fuel + 1, ?_⟩
  rw [skipWith_succ, start]
  change skipObject fuel body = _
  rw [skipObject, quote]
  change (skipKey ('"' :: quoted) >>= skipMembersWith fuel) = _
  rw [skipKey_of_readQuoted (skipSpace_cons rfl quoted) read colon]
  exact passed

theorem passes_object {σ : Type} {member : String → σ → Reader σ} (each : ReadsMembers member)
    {cs body rest : List Char} {before after : σ} (start : skipSpace cs = '{' :: body)
    (read : readMembers member before body = .ok (after, rest)) : Passes cs rest := by
  rcases readMembersWith_eq_ok read with
    ⟨-, next⟩ | ⟨_, key, text, state, between, next, head, -, others⟩
  · refine ⟨1, ?_⟩
    rw [skipWith_succ, start]
    change skipObject 0 body = _
    rw [skipObject, nextKey_eq_end next]
    rfl
  · obtain ⟨value, colon, passed⟩ := each _ _ _ _ _ head
    exact passes_object_of_member start next colon passed
      (skipMemberEnd_of_readMembersWith each others)

/-! ### Words, numbers and text -/

theorem passes_quoted {cs body rest : List Char} {s : String} (start : skipSpace cs = '"' :: body)
    (read : readQuoted body = .ok (s, rest)) : Passes cs rest := by
  refine ⟨1, ?_⟩
  rw [skipWith_succ, start]
  exact skipQuoted_of_readQuoted read

theorem passes_negative {cs body rest : List Char} {n : Numeral}
    (start : skipSpace cs = '-' :: body)
    (read : readMagnitude true body = .ok (n, rest)) : Passes cs rest := by
  refine ⟨1, ?_⟩
  rw [skipWith_succ, start]
  exact skipMagnitude_of_readMagnitude read

theorem passes_digits {cs ds rest : List Char} {c : Char} {n : Numeral}
    (start : skipSpace cs = c :: ds) (digit : isDigit c = true)
    (read : readMagnitude false (c :: ds) = .ok (n, rest)) : Passes cs rest := by
  refine ⟨1, ?_⟩
  rw [skipWith_digit start digit]
  exact skipMagnitude_of_readMagnitude read

theorem passes_null {cs body rest : List Char} (start : skipSpace cs = 'n' :: body)
    (read : readWord ['u', 'l', 'l'] body = .ok rest) : Passes cs rest := by
  refine ⟨1, ?_⟩
  rw [skipWith_succ, start]
  exact read

theorem passes_true {cs body rest : List Char} (start : skipSpace cs = 't' :: body)
    (read : readWord ['r', 'u', 'e'] body = .ok rest) : Passes cs rest := by
  refine ⟨1, ?_⟩
  rw [skipWith_succ, start]
  exact read

theorem passes_false {cs body rest : List Char} (start : skipSpace cs = 'f' :: body)
    (read : readWord ['a', 'l', 's', 'e'] body = .ok rest) : Passes cs rest := by
  refine ⟨1, ?_⟩
  rw [skipWith_succ, start]
  exact read

/-! ## Readers that read more -/

/-- One reader takes in all that another one does. -/
def ReadsMore {α : Type} (reader more : Reader α) : Prop :=
  ∀ cs a rest, reader cs = .ok (a, rest) → more cs = .ok (a, rest)

theorem readItemsWith_mono {α : Type} {item more : Reader α} (each : ReadsMore item more)
    (fuel : Nat) (first : Bool) :
    ReadsMore (readItemsWith item fuel first) (readItemsWith more fuel first) := by
  induction fuel generalizing first with
  | zero => exact nofun
  | succ fuel ih =>
      intro cs as rest read
      obtain ⟨⟨there, text⟩, next, read⟩ := bind_eq_ok.mp read
      refine bind_eq_ok.mpr ⟨_, next, ?_⟩
      cases there with
      | false => exact read
      | true =>
          obtain ⟨⟨a, after⟩, head, read⟩ := bind_eq_ok.mp read
          obtain ⟨⟨as', rest'⟩, others, same⟩ := bind_eq_ok.mp read
          refine bind_eq_ok.mpr ⟨_, each _ _ _ head, ?_⟩
          exact bind_eq_ok.mpr ⟨_, ih false _ _ _ others, same⟩

theorem readMembersWith_mono {σ : Type} {member more : String → σ → Reader σ}
    (each : ∀ key s, ReadsMore (member key s) (more key s)) (fuel : Nat) (first : Bool) (s : σ) :
    ReadsMore (readMembersWith member fuel first s) (readMembersWith more fuel first s) := by
  induction fuel generalizing first s with
  | zero => exact nofun
  | succ fuel ih =>
      intro cs t rest read
      obtain ⟨⟨key, text⟩, next, read⟩ := bind_eq_ok.mp read
      refine bind_eq_ok.mpr ⟨_, next, ?_⟩
      cases key with
      | none => exact read
      | some key =>
          obtain ⟨⟨s', after⟩, head, others⟩ := bind_eq_ok.mp read
          exact bind_eq_ok.mpr ⟨_, each key s _ _ _ head, ih false s' _ _ _ others⟩

/-! ## Two readers of one text -/

/-- Two readers that go through the items of a list come by the same items. -/
theorem forall₂_of_readItemsWith {α β : Type} {one : Reader α} {other : Reader β}
    (reads : ReadsValues one) (reads' : ReadsValues other) {fuel fuel' : Nat} {first : Bool}
    {cs rest rest' : List Char} {as : List α} {bs : List β}
    (read : readItemsWith one fuel first cs = .ok (as, rest))
    (read' : readItemsWith other fuel' first cs = .ok (bs, rest')) :
    List.Forall₂ (fun b a => ∃ text after, one text = .ok (a, after) ∧ other text = .ok (b, after))
      bs as := by
  induction fuel generalizing first cs as bs fuel' with
  | zero => cases read
  | succ fuel ih =>
      rcases readItemsWith_eq_ok read with
        ⟨rfl, next⟩ | ⟨_, text, a, after, as, next, head, rfl, same, others⟩ <;>
      rcases readItemsWith_eq_ok read' with
        ⟨rfl, next'⟩ | ⟨_, text', b, after', bs, next', head', rfl, -, others'⟩
      · exact .nil
      · cases next.symm.trans next'
      · cases next.symm.trans next'
      · cases same
        cases next.symm.trans next'
        cases (reads _ _ _ head).unique (reads' _ _ _ head')
        exact .cons ⟨text, after, head, head'⟩ (ih others others')

/-- Two readers that go through the members of an object keep what each member keeps. -/
theorem readMembersWith_induction {σ τ : Type} {one : String → σ → Reader σ}
    {other : String → τ → Reader τ} (reads : ReadsMembers one) (reads' : ReadsMembers other)
    {kept : σ → τ → Prop}
    (step : ∀ key s t text s' t' after, kept s t → one key s text = .ok (s', after) →
      other key t text = .ok (t', after) → kept s' t')
    {fuel fuel' : Nat} {first : Bool} {cs rest rest' : List Char} {s s' : σ} {t t' : τ}
    (start : kept s t) (read : readMembersWith one fuel first s cs = .ok (s', rest))
    (read' : readMembersWith other fuel' first t cs = .ok (t', rest')) : kept s' t' := by
  induction fuel generalizing first cs s t fuel' with
  | zero => cases read
  | succ fuel ih =>
      rcases readMembersWith_eq_ok read with
        ⟨rfl, next⟩ | ⟨_, key, text, s₁, after, next, head, same, others⟩ <;>
      rcases readMembersWith_eq_ok read' with
        ⟨rfl, next'⟩ | ⟨_, key', text', t₁, after', next', head', -, others'⟩
      · exact start
      · cases next.symm.trans next'
      · cases next.symm.trans next'
      · cases same
        cases next.symm.trans next'
        obtain ⟨value, colon, passed⟩ := reads _ _ _ _ _ head
        obtain ⟨value', colon', passed'⟩ := reads' _ _ _ _ _ head'
        cases colon.symm.trans colon'
        cases passed.unique passed'
        exact ih (step _ _ _ _ _ _ _ start head head') others others'

end GrantConsole.Json
