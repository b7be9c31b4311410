import GrantConsole.Proofs.Json.Grammar
import Mathlib.Data.List.Forall2

/-!
# Taking in lists and objects

A reader that takes the items of a list in takes the list in, and one that goes through the members
of an object takes the object in, whatever blanks stand between their parts.
-/

namespace GrantConsole.Json

/-- A reader takes a text in as `a`, whatever follows that does not go on with a number. -/
def TakesIn {α : Type} (reader : Reader α) (text : List Char) (a : α) : Prop :=
  ∀ rest, EndsNumber rest → reader (text ++ rest) = .ok (a, rest)

/-- The reader takes the text in as `a` in one place at least. -/
def TakesInOnce {α : Type} (reader : Reader α) (text : List Char) (a : α) : Prop :=
  ∃ rest, EndsNumber rest ∧ reader (text ++ rest) = .ok (a, rest)

/-! ## Lists -/

theorem nextItem_skipSpace (first : Bool) (cs : List Char) :
    nextItem first (skipSpace cs) = nextItem first cs := by
  rw [nextItem, skipSpace_skipSpace, ← nextItem]

theorem nextItem_first {cs : List Char} (starts : StartsValue (skipSpace cs)) :
    nextItem true cs = .ok (true, skipSpace cs) := by
  obtain ⟨c, rest, start, -, item⟩ := starts
  rw [nextItem, start]
  split
  · contradiction
  · rename_i same
    exact absurd (List.cons.inj same).1 item
  · rename_i same
    rw [same]
    rfl

theorem nextItem_comma {cs : List Char} (starts : StartsValue (skipSpace cs)) :
    nextItem false (',' :: cs) = .ok (true, skipSpace cs) := by
  obtain ⟨c, rest, start, -, item⟩ := starts
  have comma : skipSpace (',' :: cs) = ',' :: cs := skipSpace_cons rfl cs
  rw [nextItem, comma]
  split
  · contradiction
  · rename_i same
    exact absurd (List.cons.inj same).1 (by decide)
  · rename_i same
    obtain ⟨rfl, rfl⟩ := List.cons.inj same
    rw [if_neg Bool.false_ne_true, if_pos rfl, start]
    split
    · contradiction
    · rename_i same
      exact absurd (List.cons.inj same).1 item
    · rfl

theorem readItemsWith_step {α : Type} {item : Reader α} {first : Bool}
    {cs text after rest : List Char} {a : α} {as : List α} {fuel : Nat}
    (next : nextItem first cs = .ok (true, text)) (read : item text = .ok (a, after))
    (others : readItemsWith item fuel false after = .ok (as, rest)) :
    readItemsWith item (fuel + 1) first cs = .ok (a :: as, rest) := by
  simp only [readItemsWith, next, read, others, bind, Except.bind, if_true]

theorem Blanks.readItemsWith_append {α : Type} (blanks : Blanks) (item : Reader α) (fuel : Nat)
    (first : Bool) (cs : List Char) :
    readItemsWith item fuel first (blanks.chars ++ cs) = readItemsWith item fuel first cs := by
  cases fuel with
  | zero => rfl
  | succ fuel =>
      rw [readItemsWith, ← nextItem_skipSpace, blanks.skipSpace_append, nextItem_skipSpace,
        ← readItemsWith]

theorem length_le_closing (bracket : Char) (parts : List (List Char)) :
    parts.length < (closing bracket parts).length := by
  induction parts with
  | nil => exact Nat.one_pos
  | cons part parts ih =>
      rw [closing, List.length_cons, List.length_cons, List.length_append]
      omega

section Items

variable {α : Type} {item : Reader α}

theorem Item.skipSpace_chars {i : Item} (starts : ∀ rest, StartsValue (i.value ++ rest))
    (text : List Char) : skipSpace (i.chars ++ text) = i.value ++ (i.after.chars ++ text) := by
  rw [i.chars_append, i.before.skipSpace_append, (starts _).skipSpace]

theorem readItemsWith_item {i : Item} {first : Bool} {cs text rest : List Char} {a : α}
    {as : List α} {fuel : Nat} (starts : ∀ rest, StartsValue (i.value ++ rest))
    (next : nextItem first cs = .ok (true, skipSpace (i.chars ++ text)))
    (head : TakesIn item i.value a) (ends : EndsNumber text)
    (others : readItemsWith item fuel false text = .ok (as, rest)) :
    readItemsWith item (fuel + 1) first cs = .ok (a :: as, rest) := by
  rw [Item.skipSpace_chars starts] at next
  refine readItemsWith_step next (head _ (i.after.endsNumber_append ends)) ?_
  rw [i.after.readItemsWith_append]
  exact others

theorem Item.startsValue_chars {i : Item} (starts : ∀ rest, StartsValue (i.value ++ rest))
    (text : List Char) : StartsValue (skipSpace (i.chars ++ text)) := by
  rw [Item.skipSpace_chars starts]
  exact starts _

theorem readItemsWith_closing {items : List Item} {as : List α}
    (starts : ∀ i ∈ items, ∀ rest, StartsValue (i.value ++ rest))
    (taken : List.Forall₂ (fun i a => TakesIn item i.value a) items as) (rest : List Char)
    {fuel : Nat} (enough : items.length < fuel) :
    readItemsWith item fuel false (closing ']' (items.map Item.chars) ++ rest) =
      .ok (as, rest) := by
  induction taken generalizing fuel with
  | nil =>
      obtain ⟨fuel, rfl⟩ := Nat.exists_eq_succ_of_ne_zero (Nat.ne_zero_of_lt enough)
      rfl
  | @cons i a items as head others ih =>
      obtain ⟨fuel, rfl⟩ := Nat.exists_eq_succ_of_ne_zero (Nat.ne_zero_of_lt enough)
      have start := starts i List.mem_cons_self
      rw [List.map_cons, closing, List.cons_append, List.append_assoc]
      refine readItemsWith_item start (nextItem_comma (Item.startsValue_chars start _)) head
        (endsNumber_closing (.inl rfl) _ rest) ?_
      exact ih (fun i member => starts i (List.mem_cons_of_mem _ member))
        (Nat.lt_of_succ_lt_succ enough)

/-- A reader that takes each item of a list in takes the list in. -/
theorem readItems_enclosed {items : List Item} {as : List α}
    (starts : ∀ i ∈ items, ∀ rest, StartsValue (i.value ++ rest))
    (taken : List.Forall₂ (fun i a => TakesIn item i.value a) items as) (blanks : Blanks)
    (rest : List Char) :
    readItems item (enclosed ']' blanks (items.map Item.chars) ++ rest) = .ok (as, rest) := by
  cases taken with
  | nil =>
      rw [List.map_nil, enclosed, List.append_assoc, readItems, blanks.readItemsWith_append]
      rfl
  | @cons i a items as head others =>
      have start := starts i List.mem_cons_self
      have enough := length_le_closing ']' (items.map Item.chars)
      rw [List.length_map] at enough
      rw [List.map_cons, enclosed, List.append_assoc, readItems]
      refine readItemsWith_item start (nextItem_first (Item.startsValue_chars start _)) head
        (endsNumber_closing (.inl rfl) _ rest) ?_
      apply readItemsWith_closing (fun i member => starts i (List.mem_cons_of_mem _ member)) others
      rw [List.length_append, List.length_append]
      omega

end Items

section Taken

variable {α : Type} {item : Reader α} (reads : ReadsValues item) {items : List Item}
  {text tail rest : List Char} {as : List α} {fuel : Nat}
include reads

/-- The first item that is taken in. -/
theorem exists_of_readItemsWith {i : Item} (value : Value i.value) {first : Bool} {cs : List Char}
    (next : nextItem first cs = .ok (true, skipSpace (i.chars ++ text))) (ends : EndsNumber text)
    (read : readItemsWith item fuel first cs = .ok (as, rest)) :
    ∃ a others fuel, as = a :: others ∧ TakesInOnce item i.value a ∧
      readItemsWith item fuel false text = .ok (others, rest) := by
  rw [Item.skipSpace_chars value.startsValue] at next
  rcases readItemsWith_eq_ok read with
    ⟨-, next'⟩ | ⟨fuel, _, a, after, as, next', head, rfl, -, others⟩
  · cases next.symm.trans next'
  · cases next.symm.trans next'
    have ends' := i.after.endsNumber_append ends
    obtain rfl := (reads _ _ _ head).unique (value.passes ends')
    rw [i.after.readItemsWith_append] at others
    exact ⟨a, as, fuel, rfl, ⟨_, ends', head⟩, others⟩

theorem forall₂_of_closing (values : ∀ i ∈ items, Value i.value)
    (read : readItemsWith item fuel false (closing ']' (items.map Item.chars) ++ tail) =
      .ok (as, rest)) :
    List.Forall₂ (fun i a => TakesInOnce item i.value a) items as := by
  induction items generalizing fuel as with
  | nil =>
      rcases readItemsWith_eq_ok read with ⟨rfl, -⟩ | ⟨_, _, a, _, as, next, -⟩
      · exact .nil
      · cases next
  | cons i items ih =>
      obtain ⟨value, values⟩ := List.forall_mem_cons.mp values
      rw [List.map_cons, closing, List.cons_append, List.append_assoc] at read
      obtain ⟨a, others, fuel, rfl, head, read⟩ := exists_of_readItemsWith reads value
        (nextItem_comma (Item.startsValue_chars value.startsValue _))
        (endsNumber_closing (.inl rfl) _ tail) read
      exact .cons head (ih values read)

/-- The items of a list are taken in where the list is read. -/
theorem forall₂_of_readItems (values : ∀ i ∈ items, Value i.value) {blanks : Blanks}
    (read : readItems item (enclosed ']' blanks (items.map Item.chars) ++ tail) = .ok (as, rest)) :
    List.Forall₂ (fun i a => TakesInOnce item i.value a) items as := by
  cases items with
  | nil =>
      rw [List.map_nil, enclosed, List.append_assoc, readItems, blanks.readItemsWith_append] at read
      rcases readItemsWith_eq_ok read with ⟨rfl, -⟩ | ⟨_, _, a, _, as, next, -⟩
      · exact .nil
      · cases next
  | cons i items =>
      obtain ⟨value, values⟩ := List.forall_mem_cons.mp values
      rw [List.map_cons, enclosed, List.append_assoc, readItems] at read
      obtain ⟨a, others, fuel, rfl, head, read⟩ := exists_of_readItemsWith reads value
        (nextItem_first (Item.startsValue_chars value.startsValue _))
        (endsNumber_closing (.inl rfl) _ tail) read
      exact .cons head (forall₂_of_closing reads values read)

end Taken

/-! ## Objects -/

theorem nextKey_skipSpace (first : Bool) (cs : List Char) :
    nextKey first (skipSpace cs) = nextKey first cs := by
  rw [nextKey, skipSpace_skipSpace, ← nextKey]

theorem Blanks.readMembersWith_append {σ : Type} (blanks : Blanks) (member : String → σ → Reader σ)
    (fuel : Nat) (first : Bool) (state : σ) (cs : List Char) :
    readMembersWith member fuel first state (blanks.chars ++ cs) =
      readMembersWith member fuel first state cs := by
  cases fuel with
  | zero => rfl
  | succ fuel =>
      rw [readMembersWith, ← nextKey_skipSpace, blanks.skipSpace_append, nextKey_skipSpace,
        ← readMembersWith]

/-- The colon of the member with its value. -/
def Member.valueChars (m : Member) : List Char :=
  m.gap.chars ++ ':' :: (m.before.chars ++ m.value)

/-- A member whose key is a text. -/
structure Named extends Member where
  name : String
  quotable : Quotable key
  names : readQuoted (key ++ ['"']) = .ok (name, [])

/-- The text of an object whose keys are texts. -/
def recordText (blanks : Blanks) (members : List Named) : List Char :=
  objectText blanks (members.map Named.toMember)

theorem value_recordText (blanks : Blanks) {members : List Named}
    (values : ∀ m ∈ members, Value m.value) : Value (recordText blanks members) :=
  .object blanks (List.forall_mem_map.mpr fun m _ => m.quotable) (List.forall_mem_map.mpr values)

theorem Member.skipSpace_chars (m : Member) (text : List Char) :
    skipSpace (m.chars ++ text) =
      '"' :: (m.key ++ '"' :: (m.valueChars ++ (m.after.chars ++ text))) := by
  rw [m.chars_append, m.lead.skipSpace_append, skipSpace_cons rfl]
  simp only [Member.valueChars, Item.chars, List.append_assoc, List.cons_append]

namespace Named

variable (m : Named)

theorem readKey (rest : List Char) :
    nextKey.key (m.key ++ '"' :: rest) = .ok (some m.name, rest) := by
  obtain ⟨text, same, whatever⟩ := exact_readQuoted _ _ _ m.names
  rw [List.append_nil] at same
  rw [nextKey.key, ← List.singleton_append, ← List.append_assoc, same, whatever]
  rfl

theorem nextKey_first (text : List Char) :
    nextKey true (m.chars ++ text) =
      .ok (some m.name, m.valueChars ++ (m.after.chars ++ text)) := by
  rw [nextKey, m.skipSpace_chars]
  exact m.readKey _

theorem nextKey_comma (text : List Char) :
    nextKey false (',' :: (m.chars ++ text)) =
      .ok (some m.name, m.valueChars ++ (m.after.chars ++ text)) := by
  have comma : skipSpace (',' :: (m.chars ++ text)) = ',' :: (m.chars ++ text) :=
    skipSpace_cons rfl _
  simp [nextKey, comma, m.skipSpace_chars, m.readKey]

end Named

/-- A reader of members goes through the members of an object from one state to another. -/
inductive GoesThrough {σ : Type} (member : String → σ → Reader σ) : List Named → σ → σ → Prop
  | nil (state : σ) : GoesThrough member [] state state
  | cons {m : Named} {members : List Named} {before state after : σ}
      (head : TakesIn (member m.name before) m.valueChars state)
      (others : GoesThrough member members state after) :
      GoesThrough member (m :: members) before after

theorem readMembersWith_step {σ : Type} {member : String → σ → Reader σ} {first : Bool}
    {cs text between rest : List Char} {key : String} {before state after : σ} {fuel : Nat}
    (next : nextKey first cs = .ok (some key, text))
    (read : member key before text = .ok (state, between))
    (others : readMembersWith member fuel false state between = .ok (after, rest)) :
    readMembersWith member (fuel + 1) first before cs = .ok (after, rest) := by
  simp only [readMembersWith, next, read, others, bind, Except.bind]

section Through

variable {σ : Type} {member : String → σ → Reader σ} {members : List Named} {before after : σ}

theorem readMembersWith_member {m : Named} {first : Bool} {state : σ} {cs text rest : List Char}
    {fuel : Nat}
    (next : nextKey first cs = .ok (some m.name, m.valueChars ++ (m.after.chars ++ text)))
    (head : TakesIn (member m.name before) m.valueChars state) (ends : EndsNumber text)
    (others : readMembersWith member fuel false state text = .ok (after, rest)) :
    readMembersWith member (fuel + 1) first before cs = .ok (after, rest) := by
  refine readMembersWith_step next (head _ (m.after.endsNumber_append ends)) ?_
  rw [m.after.readMembersWith_append]
  exact others

theorem readMembersWith_closing (through : GoesThrough member members before after)
    (rest : List Char) {fuel : Nat} (enough : members.length < fuel) :
    readMembersWith member fuel false before
      (closing '}' ((members.map Named.toMember).map Member.chars) ++ rest) =
        .ok (after, rest) := by
  induction through generalizing fuel with
  | nil state =>
      obtain ⟨fuel, rfl⟩ := Nat.exists_eq_succ_of_ne_zero (Nat.ne_zero_of_lt enough)
      rfl
  | @cons m members _ _ _ head others ih =>
      obtain ⟨fuel, rfl⟩ := Nat.exists_eq_succ_of_ne_zero (Nat.ne_zero_of_lt enough)
      rw [List.map_cons, List.map_cons, closing, List.cons_append, List.append_assoc]
      refine readMembersWith_member (m.nextKey_comma _) head
        (endsNumber_closing (.inr rfl) _ rest) ?_
      exact ih (Nat.lt_of_succ_lt_succ enough)

/-- A reader of members that goes through the members of an object takes the object in. -/
theorem readMembers_enclosed (through : GoesThrough member members before after) (blanks : Blanks)
    (rest : List Char) :
    readMembers member before
      (enclosed '}' blanks ((members.map Named.toMember).map Member.chars) ++ rest) =
        .ok (after, rest) := by
  cases through with
  | nil =>
      rw [List.map_nil, List.map_nil, enclosed, List.append_assoc, readMembers,
        blanks.readMembersWith_append]
      rfl
  | @cons m members _ state _ head others =>
      have enough := length_le_closing '}' ((members.map Named.toMember).map Member.chars)
      rw [List.length_map, List.length_map] at enough
      rw [List.map_cons, List.map_cons, enclosed, List.append_assoc, readMembers]
      refine readMembersWith_member (m.nextKey_first _) head
        (endsNumber_closing (.inr rfl) _ rest) ?_
      apply readMembersWith_closing others
      rw [List.length_append, List.length_append]
      omega

end Through

/-- A reader of members has gone through the members of an object, in one place at least. -/
inductive GoesThroughOnce {σ : Type} (member : String → σ → Reader σ) :
    List Named → σ → σ → Prop
  | nil (state : σ) : GoesThroughOnce member [] state state
  | cons {m : Named} {members : List Named} {before state after : σ}
      (head : TakesInOnce (member m.name before) m.valueChars state)
      (others : GoesThroughOnce member members state after) :
      GoesThroughOnce member (m :: members) before after

section Once

variable {σ : Type} {member : String → σ → Reader σ} (reads : ReadsMembers member)
  {members : List Named} {before after : σ} {text tail rest : List Char} {fuel : Nat}
include reads

/-- The first member that is gone through. -/
theorem exists_of_readMembersWith {m : Named} (value : Value m.value) {first : Bool}
    {cs : List Char}
    (next : nextKey first cs = .ok (some m.name, m.valueChars ++ (m.after.chars ++ text)))
    (ends : EndsNumber text)
    (read : readMembersWith member fuel first before cs = .ok (after, rest)) :
    ∃ state fuel, TakesInOnce (member m.name before) m.valueChars state ∧
      readMembersWith member fuel false state text = .ok (after, rest) := by
  rcases readMembersWith_eq_ok read with
    ⟨-, next'⟩ | ⟨fuel, key, _, state, between, next', head, -, others⟩
  · cases next.symm.trans next'
  · cases next.symm.trans next'
    have ends' := m.after.endsNumber_append ends
    obtain ⟨inner, colon, passed⟩ := reads _ _ _ _ _ head
    rw [Member.valueChars, List.append_assoc, List.cons_append, m.gap.readColon_colon] at colon
    cases colon
    rw [List.append_assoc, ← passes_skipSpace, m.before.skipSpace_append,
      passes_skipSpace] at passed
    obtain rfl := passed.unique (value.passes ends')
    rw [m.after.readMembersWith_append] at others
    exact ⟨state, fuel, ⟨_, ends', head⟩, others⟩

theorem goesThroughOnce_of_closing (values : ∀ m ∈ members, Value m.value)
    (read : readMembersWith member fuel false before
      (closing '}' ((members.map Named.toMember).map Member.chars) ++ tail) = .ok (after, rest)) :
    GoesThroughOnce member members before after := by
  induction members generalizing fuel before with
  | nil =>
      rcases readMembersWith_eq_ok read with ⟨rfl, -⟩ | ⟨_, _, _, _, _, next, -⟩
      · exact .nil _
      · cases next
  | cons m members ih =>
      obtain ⟨value, values⟩ := List.forall_mem_cons.mp values
      rw [List.map_cons, List.map_cons, closing, List.cons_append, List.append_assoc] at read
      obtain ⟨state, fuel, head, read⟩ := exists_of_readMembersWith reads value
        (m.nextKey_comma _) (endsNumber_closing (.inr rfl) _ tail) read
      exact .cons head (ih values read)

/-- The members of an object are gone through where the object is read. -/
theorem goesThroughOnce_of_readMembers (values : ∀ m ∈ members, Value m.value) {blanks : Blanks}
    (read : readMembers member before
      (enclosed '}' blanks ((members.map Named.toMember).map Member.chars) ++ tail) =
        .ok (after, rest)) :
    GoesThroughOnce member members before after := by
  cases members with
  | nil =>
      rw [List.map_nil, List.map_nil, enclosed, List.append_assoc, readMembers,
        blanks.readMembersWith_append] at read
      rcases readMembersWith_eq_ok read with ⟨rfl, -⟩ | ⟨_, _, _, _, _, next, -⟩
      · exact .nil _
      · cases next
  | cons m members =>
      obtain ⟨value, values⟩ := List.forall_mem_cons.mp values
      rw [List.map_cons, List.map_cons, enclosed, List.append_assoc, readMembers] at read
      obtain ⟨state, fuel, head, read⟩ := exists_of_readMembersWith reads value
        (m.nextKey_first _) (endsNumber_closing (.inr rfl) _ tail) read
      exact .cons head (goesThroughOnce_of_closing reads values read)

end Once

end GrantConsole.Json
