import GrantConsole.Proofs.Record.Passing
import GrantConsole.Proofs.Record.Written

/-!
# Records and free values of one text

A text may be read as a record or as a free value. Where the free value is plain, which is to say
that everything stands in the form in which it is written, it is the value of the record.
-/

namespace GrantConsole.Record

open GrantConsole.Json GrantConsole.Number GrantConsole.Text

mutual
/--
Everything stands in the form in which it is written: no record as a list, no choice as an object,
no binary number as a whole one, and whole numbers as whole numbers of 64 bits.
-/
def Shape.isPlain {α : Type} : Shape α → Json → Bool
  | .text, _ | .flag, _ => true
  | .amount, v =>
    match v with
    | .whole _ => false
    | _ => true
  | .whole, v =>
    match v with
    | .real _ => false
    | .whole n => -int64Bound ≤ n ∧ n < int64Bound
    | _ => true
  | .choice _ _, v =>
    match v with
    | .object _ => false
    | _ => true
  | .optional inner, v => inner.isPlain v
  | .list item, v =>
    match v with
    | .array items => items.all fun v => item.isPlain v
    | _ => true
  | .record _ fields _ _, v =>
    match v with
    | .array _ => false
    | .object members => fields.isPlain members
    | _ => true

def Fields.isPlain {β : Type} : Fields β → List (String × Json) → Bool
  | .nil, _ => true
  | .cons key shape _ others, members =>
    (match members.lookup key with
      | some v => shape.isPlain v
      | none => true) && others.isPlain members
end

mutual
/--
The shape leaves no doubt about what it reads: no null is taken for a value, no object without
members for a record, and the key of embedded texts belongs to no choice and to no field.
-/
def Shape.Definite {α : Type} : Shape α → Prop
  | .text | .flag | .amount | .whole => True
  | .choice spell choices => ∀ a ∈ choices, spell a ≠ embeddedKey
  | .optional inner => inner.ofJson? .null = none ∧ inner.Definite
  | .list item => item.Definite
  | .record _ fields _ _ =>
    (embeddedKey :: fields.keys).Nodup ∧ fields.ofMembers? [] = none ∧ fields.Definite

def Fields.Definite {β : Type} : Fields β → Prop
  | .nil => True
  | .cons _ shape _ others => shape.Definite ∧ others.Definite
end

/-! ## Values without parts -/

theorem readText_agrees {wanted : String} {value : String → Except Fault Json} {depth : Nat}
    {cs rest rest' : List Char} {s : String} {v : Json} (read : readText wanted cs = .ok (s, rest))
    (free : FreeValue value depth (skipSpace cs) v rest') : v = .text s := by
  obtain ⟨body, start, read⟩ := readText_eq_ok read
  obtain ⟨s', quoted, rfl⟩ := (start ▸ free).eq_text
  cases read.symm.trans quoted
  rfl

theorem readFlag_agrees {value : String → Except Fault Json} {depth : Nat}
    {cs rest rest' : List Char} {b : Bool} {v : Json} (read : readFlag cs = .ok (b, rest))
    (free : FreeValue value depth (skipSpace cs) v rest') : v = .bool b := by
  unfold readFlag at read
  split at read
  · rename_i start
    obtain ⟨rest', word, same⟩ := bind_eq_ok.mp read
    cases same
    exact (start ▸ free).eq_true
  · rename_i start
    obtain ⟨rest', word, same⟩ := bind_eq_ok.mp read
    cases same
    exact (start ▸ free).eq_false
  · exact absurd read wrongKind_ne_ok

theorem readAmount_agrees {value : String → Except Fault Json} {depth : Nat}
    {cs rest rest' : List Char} {x : Binary64} {v : Json} (read : readAmount cs = .ok (x, rest))
    (free : FreeValue value depth (skipSpace cs) v rest') :
    ∃ n : Numeral, v = n.toJson ∧ x = Numeral.toReal n := by
  unfold readAmount at read
  split at read
  · rename_i start
    obtain ⟨⟨n, after⟩, number, same⟩ := bind_eq_ok.mp read
    obtain ⟨n', number', rfl⟩ := (start ▸ free).eq_negative
    cases same
    cases number.symm.trans number'
    exact ⟨n, rfl, rfl⟩
  · rename_i start
    split at read
    · rename_i digit
      obtain ⟨⟨n, after⟩, number, same⟩ := bind_eq_ok.mp read
      obtain ⟨n', number', rfl⟩ := (start ▸ free).eq_digits digit
      cases same
      cases number.symm.trans number'
      exact ⟨n, rfl, rfl⟩
    · exact absurd read wrongKind_ne_ok
  · cases read

theorem chooseSpelled_eq_ok {α : Type} {spell : α → String} {choices : List α} {s : String} {a : α}
    (chosen : chooseSpelled spell choices s = .ok a) :
    choices.find? (fun a => spell a == s) = some a := by
  unfold chooseSpelled at chosen
  split at chosen
  · cases chosen
    assumption
  · cases chosen

theorem readChoice_agrees {α : Type} {spell : α → String} {choices : List α} {depth : Nat}
    (spelled : ∀ a ∈ choices, spell a ≠ embeddedKey) {value : String → Except Fault Json}
    {cs rest rest' : List Char} {a : α} {v : Json}
    (read : readChoice spell choices depth cs = .ok (a, rest))
    (free : FreeValue value depth (skipSpace cs) v rest')
    (plain : (Shape.choice spell choices).isPlain v = true) :
    ∃ s, v = .text s ∧ choices.find? (fun a => spell a == s) = some a := by
  rcases readChoice_eq_ok read with ⟨body, s, start, read, chosen⟩ |
    ⟨less, body, quoted, s, between, text, after, rfl, start, quote, key, chosen, -⟩
  · obtain ⟨s', quoted, rfl⟩ := (start ▸ free).eq_text
    cases read.symm.trans quoted
    exact ⟨s, rfl, chooseSpelled_eq_ok chosen⟩
  · rcases (start ▸ free).eq_object with ⟨inner, next, -⟩ | ⟨members, -, rfl⟩
    · -- The key would have to be a spelling.
      cases next.symm.trans (nextKey_of_quoted quote key)
      have found := chooseSpelled_eq_ok chosen
      have same := List.find?_some (p := fun a => spell a == embeddedKey) found
      exact absurd (eq_of_beq same) (spelled a (List.mem_of_find?_eq_some found))
    · cases plain

/-! ## Slots and members -/

theorem lookup_insertMember (key other : String) (v : Json) (members : List (String × Json)) :
    (insertMember key v members).lookup other =
      if other = key then some v else members.lookup other := by
  induction members with
  | nil => exact lookup_cons_eq_ite key other v []
  | cons m members ih =>
      obtain ⟨k, w⟩ := m
      rw [insertMember]
      by_cases same : key = k
      · rw [if_pos same, lookup_cons_eq_ite, lookup_cons_eq_ite, ← same]
        split <;> rfl
      · rw [if_neg same]
        split
        · rw [lookup_cons_eq_ite]
        · rw [lookup_cons_eq_ite, ih, lookup_cons_eq_ite]
          grind

namespace Fields

/-- The slots hold what the members stand for, as far as that is plain. -/
def Matches {β : Type} : (fields : Fields β) → fields.Slots → List (String × Json) → Prop
  | .nil, _, _ => True
  | .cons key shape _ others, slots, members =>
    (match slots.1 with
      | none => members.lookup key = none
      | some a =>
        ∃ v, members.lookup key = some v ∧ (shape.isPlain v = true → shape.ofJson? v = some a)) ∧
      others.Matches slots.2 members

theorem matches_emptySlots {β : Type} : (fields : Fields β) → fields.Matches fields.emptySlots []
  | .nil => trivial
  | .cons _ _ _ others => ⟨rfl, others.matches_emptySlots⟩

theorem isPlain_nil {β : Type} : (fields : Fields β) → fields.isPlain [] = true
  | .nil => rfl
  | .cons _ _ _ others => others.isPlain_nil

theorem isPlain_cons {α β : Type} {key : String} {shape : Shape α} {presence : Presence α}
    {others : Fields β} {members : List (String × Json)}
    (plain : (Fields.cons key shape presence others).isPlain members = true) :
    (∀ v, members.lookup key = some v → shape.isPlain v = true) ∧
      others.isPlain members = true := by
  obtain ⟨first, plain⟩ := Bool.and_eq_true_iff.mp plain
  refine ⟨?_, plain⟩
  intro v found
  simpa only [found] using first

/-- What comes under another key changes no field. -/
theorem Matches.insertMember {β : Type} {key : String} {v : Json} {members : List (String × Json)} :
    {fields : Fields β} → {slots : fields.Slots} → fields.Matches slots members →
    key ∉ fields.keys → fields.Matches slots (Json.insertMember key v members)
  | .nil, _, _, _ => trivial
  | .cons k shape _ others, slots, held, unknown => by
      have apart : k ≠ key := fun same => unknown (same ▸ List.mem_cons_self)
      refine ⟨?_, held.2.insertMember fun known => unknown (List.mem_cons_of_mem k known)⟩
      rw [lookup_insertMember, if_neg apart]
      exact held.1

/-- The record of filled slots is what the members stand for. -/
theorem Matches.ofMembers? {β : Type} {members : List (String × Json)} :
    {fields : Fields β} → {slots : fields.Slots} → {b : β} → fields.Matches slots members →
    fields.isPlain members = true → fields.fill slots = .ok b → fields.ofMembers? members = some b
  | .nil, _, _, _, _, _ => rfl
  | .cons key shape presence others, slots, (a, b), held, plain, filled => by
      obtain ⟨first, filled⟩ := fill_cons_eq_ok.mp filled
      obtain ⟨plain, plain'⟩ := isPlain_cons plain
      refine ofMembers?_cons_eq_some.mpr ⟨?_, held.2.ofMembers? plain' filled⟩
      have there := held.1
      unfold valueIn?
      cases slot : slots.1 with
      | none =>
          rw [slot] at there first
          rw [there]
          exact first
      | some a' =>
          rw [slot] at there first
          obtain ⟨v, found, value⟩ := there
          rw [found, Option.map_some, value (plain v found)]
          exact first

theorem place_of_unknown {β : Type} {key : String} {depth : Nat} :
    {fields : Fields β} → {before after : fields.Slots} → {cs rest : List Char} →
    fields.place depth key before cs = .ok (after, rest) → key ∉ fields.keys → after = before
  | .nil, _, _, _, _, _, _ => rfl
  | .cons k shape _ others, before, after, cs, rest, placed, unknown => by
      rcases place_cons_eq_ok placed with ⟨same, -⟩ | ⟨-, first, placed⟩
      · exact absurd (same ▸ List.mem_cons_self) unknown
      · have others := place_of_unknown placed fun known => unknown (List.mem_cons_of_mem k known)
        exact Prod.ext first others

end Fields

/-- An object that stands for an embedded text has no member of a record. -/
theorem slots_of_embedded {β : Type} {fields : Fields β} {depth : Nat}
    (unknown : embeddedKey ∉ fields.keys) {value : String → Except Fault Json}
    {body inner rest rest' : List Char} {slots : fields.Slots} {v : Json}
    (next : nextKey true body = .ok (some embeddedKey, inner))
    (embedded : readEmbedded value inner = .ok (v, rest'))
    (read : readMembers (fun key slots cs => fields.place depth key slots cs) fields.emptySlots
      body = .ok (slots, rest)) : slots = fields.emptySlots := by
  obtain ⟨text, quoted, s, after, colon, quote, quoted, -, ended⟩ := readEmbedded_eq_ok embedded
  rcases readMembersWith_eq_ok read with
    ⟨same, -⟩ | ⟨_, key, text', state, between, next', placed, -, others⟩
  · exact same
  · cases next.symm.trans next'
    obtain rfl := Fields.place_of_unknown placed unknown
    obtain ⟨text', colon', passed⟩ := fields.readsMembers_place depth _ _ _ _ _ placed
    cases colon.symm.trans colon'
    cases passed.unique (passes_quoted quote quoted)
    -- Behind the text stands the brace, so no member follows.
    rcases readMembersWith_eq_ok others with
      ⟨same, -⟩ | ⟨_, key, text'', state', between', next'', -⟩
    · exact same
    · obtain ⟨more, body', comma, -⟩ := nextKey_eq_later next''
      cases ended.symm.trans comma

mutual
/-- Where a text can be read as a record and as a plain value, the value is that of the record. -/
theorem Shape.ofJson?_of_read {α : Type} : (shape : Shape α) → shape.Definite →
    {depth fuel : Nat} → {cs rest rest' : List Char} → {a : α} → {v : Json} →
    shape.read depth cs = .ok (a, rest) →
    readWith (embeddedValue fuel) depth cs = .ok (v, rest') → shape.isPlain v = true →
    shape.ofJson? v = some a
  | .text, _, depth, fuel, cs, rest, rest', a, v, found, free, _ => by
      rw [readText_agrees found (freeValue_of_readWith free)]
      rfl
  | .flag, _, depth, fuel, cs, rest, rest', a, v, found, free, _ => by
      rw [readFlag_agrees found (freeValue_of_readWith free)]
      rfl
  | .amount, _, depth, fuel, cs, rest, rest', a, v, found, free, _ => by
      obtain ⟨n, rfl, rfl⟩ := readAmount_agrees found (freeValue_of_readWith free)
      cases n <;> rfl
  | .whole, _, depth, fuel, cs, rest, rest', a, v, found, free, _ => by
      obtain ⟨v', value, coerced⟩ := read_whole_eq_ok found
      obtain rfl := readWith_unique free value
      rw [Shape.ofJson?, coerced]
      rfl
  | .choice spell choices, spelled, depth, fuel, cs, rest, rest', a, v, found, free, plain => by
      obtain ⟨s, rfl, chosen⟩ := readChoice_agrees spelled found (freeValue_of_readWith free) plain
      exact chosen
  | .optional inner, definite, depth, fuel, cs, rest, rest', a, v, found, free, plain => by
      rcases read_optional_eq_ok found with ⟨body, start, -, rfl⟩ | ⟨-, b, inside, rfl⟩
      · have free := freeValue_of_readWith free
        rw [start] at free
        rw [free.eq_null]
        rfl
      · rw [← readWith_skipSpace] at free
        have value := inner.ofJson?_of_read definite.2 inside free plain
        have some : v ≠ .null := by
          rintro rfl
          cases definite.1.symm.trans value
        rw [ofJson?_optional some, value]
        rfl
  | .list item, definite, depth, fuel, cs, rest, rest', as, v, found, free, plain => by
      obtain ⟨less, body, rfl, start, found⟩ := read_list_eq_ok found
      obtain ⟨items, list, rfl⟩ := (start ▸ freeValue_of_readWith free).eq_array
      have each :=
        forall₂_of_readItemsWith (item.readsValues_read less) (readsValues_readWith _ less)
        found list
      have plain := List.all_eq_true.mp plain
      refine mapM_eq_some_iff.mpr (((List.forall₂_and_left _ _).mpr ⟨plain, each⟩).imp ?_)
      rintro v a ⟨plain, text, after, found, free⟩
      have definite : item.Definite := definite
      exact item.ofJson?_of_read definite found free plain
  | .record _ fields make _, definite, depth, fuel, cs, rest, rest', a, v, found, free, plain => by
      obtain ⟨less, body, b, rfl, rfl, ⟨start, slots, found, filled⟩ | ⟨start, -⟩⟩ :=
        read_record_eq_ok found
      · obtain ⟨unknown, keys⟩ := List.nodup_cons.mp definite.1
        rcases (start ▸ freeValue_of_readWith free).eq_object with
          ⟨inner, next, embedded⟩ | ⟨members, object, rfl⟩
        · obtain rfl := slots_of_embedded unknown next embedded found
          have bare := fields.matches_emptySlots.ofMembers? fields.isPlain_nil filled
          cases definite.2.1.symm.trans bare
        · have held := readMembersWith_induction (fields.readsMembers_place less)
            (readsMembers_readMember (readsValues_readWith _ less))
            (fun key slots before text slots' after rest held placed member =>
              fields.matches_of_place keys definite.2.2 held placed member)
            fields.matches_emptySlots found object
          have value := held.ofMembers? plain filled
          rw [Shape.ofJson?, value]
          rfl
      · obtain ⟨items, -, rfl⟩ := (start ▸ freeValue_of_readWith free).eq_array
        cases plain

/-- A member that goes into a slot stands under the key of the field. -/
theorem Fields.matches_of_place {β : Type} : (fields : Fields β) → fields.keys.Nodup →
    fields.Definite → {depth fuel : Nat} → {key : String} → {slots slots' : fields.Slots} →
    {members members' : List (String × Json)} → {cs rest rest' : List Char} →
    fields.Matches slots members → fields.place depth key slots cs = .ok (slots', rest) →
    readMember (embeddedValue fuel) depth key members cs = .ok (members', rest') →
    fields.Matches slots' members'
  | .nil, _, _, depth, fuel, key, slots, slots', members, members', cs, rest, rest', _, _, _ =>
      trivial
  | .cons k shape _ others, keys, definite, depth, fuel, key, slots, slots', members, members', cs,
    rest, rest', held, placed, member => by
      obtain ⟨unknown, keys⟩ := List.nodup_cons.mp keys
      obtain ⟨text, v, colon, free, rfl⟩ := readMember_eq_ok member
      rcases place_cons_eq_ok placed with
        ⟨rfl, -, text', a, colon', found, rfl⟩ | ⟨other, first, placed⟩
      · cases colon.symm.trans colon'
        refine ⟨⟨v, ?_, fun plain => shape.ofJson?_of_read definite.1 found free plain⟩,
          held.2.insertMember unknown⟩
        rw [lookup_insertMember, if_pos rfl]
      · refine ⟨?_, others.matches_of_place keys definite.2 held.2 placed member⟩
        rw [first, lookup_insertMember, if_neg (Ne.symm other)]
        exact held.1
end

/-- A text with a plain value is read as the record that the value stands for. -/
theorem Shape.ofJson?_of_parse {α : Type} {shape : Shape α} (definite : shape.Definite) {s : String}
    {a : α} {v : Json} (found : shape.parse s = .ok a) (value : Json.parse s = .ok v)
    (plain : shape.isPlain v = true) : shape.ofJson? v = some a := by
  obtain ⟨⟨a', rest⟩, found, ended⟩ := bind_eq_ok.mp found
  obtain ⟨⟨v', rest'⟩, value, ended'⟩ := bind_eq_ok.mp value
  obtain ⟨-, -, same⟩ := bind_eq_ok.mp ended
  obtain ⟨-, -, same'⟩ := bind_eq_ok.mp ended'
  cases same
  cases same'
  exact shape.ofJson?_of_read definite found value plain

end GrantConsole.Record
