import GrantConsole.Proofs.Json.Free
import GrantConsole.Record.Reader

/-!
# Records, passed over

Whatever is read as a record, in whichever of its forms it stands, can be passed over up to the same
place.
-/

namespace GrantConsole.Record

open GrantConsole.Json GrantConsole.Number GrantConsole.Text

/-! ## Values without parts -/

theorem readsValues_readText (wanted : String) : ReadsValues (readText wanted) := by
  intro cs s rest read
  obtain ⟨body, start, read⟩ := readText_eq_ok read
  exact passes_quoted start read

theorem readsValues_readFlag : ReadsValues readFlag := by
  intro cs b rest read
  unfold readFlag at read
  split at read
  · rename_i start
    obtain ⟨rest', word, same⟩ := bind_eq_ok.mp read
    cases same
    exact passes_true start word
  · rename_i start
    obtain ⟨rest', word, same⟩ := bind_eq_ok.mp read
    cases same
    exact passes_false start word
  · exact absurd read wrongKind_ne_ok

theorem readReal_eq_ok {negative : Bool} {cs rest : List Char} {x : Binary64}
    (read : readReal negative cs = .ok (x, rest)) :
    ∃ n, readMagnitude negative cs = .ok (n, rest) ∧ x = Numeral.toReal n := by
  obtain ⟨⟨n, rest'⟩, number, same⟩ := bind_eq_ok.mp read
  cases same
  exact ⟨n, number, rfl⟩

theorem readsValues_readAmount : ReadsValues readAmount := by
  intro cs x rest read
  unfold readAmount at read
  split at read
  · rename_i start
    obtain ⟨n, number, -⟩ := readReal_eq_ok read
    exact passes_negative start number
  · rename_i start
    split at read
    · rename_i digit
      obtain ⟨n, number, -⟩ := readReal_eq_ok read
      exact passes_digits start digit number
    · exact absurd read wrongKind_ne_ok
  · cases read

theorem readUnit_eq_ok {cs rest : List Char} (read : readUnit cs = .ok ((), rest)) :
    ∃ body, skipSpace cs = 'n' :: body ∧ readWord ['u', 'l', 'l'] body = .ok rest := by
  unfold readUnit at read
  split at read
  · rename_i start
    obtain ⟨rest', word, same⟩ := bind_eq_ok.mp read
    cases same
    exact ⟨_, start, word⟩
  · exact absurd read wrongKind_ne_ok

/-- The two forms of a choice: its spelling, or the key of an object that has null as its value. -/
theorem readChoice_eq_ok {α : Type} {spell : α → String} {choices : List α} {depth : Nat}
    {cs rest : List Char} {a : α} (read : readChoice spell choices depth cs = .ok (a, rest)) :
    (∃ body s, skipSpace cs = '"' :: body ∧ readQuoted body = .ok (s, rest) ∧
        chooseSpelled spell choices s = .ok a) ∨
      ∃ less body quoted s between text after, depth = less + 1 ∧ skipSpace cs = '{' :: body ∧
        skipSpace body = '"' :: quoted ∧ readQuoted quoted = .ok (s, between) ∧
        chooseSpelled spell choices s = .ok a ∧ readColon between = .ok text ∧
        readUnit text = .ok ((), after) ∧ skipSpace after = '}' :: rest := by
  unfold readChoice at read
  split at read
  · cases read
  · rename_i body start
    obtain ⟨⟨s, rest'⟩, quoted, read⟩ := bind_eq_ok.mp read
    obtain ⟨a', chosen, same⟩ := bind_eq_ok.mp read
    cases same
    exact .inl ⟨body, s, start, quoted, chosen⟩
  · rename_i body start
    cases depth with
    | zero => cases read
    | succ less =>
      rw [if_neg (Nat.succ_ne_zero less)] at read
      obtain ⟨⟨s, between⟩, key, read⟩ := bind_eq_ok.mp read
      obtain ⟨a', chosen, read⟩ := bind_eq_ok.mp read
      obtain ⟨text, colon, read⟩ := bind_eq_ok.mp read
      obtain ⟨⟨⟨⟩, after⟩, unit, read⟩ := bind_eq_ok.mp read
      obtain ⟨quoted, quote, key⟩ := readText_eq_ok key
      dsimp only at read
      split at read
      · cases read
      · rename_i ended
        cases read
        exact .inr ⟨less, body, quoted, s, between, text, after, rfl, start, quote, key, chosen,
          colon, unit, ended⟩
      · cases read
  · cases read

theorem nextKey_of_quoted {body quoted rest : List Char} {s : String}
    (quote : skipSpace body = '"' :: quoted) (read : readQuoted quoted = .ok (s, rest)) :
    nextKey true body = .ok (some s, rest) := by
  rw [nextKey, quote]
  change nextKey.key quoted = _
  rw [nextKey.key, read]
  rfl

theorem readsValues_readChoice {α : Type} (spell : α → String) (choices : List α) (depth : Nat) :
    ReadsValues (readChoice spell choices depth) := by
  intro cs a rest read
  rcases readChoice_eq_ok read with ⟨body, s, start, quoted, -⟩ |
    ⟨-, body, quoted, s, between, text, after, -, start, quote, key, -, colon, unit, ended⟩
  · exact passes_quoted start quoted
  · obtain ⟨word, null, unit⟩ := readUnit_eq_ok unit
    have next := nextKey_of_quoted quote key
    refine passes_object_of_member start next colon (passes_null null unit) ⟨0, ?_⟩
    rw [skipMemberEnd, ended]
    rfl

/-! ## Shapes with parts -/

theorem read_whole_eq_ok {depth : Nat} {cs rest : List Char} {n : Int64}
    (read : Shape.whole.read depth cs = .ok (n, rest)) :
    ∃ v, Json.read depth cs = .ok (v, rest) ∧ coerceWhole v = .ok n := by
  obtain ⟨⟨v, rest'⟩, value, read⟩ := bind_eq_ok.mp read
  obtain ⟨n', coerced, same⟩ := bind_eq_ok.mp read
  cases same
  exact ⟨v, value, coerced⟩

theorem read_optional_eq_ok {α : Type} {inner : Shape α} {depth : Nat} {cs rest : List Char}
    {a : Option α} (read : (Shape.optional inner).read depth cs = .ok (a, rest)) :
    (∃ body, skipSpace cs = 'n' :: body ∧ readWord ['u', 'l', 'l'] body = .ok rest ∧ a = none) ∨
      (∀ body, skipSpace cs ≠ 'n' :: body) ∧
        ∃ b, inner.read depth (skipSpace cs) = .ok (b, rest) ∧ a = some b := by
  rw [Shape.read.eq_def] at read
  dsimp only at read
  split at read
  · rename_i body start
    obtain ⟨rest', word, same⟩ := bind_eq_ok.mp read
    cases same
    exact .inl ⟨body, start, word, rfl⟩
  · rename_i other
    obtain ⟨⟨b, rest'⟩, value, same⟩ := bind_eq_ok.mp read
    cases same
    exact .inr ⟨other, b, value, rfl⟩

theorem read_list_eq_ok {α : Type} {item : Shape α} {depth : Nat} {cs rest : List Char}
    {as : List α} (read : (Shape.list item).read depth cs = .ok (as, rest)) :
    ∃ less body, depth = less + 1 ∧ skipSpace cs = '[' :: body ∧
      readItems (item.read less) body = .ok (as, rest) := by
  rw [Shape.read.eq_def] at read
  dsimp only at read
  split at read
  · rename_i body start
    cases depth with
    | zero => cases read
    | succ less => exact ⟨less, body, rfl, start, read⟩
  · exact absurd read wrongKind_ne_ok

/-- The two forms of a record: an object of members, or the list of its fields. -/
theorem read_record_eq_ok {α β : Type} {name : String} {fields : Fields β} {make : β → α}
    {parts : α → β} {depth : Nat} {cs rest : List Char} {a : α}
    (read : (Shape.record name fields make parts).read depth cs = .ok (a, rest)) :
    ∃ less body b, depth = less + 1 ∧ a = make b ∧
      ((skipSpace cs = '{' :: body ∧ ∃ slots,
          readMembers (fun key slots cs => fields.place less key slots cs) fields.emptySlots body =
            .ok (slots, rest) ∧ fields.fill slots = .ok b) ∨
        (skipSpace cs = '[' :: body ∧ ∃ wanted,
          fields.readInOrder less wanted 0 true body = .ok (b, rest))) := by
  rw [Shape.read.eq_def] at read
  dsimp only at read
  split at read
  · rename_i body start
    cases depth with
    | zero => cases read
    | succ less =>
        obtain ⟨⟨slots, rest'⟩, members, read⟩ := bind_eq_ok.mp read
        obtain ⟨b, filled, same⟩ := bind_eq_ok.mp read
        cases same
        exact ⟨less, body, b, rfl, rfl, .inl ⟨start, slots, members, filled⟩⟩
  · rename_i body start
    cases depth with
    | zero => cases read
    | succ less =>
        obtain ⟨⟨b, rest'⟩, items, same⟩ := bind_eq_ok.mp read
        cases same
        exact ⟨less, body, b, rfl, rfl, .inr ⟨start, _, items⟩⟩
  · exact absurd read wrongKind_ne_ok

theorem place_nil_eq_ok {depth : Nat} {key : String} {before after : Fields.nil.Slots}
    {cs rest : List Char} (read : Fields.nil.place depth key before cs = .ok (after, rest)) :
    ∃ text, readColon cs = .ok text ∧ skip text = .ok rest := by
  obtain ⟨text, colon, read⟩ := bind_eq_ok.mp read
  obtain ⟨rest', passed, same⟩ := bind_eq_ok.mp read
  cases same
  exact ⟨text, colon, passed⟩

/-- A member belongs to the first field, whose slot it fills, or to the other ones. -/
theorem place_cons_eq_ok {α β : Type} {key : String} {shape : Shape α} {presence : Presence α}
    {others : Fields β} {depth : Nat} {k : String}
    {before after : (Fields.cons key shape presence others).Slots} {cs rest : List Char}
    (read : (Fields.cons key shape presence others).place depth k before cs = .ok (after, rest)) :
    (k = key ∧ before.1 = none ∧ ∃ text a, readColon cs = .ok text ∧
        shape.read depth text = .ok (a, rest) ∧ after = (some a, before.2)) ∨
      k ≠ key ∧ after.1 = before.1 ∧ others.place depth k before.2 cs = .ok (after.2, rest) := by
  rw [Fields.place.eq_def] at read
  dsimp only at read
  split at read
  · rename_i same
    split at read
    · cases read
    · rename_i free
      obtain ⟨text, colon, read⟩ := bind_eq_ok.mp read
      obtain ⟨⟨a, rest'⟩, value, same'⟩ := bind_eq_ok.mp read
      cases same'
      exact .inl ⟨same, free, text, a, colon, value, rfl⟩
  · rename_i other
    obtain ⟨⟨after', rest'⟩, placed, same⟩ := bind_eq_ok.mp read
    cases same
    exact .inr ⟨other, rfl, placed⟩

/-- The next field is an item of the list, or stands for one that the list is too short for. -/
theorem readInOrder_cons_eq_ok {α β : Type} {key : String} {shape : Shape α}
    {presence : Presence α} {others : Fields β} {depth : Nat} {wanted : String} {index : Nat}
    {first : Bool} {cs rest : List Char} {b : α × β}
    (read : (Fields.cons key shape presence others).readInOrder depth wanted index first cs =
      .ok (b, rest)) :
    (∃ text a after b', nextItem first cs = .ok (true, text) ∧
        shape.read depth text = .ok (a, after) ∧
        others.readInOrder depth wanted (index + 1) false after = .ok (b', rest)) ∨
      ∃ after b', nextItem first cs = .ok (false, after) ∧
        others.readInOrder depth wanted (index + 1) first (']' :: after) = .ok (b', rest) := by
  rw [Fields.readInOrder.eq_def] at read
  obtain ⟨⟨more, text⟩, next, read⟩ := bind_eq_ok.mp read
  cases more with
  | true =>
      obtain ⟨⟨a, after⟩, item, read⟩ := bind_eq_ok.mp read
      obtain ⟨⟨b', rest'⟩, items, same⟩ := bind_eq_ok.mp read
      cases same
      exact .inl ⟨text, a, after, b', next, item, items⟩
  | false =>
      dsimp only at read
      rw [if_neg Bool.false_ne_true] at read
      split at read
      · cases read
      · obtain ⟨⟨b', rest'⟩, items, same⟩ := bind_eq_ok.mp read
        cases same
        exact .inr ⟨text, b', next, items⟩

/-! ## All shapes -/

theorem endList_eq_ok {cs rest : List Char} (ended : endList cs = .ok rest) :
    skipSpace cs = ']' :: rest := by
  unfold endList at ended
  split at ended
  · cases ended
  · cases ended
    assumption
  · split at ended <;> cases ended
  · cases ended

mutual
/-- What is read as a record can be passed over. -/
theorem Shape.readsValues_read {α : Type} : (shape : Shape α) → (depth : Nat) →
    ReadsValues (shape.read depth)
  | .text, _ => readsValues_readText _
  | .flag, _ => readsValues_readFlag
  | .amount, _ => readsValues_readAmount
  | .whole, depth => by
      intro cs n rest read
      obtain ⟨v, value, -⟩ := read_whole_eq_ok read
      exact readsValues_readWith _ depth _ _ _ value
  | .choice spell choices, depth => readsValues_readChoice spell choices depth
  | .optional inner, depth => by
      intro cs a rest read
      rcases read_optional_eq_ok read with ⟨body, start, word, -⟩ | ⟨-, b, read, -⟩
      · exact passes_null start word
      · exact passes_of_start rfl (inner.readsValues_read depth _ _ _ read)
  | .list item, depth => by
      intro cs as rest read
      obtain ⟨less, body, -, start, read⟩ := read_list_eq_ok read
      exact passes_list (item.readsValues_read less) start read
  | .record _ fields _ _, depth => by
      intro cs a rest read
      obtain ⟨less, body, b, -, -, ⟨start, slots, read, -⟩ | ⟨start, wanted, read⟩⟩ :=
        read_record_eq_ok read
      · exact passes_object (fields.readsMembers_place less) start read
      · exact passes_list_of_skipFrom start (fields.skipFrom_of_readInOrder read)

theorem Fields.readsMembers_place {β : Type} : (fields : Fields β) → (depth : Nat) →
    ReadsMembers (fun key slots cs => fields.place depth key slots cs)
  | .nil, depth => by
      intro key before cs after rest read
      obtain ⟨text, colon, passed⟩ := place_nil_eq_ok read
      exact ⟨text, colon, _, passed⟩
  | .cons key shape _ others, depth => by
      intro k before cs after rest read
      rcases place_cons_eq_ok read with ⟨-, -, text, a, colon, read, -⟩ | ⟨-, -, read⟩
      · exact ⟨text, colon, shape.readsValues_read depth _ _ _ read⟩
      · exact others.readsMembers_place depth _ _ _ _ _ read

theorem Fields.skipFrom_of_readInOrder {β : Type} : (fields : Fields β) → {depth : Nat} →
    {wanted : String} → {index : Nat} → {first : Bool} → {cs rest : List Char} → {b : β} →
    fields.readInOrder depth wanted index first cs = .ok (b, rest) →
    ∃ fuel, skipFrom fuel first cs = .ok rest
  | .nil, depth, wanted, index, first, cs, rest, b, found => by
      obtain ⟨rest', ended, same⟩ := bind_eq_ok.mp found
      cases same
      exact ⟨0, skipFrom_of_end (endList_eq_ok ended) 0 first⟩
  | .cons key shape _ others, depth, wanted, index, first, cs, rest, b, found => by
      rcases readInOrder_cons_eq_ok found with
        ⟨text, a, after, b', next, item, items⟩ | ⟨after, b', next, items⟩
      · have passed := shape.readsValues_read depth _ _ _ item
        exact skipFrom_of_item next passed (others.skipFrom_of_readInOrder items)
      · -- The bracket that ended the list is put back, so the other fields see the same end.
        have ended := nextItem_eq_end next
        obtain ⟨fuel, passed⟩ := others.skipFrom_of_readInOrder items
        rw [← ended, skipFrom_skipSpace] at passed
        exact ⟨fuel, passed⟩
end

end GrantConsole.Record
