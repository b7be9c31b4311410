import GrantConsole.Proofs.Json.Written
import GrantConsole.Proofs.Lookup
import GrantConsole.Record.Value
import GrantConsole.Record.Writer

/-!
# Records, read from written values

The text of a value is read as the record that the value stands for. The members of an object fill
the slots of the fields one after the other; the slots that some members fill are `gather`.
-/

namespace GrantConsole.Record

open GrantConsole.Json GrantConsole.Number GrantConsole.Text

/-- The keys of the members that belong to fields. -/
def Fields.keys {β : Type} : Fields β → List String
  | .nil => []
  | .cons key _ _ rest => key :: rest.keys

mutual
/-- No record has two fields under one key. -/
def Shape.Distinct {α : Type} : Shape α → Prop
  | .optional inner => inner.Distinct
  | .list item => item.Distinct
  | .record _ fields _ _ => fields.keys.Nodup ∧ fields.Distinct
  | _ => True

def Fields.Distinct {β : Type} : Fields β → Prop
  | .nil => True
  | .cons _ shape _ rest => shape.Distinct ∧ rest.Distinct
end

mutual
/-- How many containers the values of a shape nest. -/
def Shape.nesting {α : Type} : Shape α → Nat
  | .optional inner => inner.nesting
  | .list item => item.nesting + 1
  | .record _ fields _ _ => fields.nesting + 1
  | _ => 0

def Fields.nesting {β : Type} : Fields β → Nat
  | .nil => 0
  | .cons _ shape _ rest => max shape.nesting rest.nesting
end

/-! ## Members in their slots -/

namespace Fields

variable {β : Type}

/-- The slots that the members of an object fill. -/
def gather {β : Type} : (fields : Fields β) → List (String × Json) → fields.Slots
  | .nil, _ => ()
  | .cons key shape _ rest, members =>
    ((members.lookup key).bind fun v => shape.ofJson? v, rest.gather members)

/-- What stands under the key of a field is a value of it. -/
def Understands {β : Type} : Fields β → List (String × Json) → Prop
  | .nil, _ => True
  | .cons key shape _ rest, members =>
    (∀ v, members.lookup key = some v → ∃ a, shape.ofJson? v = some a) ∧ rest.Understands members

theorem gather_nil {β : Type} : (fields : Fields β) → fields.gather [] = fields.emptySlots
  | .nil => rfl
  | .cons _ _ _ rest => Prod.ext rfl rest.gather_nil

theorem gather_append_of_not_mem {β : Type} {key : String} {v : Json}
    {before : List (String × Json)} : {fields : Fields β} → key ∉ fields.keys →
    fields.gather (before ++ [(key, v)]) = fields.gather before
  | .nil, _ => rfl
  | .cons k shape _ rest, unknown => by
      have apart : k ≠ key := fun same => unknown (same ▸ List.mem_cons_self)
      have others : key ∉ rest.keys := fun known => unknown (List.mem_cons_of_mem _ known)
      refine Prod.ext ?_ (gather_append_of_not_mem others)
      simp [gather, List.lookup_append, lookup_cons_eq_ite, apart]

/-- The first member under the key of a field fills its slot, and no other. -/
theorem gather_append_here {α β : Type} {key : String} {shape : Shape α} {presence : Presence α}
    {rest : Fields β} (unknown : key ∉ rest.keys) {before : List (String × Json)}
    (absent : before.lookup key = none) (v : Json) :
    (Fields.cons key shape presence rest).gather (before ++ [(key, v)]) =
      (shape.ofJson? v, rest.gather before) := by
  rw [gather, gather_append_of_not_mem unknown, List.lookup_append, absent, Option.none_or,
    lookup_cons_eq_ite, if_pos rfl, Option.bind_some]

/-- A member under another key leaves the slot of a field as it is. -/
theorem gather_append_other {α β : Type} {key k : String} {shape : Shape α} {presence : Presence α}
    {rest : Fields β} (other : k ≠ key) (before : List (String × Json)) (v : Json) :
    (Fields.cons key shape presence rest).gather (before ++ [(k, v)]) =
      (((Fields.cons key shape presence rest).gather before).1,
        rest.gather (before ++ [(k, v)])) := by
  rw [gather, gather, List.lookup_append, lookup_cons_eq_ite, if_neg (Ne.symm other),
    List.lookup_nil, Option.or_none]

/-- The value of a field in an object: what stands under its key, or what a missing member is. -/
def valueIn? {α : Type} (key : String) (shape : Shape α) (presence : Presence α)
    (members : List (String × Json)) : Option α :=
  ((members.lookup key).map fun v => shape.ofJson? v).getD presence.absent?

theorem ofMembers?_cons {α β : Type} (key : String) (shape : Shape α) (presence : Presence α)
    (rest : Fields β) (members : List (String × Json)) :
    (Fields.cons key shape presence rest).ofMembers? members =
      (valueIn? key shape presence members).bind fun a =>
        (rest.ofMembers? members).bind fun b => some (a, b) := by
  rw [ofMembers?, valueIn?]
  cases members.lookup key <;> rfl

theorem ofMembers?_cons_eq_some {α β : Type} {key : String} {shape : Shape α}
    {presence : Presence α} {rest : Fields β} {members : List (String × Json)} {a : α} {b : β} :
    (Fields.cons key shape presence rest).ofMembers? members = some (a, b) ↔
      valueIn? key shape presence members = some a ∧ rest.ofMembers? members = some b := by
  simp [ofMembers?_cons, Option.bind_eq_some_iff]

/-- What members stand for depends only on what their values under known keys stand for. -/
theorem ofMembers?_congr {β : Type} {members members' : List (String × Json)} :
    {fields : Fields β} →
    (∀ key ∈ fields.keys, ∀ {α : Type} (shape : Shape α),
      (members.lookup key).map (fun v => shape.ofJson? v) =
        (members'.lookup key).map fun v => shape.ofJson? v) →
    fields.ofMembers? members = fields.ofMembers? members'
  | .nil, _ => rfl
  | .cons key shape presence rest, alike => by
      have others : rest.ofMembers? members = rest.ofMembers? members' :=
        ofMembers?_congr fun k member => alike k (List.mem_cons_of_mem key member)
      rw [ofMembers?_cons, ofMembers?_cons, valueIn?, valueIn?,
        alike key List.mem_cons_self shape, others]

theorem fill_cons_eq_ok {α β : Type} {key : String} {shape : Shape α} {presence : Presence α}
    {rest : Fields β} {slots : (Fields.cons key shape presence rest).Slots} {a : α} {b : β} :
    (Fields.cons key shape presence rest).fill slots = .ok (a, b) ↔
      slots.1.or presence.absent? = some a ∧ rest.fill slots.2 = .ok b := by
  obtain ⟨slot, slots⟩ := slots
  rw [fill.eq_def]
  dsimp only
  cases slot with
  | some a' => cases rest.fill slots <;> simp [bind, Except.bind]
  | none =>
      cases presence.absent? with
      | some a' => cases rest.fill slots <;> simp [bind, Except.bind]
      | none => simp [bind, Except.bind]

/-- The members that give a record its fields fill the slots of all fields that need one. -/
theorem fill_gather {β : Type} {members : List (String × Json)} :
    {fields : Fields β} → {b : β} → fields.ofMembers? members = some b →
    fields.Understands members ∧ fields.fill (fields.gather members) = .ok b
  | .nil, b, _ => ⟨trivial, rfl⟩
  | .cons key shape presence rest, (a, b), value => by
      obtain ⟨first, others⟩ := ofMembers?_cons_eq_some.mp value
      obtain ⟨understood, filled⟩ := fill_gather others
      rw [fill_cons_eq_ok, gather]
      unfold valueIn? at first
      cases found : members.lookup key with
      | none =>
          rw [found, Option.map_none, Option.getD_none] at first
          exact ⟨⟨fun v some => (nomatch found.symm.trans some), understood⟩, first, filled⟩
      | some v =>
          rw [found, Option.map_some, Option.getD_some] at first
          refine ⟨⟨?_, understood⟩, by rw [Option.bind_some, first, Option.some_or], filled⟩
          intro v' some
          cases found.symm.trans some
          exact ⟨a, first⟩

end Fields

/-! ## Reading what was written -/

theorem mapM_eq_some_iff {α β : Type} {f : α → Option β} {items : List α} {as : List β} :
    items.mapM f = some as ↔ List.Forall₂ (fun v a => f v = some a) items as := by
  induction items generalizing as with
  | nil =>
      rw [List.mapM_nil, List.forall₂_nil_left_iff]
      exact Option.some_inj.trans eq_comm
  | cons v items ih =>
      rw [List.mapM_cons, List.forall₂_cons_left_iff]
      simp only [bind, Option.bind_eq_some_iff, ih, pure, Option.some_inj]
      constructor
      · rintro ⟨a, first, as', others, rfl⟩
        exact ⟨a, as', first, others, rfl⟩
      · rintro ⟨a, as', first, others, rfl⟩
        exact ⟨a, first, as', others, rfl⟩

theorem lookup_middle {key : String} {v : Json} {before after : List (String × Json)}
    (keys : ((before ++ (key, v) :: after).map Prod.fst).Nodup) :
    (before ++ (key, v) :: after).lookup key = some v ∧ before.lookup key = none := by
  have absent : before.lookup key = none := by
    rw [List.map_append, List.map_cons] at keys
    rw [List.lookup_eq_none_iff]
    intro m member
    have apart : m.1 ≠ key :=
      (List.nodup_append.mp keys).2.2 m.1 (List.mem_map_of_mem member) key List.mem_cons_self
    simpa using apart.symm
  refine ⟨?_, absent⟩
  rw [List.lookup_append, absent, Option.none_or, lookup_cons_eq_ite, if_pos rfl]

/-! ### Values without parts -/

theorem takesIn_text {wanted s : String} : TakesIn (readText wanted) (Json.text s).print s := by
  intro rest _
  rw [print, quoteChars_append]
  exact readQuoted_quoted s rest

theorem takesIn_flag (b : Bool) : TakesIn readFlag (Json.bool b).print b := by
  intro rest _
  cases b <;> rfl

theorem readAmount_digit {c : Char} (digit : isDigit c = true) (cs : List Char) :
    readAmount (c :: cs) = readReal false (c :: cs) := by
  rw [readAmount, skipSpace_cons (isSpace_of_isDigit digit)]
  split
  case h_2 same =>
    obtain ⟨rfl, rfl⟩ := List.cons.inj same
    exact if_pos digit
  case h_1 same =>
    obtain ⟨rfl, -⟩ := List.cons.inj same
    cases digit
  case h_3 same => cases same

theorem takesIn_amount {n : Int} (least : -int64Bound ≤ n) (most : n < wordBound) :
    TakesIn readAmount (Json.whole n).print (realOfInt n) := by
  intro rest ends
  rcases print_whole least most with ⟨m, form, rfl, chars⟩ | ⟨m, form, rfl, chars⟩
  · obtain ⟨c, ds, digits, digit⟩ := natChars_cons m
    have read := readMagnitude_natChars form ends
    rw [chars]
    rw [digits] at read ⊢
    rw [List.cons_append] at read ⊢
    rw [readAmount_digit digit, readReal, read]
    rfl
  · rw [chars]
    change (readMagnitude true (natChars m ++ rest) >>= fun read =>
      .ok (Numeral.toReal read.1, read.2)) = _
    rw [readMagnitude_natChars form ends]
    rfl

theorem takesIn_choice {α : Type} {spell : α → String} {choices : List α} {s : String} {a : α}
    (chosen : choices.find? (fun a => spell a == s) = some a) (depth : Nat) :
    TakesIn (readChoice spell choices depth) (Json.text s).print a := by
  intro rest _
  rw [print, quoteChars_append]
  change (readQuoted _ >>= fun read =>
    chooseSpelled spell choices read.1 >>= fun a => .ok (a, read.2)) = _
  rw [readQuoted_quoted]
  change (chooseSpelled spell choices s >>= fun a => .ok (a, rest)) = _
  rw [chooseSpelled, chosen]
  rfl

/-! ### Records -/

/-- Member by member, a written object fills the slots of a record. -/
theorem Fields.goesThrough {β : Type} {fields : Fields β} {depth : Nat}
    {members : List (String × Json)} (keys : (members.map Prod.fst).Nodup)
    (takes : ∀ before key v after, before ++ (key, v) :: after = members →
      members.lookup key = some v → before.lookup key = none →
      TakesIn (fun cs => fields.place depth key (fields.gather before) cs) (':' :: v.print)
        (fields.gather (before ++ [(key, v)]))) :
    GoesThrough (fun key slots cs => fields.place depth key slots cs) (members.map writtenMember)
      fields.emptySlots (fields.gather members) := by
  have through : ∀ before after, before ++ after = members →
      GoesThrough (fun key slots cs => fields.place depth key slots cs) (after.map writtenMember)
        (fields.gather before) (fields.gather members) := by
    intro before after split
    induction after generalizing before with
    | nil =>
        rw [List.append_nil] at split
        rw [split]
        exact .nil _
    | cons m after ih =>
        obtain ⟨key, v⟩ := m
        obtain ⟨found, absent⟩ := lookup_middle (split ▸ keys)
        refine .written (takes before key v after split (split ▸ found) absent) ?_
        exact ih _ (by rw [List.append_assoc, List.singleton_append, split])
  rw [← gather_nil]
  exact through [] members rfl

theorem ofJson?_optional {α : Type} {inner : Shape α} {v : Json} (some : v ≠ .null) :
    (Shape.optional inner).ofJson? v = (inner.ofJson? v).map Option.some := by
  rw [Shape.ofJson?]
  exact some

theorem Shape.read_optional {α : Type} {inner : Shape α} {c : Char} (dark : isSpace c = false)
    (letter : c ≠ 'n') (depth : Nat) (cs : List Char) :
    (Shape.optional inner).read depth (c :: cs) =
      inner.read depth (c :: cs) >>= fun read => .ok (some read.1, read.2) := by
  rw [Shape.read.eq_def]
  dsimp only
  rw [skipSpace_cons dark]
  split
  · rename_i same
    exact absurd (List.cons.inj same).1 letter
  · rfl

theorem takesIn_coerced {depth : Nat} {text : List Char} {v : Json} {a : Int64}
    (taken : TakesIn (Json.read depth) text v) (coerced : coerceWhole v = .ok a) :
    TakesIn (Shape.whole.read depth) text a := by
  intro rest ends
  change (Json.read depth _ >>= fun read =>
    coerceWhole read.1 >>= fun a => .ok (a, read.2)) = _
  rw [taken rest ends]
  change (coerceWhole v >>= fun a => .ok (a, rest)) = _
  rw [coerced]
  rfl

theorem takesIn_count {n : Int} (least : -int64Bound ≤ n) (most : n < wordBound) {a : Int64}
    (value : Shape.whole.ofJson? (.whole n) = some a) (depth : Nat) :
    TakesIn (Shape.whole.read depth) (Json.whole n).print a := by
  refine takesIn_coerced (takesIn_whole depth least most) ?_
  rw [Shape.ofJson?] at value
  cases coerced : coerceWhole (.whole n) with
  | error fault =>
    rw [coerced] at value
    cases value
  | ok b =>
    rw [coerced] at value
    cases value
    rfl

theorem takesIn_optional {α : Type} {inner : Shape α} {depth : Nat} {c : Char} {cs : List Char}
    {a : α} (dark : isSpace c = false) (letter : c ≠ 'n')
    (taken : TakesIn (inner.read depth) (c :: cs) a) :
    TakesIn ((Shape.optional inner).read depth) (c :: cs) (some a) := by
  intro rest ends
  have read := taken rest ends
  rw [List.cons_append] at read ⊢
  rw [Shape.read_optional dark letter, read]
  rfl

theorem takesIn_list {α : Type} {item : Shape α} {depth : Nat} (blanks : Blanks)
    {items : List Item} {as : List α} (starts : ∀ i ∈ items, ∀ rest, StartsValue (i.value ++ rest))
    (taken : List.Forall₂ (fun i a => TakesIn (item.read depth) i.value a) items as) :
    TakesIn ((Shape.list item).read (depth + 1)) (listText blanks items) as :=
  fun rest _ => readItems_enclosed starts taken blanks rest

theorem takesIn_record {α β : Type} {name : String} {fields : Fields β} {make : β → α}
    {parts : α → β} {depth : Nat} (blanks : Blanks) {members : List Named} {slots : fields.Slots}
    (through : GoesThrough (fun key slots cs => fields.place depth key slots cs) members
      fields.emptySlots slots) {b : β} (filled : fields.fill slots = .ok b) :
    TakesIn ((Shape.record name fields make parts).read (depth + 1)) (recordText blanks members)
      (make b) := by
  intro rest _
  rw [recordText, objectText, List.cons_append]
  change (readMembers _ _ _ >>= fun read =>
    fields.fill read.1 >>= fun b => .ok (make b, read.2)) = _
  rw [readMembers_enclosed through blanks rest]
  change (fields.fill slots >>= fun b => .ok (make b, rest)) = _
  rw [filled]
  rfl

mutual
/-- Reading the text of a value gives the record that the value stands for. -/
theorem Shape.takesIn_print {α : Type} : {shape : Shape α} → shape.Distinct → {depth : Nat} →
    shape.nesting ≤ depth → {v : Json} → v.Writable → {a : α} → shape.ofJson? v = some a →
    TakesIn (shape.read depth) v.print a
  | .text, _, depth, _, v, _, a, value => by
      cases v with
      | text s =>
        cases value
        exact takesIn_text
      | _ => cases value
  | .flag, _, depth, _, v, _, a, value => by
      cases v with
      | bool b =>
        cases value
        exact takesIn_flag a
      | _ => cases value
  | .amount, _, depth, _, v, writable, a, value => by
      cases writable with
      | whole least most =>
        cases value
        exact takesIn_amount least most
      | _ => cases value
  | .whole, _, depth, _, v, writable, a, value => by
      cases writable with
      | whole least most => exact takesIn_count least most value depth
      | _ => cases value
  | .choice spell choices, _, depth, _, v, _, a, value => by
      cases v with
      | text s => exact takesIn_choice value depth
      | _ => cases value
  | .optional inner, distinct, depth, fits, v, writable, a, value => by
      by_cases empty : v = .null
      · subst empty
        cases value
        exact fun _ _ => rfl
      · have distinct : inner.Distinct := distinct
        have fits : inner.nesting ≤ depth := fits
        rw [ofJson?_optional empty] at value
        obtain ⟨b, parts, rfl⟩ := Option.map_eq_some_iff.mp value
        have taken := Shape.takesIn_print distinct fits writable parts
        obtain ⟨c, cs, chars, dark, -, letter⟩ := print_eq_cons writable
        rw [chars] at taken ⊢
        exact takesIn_optional dark (letter empty) taken
  | .list item, _, 0, fits, v, _, a, value => by
      exact absurd fits (Nat.not_succ_le_zero _)
  | .list item, distinct, depth + 1, fits, v, writable, a, value => by
      cases writable with
      | @array items each =>
        have taken : List.Forall₂ (fun v a => TakesIn (item.read depth) v.print a) items a := by
          refine ((List.forall₂_and_left _ _).mpr ⟨each, mapM_eq_some_iff.mp value⟩).imp ?_
          rintro v a ⟨writable, value⟩
          have fits : item.nesting + 1 ≤ depth + 1 := fits
          have distinct : item.Distinct := distinct
          exact Shape.takesIn_print distinct (Nat.le_of_succ_le_succ fits) writable value
        rw [print_array]
        exact takesIn_list noBlanks
          (List.forall_mem_map.mpr fun v mem => (value_print (each v mem)).startsValue)
          (List.forall₂_map_left_iff.mpr taken)
      | _ => cases value
  | .record name fields make parts, _, 0, fits, v, _, a, value => by
      exact absurd fits (Nat.not_succ_le_zero _)
  | .record name fields make parts, distinct, depth + 1, fits, v, writable, a, value => by
      cases writable with
      | @object members keys each =>
        rw [Shape.ofJson?] at value
        obtain ⟨b, parts, rfl⟩ := Option.map_eq_some_iff.mp value
        obtain ⟨understood, filled⟩ := Fields.fill_gather parts
        rw [print_object]
        refine takesIn_record noBlanks (Fields.goesThrough keys ?_) filled
        intro before key v after split found absent
        have member : (key, v) ∈ members := split ▸ List.mem_append_right _ List.mem_cons_self
        exact Fields.takesIn_member distinct.1 distinct.2 (Nat.le_of_succ_le_succ fits) understood
          (each _ member) found absent
      | _ => cases value

theorem Fields.takesIn_member {β : Type} : {fields : Fields β} → fields.keys.Nodup →
    fields.Distinct → {depth : Nat} → fields.nesting ≤ depth →
    {members before : List (String × Json)} → fields.Understands members → {key : String} →
    {v : Json} → v.Writable → members.lookup key = some v → before.lookup key = none →
    TakesIn (fun cs => fields.place depth key (fields.gather before) cs) (':' :: v.print)
      (fields.gather (before ++ [(key, v)]))
  | .nil, _, _, depth, _, members, before, _, key, v, writable, _, _ => by
      intro rest ends
      change (skip (v.print ++ rest) >>= fun cs => .ok ((), cs)) = _
      rw [skip_print writable ends]
      rfl
  | .cons k shape presence rest, keys, distinct, depth, fits, members, before, understood, key, v,
      writable, found, absent => by
      intro after ends
      change Fields.place (.cons k shape presence rest) depth key _ _ = _
      rw [Fields.place.eq_def]
      dsimp only
      have unknown := (List.nodup_cons.mp keys).1
      by_cases same : key = k
      · subst same
        rw [if_pos rfl]
        obtain ⟨a, value⟩ := understood.1 v found
        -- The slot is still empty, since no member before this one has its key.
        have slot : (Fields.gather (.cons key shape presence rest) before).1 = none := by
          rw [Fields.gather, absent, Option.bind_none]
        have fits := Nat.le_trans (Nat.le_max_left _ _) fits
        have read := Shape.takesIn_print distinct.1 fits writable value after ends
        rw [slot, Fields.gather_append_here unknown absent, value]
        change (shape.read depth (v.print ++ after) >>= fun read =>
          .ok ((some read.1, rest.gather before), read.2)) = _
        rw [read]
        rfl
      · rw [if_neg same]
        have fits := Nat.le_trans (Nat.le_max_right _ _) fits
        have others : rest.place depth key (rest.gather before) (':' :: v.print ++ after) =
            .ok (rest.gather (before ++ [(key, v)]), after) :=
          Fields.takesIn_member (List.nodup_cons.mp keys).2 distinct.2 fits understood.2 writable
            found absent after ends
        change (rest.place depth key (rest.gather before) (':' :: v.print ++ after) >>= fun read =>
          .ok ((_, read.1), read.2)) = _
        rw [others, Fields.gather_append_other same]
        rfl
end

theorem Shape.parse_compact {α : Type} {shape : Shape α} (distinct : shape.Distinct)
    (fits : shape.nesting ≤ depthLimit) {v : Json} (writable : v.Writable) {a : α}
    (value : shape.ofJson? v = some a) : shape.parse v.compact = .ok a := by
  have read := Shape.takesIn_print distinct fits writable value [] nofun
  rw [List.append_nil] at read
  rw [Shape.parse, readAll, compact, String.toList_ofList, read]
  rfl

end GrantConsole.Record
