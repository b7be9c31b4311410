import GrantConsole.Proofs.Record.Leaves

/-!
# Members in another order and members of unknown keys

An object that stands for a record may hold its members in any order and any others of keys that the
record does not know, at every depth. It is read as the same record all the same.
-/

namespace GrantConsole.Record

open GrantConsole.Json GrantConsole.Number GrantConsole.Text

/-! ## Enlarged texts -/

/-- Lists whose items are so related, one by one. -/
inductive ListEnlarged (item : List Char → List Char → Prop) : List Char → List Char → Prop
  | mk (blanks blanks' : Blanks) {items items' : List Item}
      (each : List.Forall₂ (fun i j => item i.value j.value) items items') :
      ListEnlarged item (listText blanks items) (listText blanks' items')

/-- Objects, the second of which has the members of the first one, with values so related, and other
ones of unknown keys, in any order. -/
inductive ObjectEnlarged (known : List String) (member : String → List Char → List Char → Prop) :
    List Char → List Char → Prop
  | mk (blanks blanks' : Blanks) {before kept added after : List Named}
      (each : List.Forall₂ (fun m n => m.name = n.name ∧ member m.name m.value n.value) before kept)
      (unknown : ∀ m ∈ added, m.name ∉ known) (values : ∀ m ∈ added, Value m.value)
      (order : (kept ++ added).Perm after) :
      ObjectEnlarged known member (recordText blanks before) (recordText blanks' after)

mutual
/-- The second text is the first one with members put in and put in another order, in the objects
of all records inside it. -/
def Shape.Enlarged {α : Type} : Shape α → List Char → List Char → Prop
  | .optional inner, v, w =>
    v = ['n', 'u', 'l', 'l'] ∧ w = ['n', 'u', 'l', 'l'] ∨ inner.Enlarged v w
  | .list item, v, w => ListEnlarged (fun v w => item.Enlarged v w) v w
  | .record _ fields _ _, v, w =>
    ObjectEnlarged fields.keys (fun key v w => fields.EnlargedAt key v w) v w
  | .text, v, w | .flag, v, w | .amount, v, w | .whole, v, w | .choice _ _, v, w => Value v ∧ w = v

/-- The same for the value of a member; that of an unknown key stays as it is. -/
def Fields.EnlargedAt {β : Type} : Fields β → String → List Char → List Char → Prop
  | .nil, _, v, w => Value v ∧ w = v
  | .cons key shape _ rest, k, v, w =>
    if k = key then shape.Enlarged v w else rest.EnlargedAt k v w
end

/-- Texts that are enlarged so, up to blanks around them. -/
def Shape.EnlargedText {α : Type} (shape : Shape α) (s t : String) : Prop :=
  ∃ i j : Item, s.toList = i.chars ∧ t.toList = j.chars ∧ shape.Enlarged i.value j.value

/-! ## Enlarged texts are values -/

theorem forall_of_forall₂ {α β : Type} {related : α → β → Prop} (one : α → Prop) (other : β → Prop)
    (each : ∀ a b, related a b → one a ∧ other b) {as : List α} {bs : List β}
    (all : List.Forall₂ related as bs) : (∀ a ∈ as, one a) ∧ ∀ b ∈ bs, other b := by
  induction all with
  | nil => exact ⟨nofun, nofun⟩
  | cons head _ ih =>
      obtain ⟨first, second⟩ := each _ _ head
      exact ⟨List.forall_mem_cons.mpr ⟨first, ih.1⟩, List.forall_mem_cons.mpr ⟨second, ih.2⟩⟩

mutual
theorem Shape.Enlarged.values {α : Type} : {shape : Shape α} → {v w : List Char} →
    shape.Enlarged v w → Value v ∧ Value w
  | .optional inner, v, w, enlarged => by
      rcases enlarged with ⟨rfl, rfl⟩ | enlarged
      · exact ⟨.null, .null⟩
      · exact Shape.Enlarged.values enlarged
  | .list item, v, w, enlarged => by
      have enlarged : ListEnlarged (fun v w => item.Enlarged v w) v w := enlarged
      obtain ⟨blanks, blanks', each⟩ := enlarged
      obtain ⟨before, after⟩ := forall_of_forall₂ (fun i : Item => Value i.value)
        (fun j : Item => Value j.value) (fun i j related => Shape.Enlarged.values related) each
      exact ⟨.list blanks before, .list blanks' after⟩
  | .record _ fields _ _, v, w, enlarged => by
      have enlarged : ObjectEnlarged fields.keys (fun key v w => fields.EnlargedAt key v w) v w :=
        enlarged
      obtain ⟨blanks, blanks', each, unknown, values, order⟩ := enlarged
      obtain ⟨before, kept⟩ := forall_of_forall₂ (fun m : Named => Value m.value)
        (fun m : Named => Value m.value)
        (fun m n related => Fields.EnlargedAt.values related.2) each
      refine ⟨value_recordText blanks before, value_recordText blanks' fun m member => ?_⟩
      rcases List.mem_append.mp (order.mem_iff.mpr member) with member | member
      · exact kept m member
      · exact values m member
  | .text, v, w, enlarged | .flag, v, w, enlarged | .amount, v, w, enlarged
  | .whole, v, w, enlarged | .choice _ _, v, w, enlarged => by
      obtain ⟨value, rfl⟩ := enlarged
      exact ⟨value, value⟩

theorem Fields.EnlargedAt.values {β : Type} : {fields : Fields β} → {key : String} →
    {v w : List Char} → fields.EnlargedAt key v w → Value v ∧ Value w
  | .nil, key, v, w, enlarged => by
      obtain ⟨value, rfl⟩ := enlarged
      exact ⟨value, value⟩
  | .cons k shape _ rest, key, v, w, enlarged => by
      rw [Fields.EnlargedAt] at enlarged
      split at enlarged
      · exact Shape.Enlarged.values enlarged
      · exact Fields.EnlargedAt.values enlarged
end

/-! ## Members that go into slots -/

/-- A member with this value changes the slots so: it fills the free slot of its key, or is a value
of an unknown key. -/
def Fields.Sets {β : Type} : (fields : Fields β) → (depth : Nat) → (key : String) →
    (v : List Char) → fields.Slots → fields.Slots → Prop
  | .nil, _, _, v, _, _ => Value v
  | .cons k shape _ rest, depth, key, v, before, after =>
    if key = k then
      before.1 = none ∧ ∃ a, TakesIn (shape.read depth) v a ∧ after = (some a, before.2)
    else after.1 = before.1 ∧ rest.Sets depth key v before.2 after.2

theorem Fields.sets_unknown {β : Type} {depth : Nat} {key : String} {v : List Char}
    (value : Value v) : {fields : Fields β} → (slots : fields.Slots) → key ∉ fields.keys →
    fields.Sets depth key v slots slots
  | .nil, _, _ => value
  | .cons k shape _ rest, slots, unknown => by
      obtain ⟨apart, others⟩ := not_or.mp (List.mem_cons.not.mp unknown)
      rw [Fields.Sets, if_neg apart]
      exact ⟨rfl, Fields.sets_unknown value slots.2 others⟩

/-- Two members of an object may stand in either order. -/
theorem Fields.sets_swap {β : Type} {depth : Nat} {key key' : String} {v v' : List Char} :
    {fields : Fields β} → {before between after : fields.Slots} →
    fields.Sets depth key v before between → fields.Sets depth key' v' between after →
    ∃ middle, fields.Sets depth key' v' before middle ∧ fields.Sets depth key v middle after
  | .nil, _, _, _, first, second => ⟨(), second, first⟩
  | .cons k shape _ rest, before, between, after, first, second => by
      simp only [Fields.Sets] at first second ⊢
      by_cases same : key = k <;> by_cases same' : key' = k
      · -- Both fill one slot, but the first one has filled it.
        rw [if_pos same] at first
        rw [if_pos same'] at second
        obtain ⟨-, a, -, rfl⟩ := first
        cases second.1
      · rw [if_pos same] at first
        rw [if_neg same'] at second
        obtain ⟨free, a, taken, rfl⟩ := first
        refine ⟨(none, after.2), ?_, ?_⟩
        · rw [if_neg same']
          exact ⟨free.symm, second.2⟩
        · rw [if_pos same]
          exact ⟨rfl, a, taken, Prod.ext second.1 rfl⟩
      · rw [if_neg same] at first
        rw [if_pos same'] at second
        obtain ⟨free, a, taken, rfl⟩ := second
        refine ⟨(some a, before.2), ?_, ?_⟩
        · rw [if_pos same']
          exact ⟨first.1 ▸ free, a, taken, rfl⟩
        · rw [if_neg same]
          exact ⟨rfl, first.2⟩
      · rw [if_neg same] at first
        rw [if_neg same'] at second
        obtain ⟨middle, second', first'⟩ := Fields.sets_swap first.2 second.2
        refine ⟨(before.1, middle), ?_, ?_⟩
        · rw [if_neg same']
          exact ⟨rfl, second'⟩
        · rw [if_neg same]
          exact ⟨second.1.trans first.1, first'⟩

/-- The members change the slots so, one after the other. -/
inductive Fields.Gathers {β : Type} (fields : Fields β) (depth : Nat) :
    List Named → fields.Slots → fields.Slots → Prop
  | nil (slots : fields.Slots) : Gathers fields depth [] slots slots
  | cons {m : Named} {members : List Named} {before between after : fields.Slots}
      (head : fields.Sets depth m.name m.value before between)
      (others : Gathers fields depth members between after) :
      Gathers fields depth (m :: members) before after

namespace Fields.Gathers

variable {β : Type} {fields : Fields β} {depth : Nat} {members others : List Named}
  {before between after : fields.Slots}

theorem append (first : fields.Gathers depth members before between)
    (second : fields.Gathers depth others between after) :
    fields.Gathers depth (members ++ others) before after := by
  induction first with
  | nil => exact second
  | cons head _ ih => exact .cons head (ih second)

theorem of_unknown (unknown : ∀ m ∈ members, m.name ∉ fields.keys)
    (values : ∀ m ∈ members, Value m.value) (slots : fields.Slots) :
    fields.Gathers depth members slots slots := by
  induction members with
  | nil => exact .nil slots
  | cons m members ih =>
      obtain ⟨here, later⟩ := List.forall_mem_cons.mp unknown
      obtain ⟨value, values⟩ := List.forall_mem_cons.mp values
      exact .cons (sets_unknown value slots here) (ih later values)

/-- It does not matter in which order the members stand. -/
theorem perm (order : members.Perm others) (gathers : fields.Gathers depth members before after) :
    fields.Gathers depth others before after := by
  induction order generalizing before after with
  | nil => exact gathers
  | cons m _ ih =>
      cases gathers with
      | cons head rest => exact .cons head (ih rest)
  | swap m n rest =>
      cases gathers with
      | cons first gathers =>
        cases gathers with
        | cons second rest =>
          obtain ⟨middle, second, first⟩ := sets_swap first second
          exact .cons second (.cons first rest)
  | trans _ _ ih ih' => exact ih' (ih gathers)

end Fields.Gathers

/-! ## Reading members into slots -/

theorem Fields.place_here {α β : Type} {key : String} {shape : Shape α} {presence : Presence α}
    {rest : Fields β} {depth : Nat} {before : (Fields.cons key shape presence rest).Slots}
    {cs text after : List Char} {a : α} (free : before.1 = none)
    (colon : readColon cs = .ok text) (read : shape.read depth text = .ok (a, after)) :
    (Fields.cons key shape presence rest).place depth key before cs =
      .ok ((some a, before.2), after) := by
  rw [Fields.place.eq_def]
  dsimp only
  rw [if_pos rfl, free]
  exact bind_eq_ok.mpr ⟨_, colon, bind_eq_ok.mpr ⟨_, read, rfl⟩⟩

theorem Fields.place_other {α β : Type} {key k : String} {shape : Shape α} {presence : Presence α}
    {rest : Fields β} {depth : Nat} {before : (Fields.cons key shape presence rest).Slots}
    {others : rest.Slots} {cs after : List Char} (apart : k ≠ key)
    (read : rest.place depth k before.2 cs = .ok (others, after)) :
    (Fields.cons key shape presence rest).place depth k before cs =
      .ok ((before.1, others), after) := by
  rw [Fields.place.eq_def]
  dsimp only
  rw [if_neg apart]
  exact bind_eq_ok.mpr ⟨_, read, rfl⟩

theorem readColon_valueChars (m : Member) (rest : List Char) :
    readColon (m.valueChars ++ rest) = .ok (m.before.chars ++ (m.value ++ rest)) := by
  rw [Member.valueChars, List.append_assoc, List.cons_append, m.gap.readColon_colon,
    List.append_assoc]

theorem skip_blanks (blanks : Blanks) {v rest : List Char} (value : Value v)
    (ends : EndsNumber rest) : skip (blanks.chars ++ (v ++ rest)) = .ok rest := by
  rw [skip, blanks.skipWith_append]
  refine value.passable _ rest ?_ ends
  rw [List.length_append, List.length_append]
  omega

/-- A member that changes the slots is taken in. -/
theorem Fields.takesIn_place {β : Type} {depth : Nat} {m : Named} : {fields : Fields β} →
    {before after : fields.Slots} → fields.Sets depth m.name m.value before after →
    TakesIn (fun cs => fields.place depth m.name before cs) m.valueChars after
  | .nil, _, _, value => fun rest ends =>
      bind_eq_ok.mpr ⟨_, readColon_valueChars m.toMember rest,
        bind_eq_ok.mpr ⟨_, skip_blanks m.before value ends, rfl⟩⟩
  | .cons k shape _ others, before, after, sets => by
      intro rest ends
      rw [Fields.Sets] at sets
      split at sets
      · rename_i same
        obtain ⟨free, a, taken, rfl⟩ := sets
        subst same
        exact Fields.place_here free (readColon_valueChars m.toMember rest)
          ((shape.read_blanks m.before).mpr (taken rest ends))
      · rename_i apart
        have placed := Fields.takesIn_place sets.2 rest ends
        rw [← Prod.mk.eta (p := after), sets.1]
        exact Fields.place_other apart placed

theorem Fields.Gathers.goesThrough {β : Type} {fields : Fields β} {depth : Nat}
    {members : List Named} {before after : fields.Slots}
    (gathers : fields.Gathers depth members before after) :
    GoesThrough (fun key slots cs => fields.place depth key slots cs) members before after := by
  induction gathers with
  | nil slots => exact .nil slots
  | cons head _ ih => exact .cons (Fields.takesIn_place head) ih

/-- Members that are read one after the other set the slots one after the other. -/
theorem Fields.Gathers.of_once {β : Type} {fields : Fields β} {depth : Nat}
    {related : Named → Named → Prop} {before kept : List Named} {start after : fields.Slots}
    (each : List.Forall₂ (fun m n => m.name = n.name ∧ related m n) before kept)
    (through : GoesThroughOnce (fun key slots cs => fields.place depth key slots cs) before start
      after)
    (sets : ∀ m n s t, related m n →
      TakesInOnce (fun cs => fields.place depth m.name s cs) m.valueChars t →
      fields.Sets depth m.name n.value s t) : fields.Gathers depth kept start after := by
  induction each generalizing start with
  | nil =>
      cases through
      exact .nil _
  | @cons m n before kept head _ ih =>
      cases through with
      | cons first through =>
        refine .cons ?_ (ih through)
        rw [← head.1]
        exact sets m n _ _ head.2 first

/-! ## Reading enlarged texts -/

theorem Shape.Enlarged.head?_eq {α : Type} : {shape : Shape α} → {v w : List Char} →
    shape.Enlarged v w → v.head? = w.head?
  | .optional inner, v, w, enlarged => by
      rcases enlarged with ⟨rfl, rfl⟩ | enlarged
      · rfl
      · exact Shape.Enlarged.head?_eq enlarged
  | .list item, v, w, enlarged => by
      have enlarged : ListEnlarged (fun v w => item.Enlarged v w) v w := enlarged
      obtain ⟨⟩ := enlarged
      rfl
  | .record _ fields _ _, v, w, enlarged => by
      have enlarged : ObjectEnlarged fields.keys (fun key v w => fields.EnlargedAt key v w) v w :=
        enlarged
      obtain ⟨⟩ := enlarged
      rfl
  | .text, v, w, enlarged | .flag, v, w, enlarged | .amount, v, w, enlarged
  | .whole, v, w, enlarged | .choice _ _, v, w, enlarged => by
      obtain ⟨-, rfl⟩ := enlarged
      rfl

theorem forall₂_of_related {α β γ : Type} {related : α → β → Prop} {one : α → γ → Prop}
    {other : β → γ → Prop} (each : ∀ a b c, related a b → one a c → other b c) {as : List α}
    {bs : List β} {cs : List γ} (all : List.Forall₂ related as bs) (ones : List.Forall₂ one as cs) :
    List.Forall₂ other bs cs := by
  induction all generalizing cs with
  | nil =>
      cases ones
      exact .nil
  | cons head _ ih =>
      cases ones with
      | cons first rest => exact .cons (each _ _ _ head first) (ih rest)

mutual
/-- An enlarged text is taken in as what the first text is read as. -/
theorem Shape.Enlarged.takesIn {α : Type} : {shape : Shape α} → {depth : Nat} →
    {v w : List Char} → {a : α} → shape.Enlarged v w → TakesInOnce (shape.read depth) v a →
    TakesIn (shape.read depth) w a
  | .text, depth, v, w, a, ⟨value, same⟩, once => same ▸ portable_readText _ v a value once
  | .flag, depth, v, w, a, ⟨value, same⟩, once => same ▸ portable_readFlag v a value once
  | .amount, depth, v, w, a, ⟨value, same⟩, once => same ▸ portable_readAmount v a value once
  | .whole, depth, v, w, a, ⟨value, same⟩, once => same ▸ portable_whole depth v a value once
  | .choice spell choices, depth, v, w, a, enlarged, once => by
      obtain ⟨value, rfl⟩ := enlarged
      exact portable_readChoice depth _ a value once
  | .optional inner, depth, v, w, a, enlarged, ⟨tail, ends, found⟩ => by
      rcases enlarged with ⟨rfl, rfl⟩ | enlarged
      · rcases read_optional_eq_ok found with ⟨_, _, _, rfl⟩ | ⟨other, _⟩
        · exact fun _ _ => rfl
        · exact absurd rfl (other _)
      · obtain ⟨value, value'⟩ := Shape.Enlarged.values enlarged
        have alike := Shape.Enlarged.head?_eq enlarged
        obtain ⟨c, cs, rfl, dark⟩ := value.exists_cons
        obtain ⟨c', cs', rfl, -⟩ := value'.exists_cons
        obtain rfl : c = c' := Option.some.inj alike
        rcases read_optional_eq_ok found with ⟨body, start, word, rfl⟩ | ⟨other, b, inside, rfl⟩
        · rw [skipSpace_value value] at start
          obtain ⟨rfl, -⟩ := List.cons.inj start
          rw [value'.eq_null rfl]
          exact fun _ _ => rfl
        · rw [skipSpace_value value] at other inside
          refine takesIn_optional dark ?_ (Shape.Enlarged.takesIn enlarged ⟨tail, ends, inside⟩)
          rintro rfl
          exact other _ rfl
  | .list item, depth, v, w, as, enlarged, ⟨tail, ends, found⟩ => by
      have enlarged : ListEnlarged (fun v w => item.Enlarged v w) v w := enlarged
      obtain ⟨blanks, blanks', each⟩ := enlarged
      obtain ⟨values, values'⟩ := forall_of_forall₂ (fun i : Item => Value i.value)
        (fun j : Item => Value j.value) (fun i j related => Shape.Enlarged.values related) each
      obtain ⟨less, body, rfl, start, found⟩ := read_list_eq_ok found
      obtain ⟨-, rfl⟩ := List.cons.inj start
      have taken := forall₂_of_readItems (item.readsValues_read less) values found
      refine takesIn_list blanks' (fun j member => (values' j member).startsValue)
        (forall₂_of_related ?_ each taken)
      exact fun i j a related once => Shape.Enlarged.takesIn related once
  | .record name fields make _, depth, v, w, a, enlarged, ⟨tail, ends, found⟩ => by
      have enlarged : ObjectEnlarged fields.keys (fun key v w => fields.EnlargedAt key v w) v w :=
        enlarged
      obtain ⟨blanks, blanks', each, unknown, values, order⟩ := enlarged
      obtain ⟨before, -⟩ := forall_of_forall₂ (fun m : Named => Value m.value)
        (fun m : Named => Value m.value)
        (fun m n related => Fields.EnlargedAt.values related.2) each
      obtain ⟨less, body, b, rfl, rfl, ⟨start, slots, found, filled⟩ | ⟨start, -⟩⟩ :=
        read_record_eq_ok found
      · obtain ⟨-, rfl⟩ := List.cons.inj start
        have through := goesThroughOnce_of_readMembers (fields.readsMembers_place less) before found
        have kept := Fields.Gathers.of_once each through
          fun m n s t related once => Fields.EnlargedAt.sets related once
        have all := (kept.append (.of_unknown unknown values slots)).perm order
        exact takesIn_record blanks' all.goesThrough filled
      · cases start

theorem Fields.EnlargedAt.sets {β : Type} : {fields : Fields β} → {depth : Nat} → {m : Named} →
    {w : List Char} → {before after : fields.Slots} → fields.EnlargedAt m.name m.value w →
    TakesInOnce (fun cs => fields.place depth m.name before cs) m.valueChars after →
    fields.Sets depth m.name w before after
  | .nil, depth, m, w, before, after, ⟨value, same⟩, _ => same ▸ value
  | .cons k shape _ others, depth, m, w, before, after, enlarged, ⟨tail, ends, found⟩ => by
      rw [Fields.EnlargedAt] at enlarged
      rw [Fields.Sets]
      rcases place_cons_eq_ok found with
        ⟨same, free, text, a, colon, inside, rfl⟩ | ⟨apart, first, placed⟩
      · rw [if_pos same] at enlarged ⊢
        cases (readColon_valueChars m.toMember tail).symm.trans colon
        have once := (shape.read_blanks m.before).mp inside
        exact ⟨free, a, Shape.Enlarged.takesIn enlarged ⟨tail, ends, once⟩, rfl⟩
      · rw [if_neg apart] at enlarged ⊢
        exact ⟨first, Fields.EnlargedAt.sets enlarged ⟨tail, ends, placed⟩⟩
end

/-- An enlarged text is read as what the first text is read as. -/
theorem Shape.parse_of_enlarged {α : Type} {shape : Shape α} {s t : String}
    (enlarged : shape.EnlargedText s t) {a : α} (parsed : shape.parse s = .ok a) :
    shape.parse t = .ok a := by
  obtain ⟨i, j, before, after, inside⟩ := enlarged
  obtain ⟨⟨a', rest⟩, found, ended⟩ := bind_eq_ok.mp parsed
  obtain ⟨_, -, same⟩ := bind_eq_ok.mp ended
  cases same
  rw [before, Item.chars, shape.read_blanks] at found
  have ends := i.after.endsNumber_chars
  obtain rfl := (shape.readsValues_read _ _ _ _ found).unique (inside.values.1.passes ends)
  have taken := inside.takesIn ⟨_, ends, found⟩
  have read : shape.read depthLimit t.toList = .ok (a, j.after.chars) := by
    rw [after, Item.chars, shape.read_blanks]
    exact taken _ j.after.endsNumber_chars
  exact bind_eq_ok.mpr ⟨_, read, bind_eq_ok.mpr ⟨_, j.after.readEnd_chars, rfl⟩⟩

end GrantConsole.Record
