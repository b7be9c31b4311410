import GrantConsole.Proofs.Record.Agreement
import GrantConsole.Proofs.Record.Lossless

/-!
# What a record keeps of the value it was read from

A value that was read as a record is written again with all that it says under known keys: what
stood there stands there again, and what was missing is missing, null or a default.
-/

namespace GrantConsole.Record

open GrantConsole.Json GrantConsole.Number

/-- What becomes of the member under a key when an object is read and written again. -/
structure MemberKept (key : String) (kept : Json → Json → Prop) (default? : Option Json)
    (before after : List (String × Json)) : Prop where
  there : ∀ v, before.lookup key = some v → v ≠ .null →
    ∃ w, after.lookup key = some w ∧ kept v w
  blank : before.lookup key = none ∨ before.lookup key = some .null →
    after.lookup key = none ∨ after.lookup key = some .null ∨
      ∃ d, default? = some d ∧ after.lookup key = some d

/-- The items of one list and those of the other, position by position. -/
def ItemsKept (kept : Json → Json → Prop) (v w : Json) : Prop :=
  ∃ items items', v = .array items ∧ w = .array items' ∧ List.Forall₂ kept items items'

mutual
/-- What the value says under known keys is what the other one says, and nothing else. -/
def Shape.Kept {α : Type} : Shape α → Json → Json → Prop
  | .optional inner, v, w => v ≠ .null → inner.Kept v w
  | .list item, v, w => ItemsKept (fun v w => item.Kept v w) v w
  | .record _ fields _ _, v, w =>
    ∃ before after, v = .object before ∧ w = .object after ∧ fields.Kept before after ∧
      ∀ m ∈ after, m.1 ∈ fields.keys
  | .text, v, w | .flag, v, w | .amount, v, w | .whole, v, w | .choice _ _, v, w => w = v

def Fields.Kept {β : Type} : Fields β → (before after : List (String × Json)) → Prop
  | .nil, _, _ => True
  | .cons key shape presence others, before, after =>
    MemberKept key (fun v w => shape.Kept v w) (presence.absent?.map fun a => shape.write a)
      before after ∧ others.Kept before after
end

/-- The values for which no member is written would be written as null. -/
def Presence.OmitsNulls {α : Type} (presence : Presence α) (shape : Shape α) : Prop :=
  ∀ a, presence.omits a = true → shape.write a = .null

namespace Presence

variable {α : Type}

@[simp]
theorem omitsNulls_required (shape : Shape α) : required.OmitsNulls shape :=
  nofun

@[simp]
theorem omitsNulls_default (a : α) (shape : Shape α) : (default a).OmitsNulls shape :=
  nofun

@[simp]
theorem omitsNulls_nullable (inner : Shape α) : nullable.OmitsNulls (.optional inner) :=
  nofun

@[simp]
theorem omitsNulls_omittable (inner : Shape α) : omittable.OmitsNulls (.optional inner) := by
  intro a omitted
  cases a with
  | none => rfl
  | some a => cases omitted

end Presence

mutual
/-- A record is taken apart into the fields it was made from, and only nulls are left out. -/
def Shape.Conserving {α : Type} : Shape α → Prop
  | .optional inner => inner.Conserving
  | .list item => item.Conserving
  | .record _ fields make parts => (∀ b, parts (make b) = b) ∧ fields.Conserving
  | .text | .flag | .amount | .whole | .choice _ _ => True

def Fields.Conserving {β : Type} : Fields β → Prop
  | .nil => True
  | .cons _ shape presence others =>
    presence.OmitsNulls shape ∧ shape.Conserving ∧ others.Conserving
end

/-- Only null is kept as null. -/
theorem Shape.Kept.eq_null {α : Type} : {shape : Shape α} → {v : Json} → shape.Kept v .null →
    v = .null
  | .text, _, kept | .flag, _, kept | .amount, _, kept | .whole, _, kept | .choice _ _, _, kept =>
    kept.symm
  | .optional inner, v, kept => by
      by_cases empty : v = .null
      · exact empty
      · have kept : inner.Kept v .null := kept empty
        exact kept.eq_null
  | .list item, v, kept => by
      obtain ⟨items, items', -, same, -⟩ := kept
      cases same
  | .record _ _ _ _, v, kept => by
      obtain ⟨before, after, -, same, -⟩ := kept
      cases same

/-- A value that null stands for is written as null. -/
theorem Shape.write_of_null {α : Type} : {shape : Shape α} → {a : α} →
    shape.ofJson? .null = some a → shape.write a = .null
  | .text, _, value | .flag, _, value | .amount, _, value | .whole, _, value
  | .choice _ _, _, value | .list _, _, value | .record _ _ _ _, _, value => by cases value
  | .optional _, _, value => by
      cases value
      rfl

theorem MemberKept.cons_of_ne {key other : String} {kept : Json → Json → Prop}
    {default? : Option Json} {before after : List (String × Json)}
    (member : MemberKept key kept default? before after) (apart : key ≠ other) (w : Json) :
    MemberKept key kept default? before ((other, w) :: after) := by
  constructor <;> rw [lookup_cons_eq_ite, if_neg apart]
  · exact member.there
  · exact member.blank

theorem Fields.Kept.cons_of_not_mem {β : Type} {key : String} {w : Json}
    {before after : List (String × Json)} : {fields : Fields β} → fields.Kept before after →
    key ∉ fields.keys → fields.Kept before ((key, w) :: after)
  | .nil, _, _ => trivial
  | .cons k _ _ others, kept, unknown => by
      have apart : k ≠ key := fun same => unknown (same ▸ List.mem_cons_self)
      refine ⟨kept.1.cons_of_ne apart w, kept.2.cons_of_not_mem ?_⟩
      exact fun known => unknown (List.mem_cons_of_mem k known)

section Members

variable {α : Type} {key : String} {shape : Shape α} {before after : List (String × Json)} {a : α}

/-- A member that is left out was missing or null. -/
theorem memberKept_omitted {default? : Option Json} (null : shape.write a = .null)
    (missing : after.lookup key = none)
    (same : ∀ v, before.lookup key = some v → shape.Kept v (shape.write a)) :
    MemberKept key (fun v w => shape.Kept v w) default? before after where
  there := by
    intro v found some
    have kept := same v found
    -- A value that was there would be kept as null, and only null is.
    rw [null] at kept
    exact absurd kept.eq_null some
  blank := fun _ => .inl missing

/-- A member that was missing is written as what its absence stands for. -/
theorem memberKept_written {presence : Presence α}
    (value : Fields.valueIn? key shape presence before = some a)
    (written : after.lookup key = some (shape.write a))
    (same : ∀ v, before.lookup key = some v → shape.Kept v (shape.write a)) :
    MemberKept key (fun v w => shape.Kept v w) (presence.absent?.map fun a => shape.write a)
      before after where
  there := fun v found _ => ⟨_, written, same v found⟩
  blank := by
    rintro (missing | null)
    · rw [Fields.valueIn?, missing, Option.map_none, Option.getD_none] at value
      exact .inr (.inr ⟨_, by rw [value, Option.map_some], written⟩)
    · rw [Fields.valueIn?, null, Option.map_some, Option.getD_some] at value
      exact .inr (.inl (written.trans (by rw [Shape.write_of_null value])))

end Members

mutual
/-- A plain value that stands for a record is kept when the record is written. -/
theorem Shape.kept_write {α : Type} : (shape : Shape α) → shape.Distinct → shape.Conserving →
    {v : Json} → {a : α} → shape.ofJson? v = some a → shape.isPlain v = true →
    shape.Kept v (shape.write a)
  | .text, _, _, v, a, value, _ => by
      cases v <;> cases value
      rfl
  | .flag, _, _, v, a, value, _ => by
      cases v <;> cases value
      rfl
  | .amount, _, _, v, a, value, plain => by
      cases v <;> cases value
      · cases plain
      · rfl
  | .whole, _, _, v, a, value, plain => by
      cases v with
      | whole n =>
        have bounds := of_decide_eq_true plain
        rw [Shape.ofJson?, coerceWhole, if_pos bounds] at value
        cases value
        rw [Shape.write, Int64.toInt_ofInt_of_le]
        · exact rfl
        · exact bounds.1
        · exact bounds.2
      | real x => cases plain
      | _ => cases value
  | .choice spell choices, _, _, v, a, value, _ => by
      cases v with
      | text s =>
        have same := List.find?_some (p := fun a => spell a == s) value
        exact congrArg Json.text (eq_of_beq same)
      | _ => cases value
  | .optional inner, distinct, conserving, v, a, value, plain => by
      intro some
      have distinct : inner.Distinct := distinct
      rw [ofJson?_optional some] at value
      obtain ⟨b, inside, rfl⟩ := Option.map_eq_some_iff.mp value
      exact inner.kept_write distinct conserving inside plain
  | .list item, distinct, conserving, v, as, value, plain => by
      cases v with
      | array items =>
        have distinct : item.Distinct := distinct
        have conserving : item.Conserving := conserving
        refine ⟨items, _, rfl, rfl, List.forall₂_map_right_iff.mpr ?_⟩
        have each := (List.forall₂_and_left _ _).mpr
          ⟨List.all_eq_true.mp plain, mapM_eq_some_iff.mp value⟩
        refine each.imp ?_
        rintro v a ⟨plain, value⟩
        exact item.kept_write distinct conserving value plain
      | _ => cases value
  | .record _ fields _ parts, distinct, conserving, v, a, value, plain => by
      cases v with
      | object before =>
        rw [Shape.ofJson?] at value
        obtain ⟨b, members, rfl⟩ := Option.map_eq_some_iff.mp value
        rw [Shape.write, conserving.1]
        have kept := fields.kept_write distinct.1 distinct.2 conserving.2 members plain
        refine ⟨before, _, rfl, rfl, kept, ?_⟩
        intro m member
        exact (fields.keys_write b).subset (List.mem_map_of_mem member)
      | _ => cases value

theorem Fields.kept_write {β : Type} : (fields : Fields β) → fields.keys.Nodup → fields.Distinct →
    fields.Conserving → {before : List (String × Json)} → {b : β} →
    fields.ofMembers? before = some b → fields.isPlain before = true →
    fields.Kept before (fields.write b)
  | .nil, _, _, _, _, _, _, _ => trivial
  | .cons key shape presence others, keys, distinct, conserving, before, (a, b), value, plain => by
      obtain ⟨unknown, keys⟩ := List.nodup_cons.mp keys
      obtain ⟨plain, plain'⟩ := Fields.isPlain_cons plain
      obtain ⟨first, value⟩ := Fields.ofMembers?_cons_eq_some.mp value
      have kept := others.kept_write keys distinct.2 conserving.2.2 value plain'
      have same : ∀ v, before.lookup key = some v → shape.Kept v (shape.write a) := by
        intro v found
        rw [Fields.valueIn?, found, Option.map_some, Option.getD_some] at first
        exact shape.kept_write distinct.1 conserving.2.1 first (plain v found)
      rw [Fields.write]
      split
      case isTrue omitted =>
        have missing := Fields.lookup_write_of_not_mem unknown b
        exact ⟨memberKept_omitted (conserving.1 a omitted) missing same, kept⟩
      case isFalse =>
        refine ⟨memberKept_written first ?_ same, kept.cons_of_not_mem unknown⟩
        rw [lookup_cons_eq_ite, if_pos rfl]
end

end GrantConsole.Record
