import GrantConsole.Domain.Resource
import GrantConsole.Proofs.Record.Written

/-!
# Records, written and read

A shape is lossless if what it writes for a value tells the value: its choices have spellings of
their own, no value but the missing one is written as null, and a value without a member is the one
that a missing member stands for. Such a value is read back from its text.
-/

namespace GrantConsole.Record

open GrantConsole.Json GrantConsole.Number

/-- The values for which no member is written are the one that a missing member stands for. -/
def Presence.Restores {α : Type} (presence : Presence α) : Prop :=
  ∀ a, presence.omits a = true → presence.absent? = some a

namespace Presence

variable {α : Type}

@[simp]
theorem restores_required : (required : Presence α).Restores :=
  nofun

@[simp]
theorem restores_default (a : α) : (default a).Restores :=
  nofun

@[simp]
theorem restores_nullable : (nullable : Presence (Option α)).Restores :=
  nofun

@[simp]
theorem restores_named : (named : Presence (Option α)).Restores :=
  nofun

@[simp]
theorem restores_omittable : (omittable : Presence (Option α)).Restores := by
  intro a omitted
  cases a with
  | none => rfl
  | some a => cases omitted

end Presence

mutual
/-- What is written for a value tells the value; of binary numbers nothing is said. -/
def Shape.Lossless {α : Type} : Shape α → Prop
  | .text | .flag | .whole => True
  | .amount => False
  | .choice spell choices => ∀ a, (choices.find? fun b => spell b == spell a) = some a
  | .optional inner => inner.Lossless ∧ ∀ a, inner.write a ≠ .null
  | .list item => item.Lossless
  | .record _ fields make parts => fields.Lossless ∧ ∀ a, make (parts a) = a

def Fields.Lossless {β : Type} : Fields β → Prop
  | .nil => True
  | .cons _ shape presence rest =>
    shape.Lossless ∧ presence.Restores ∧ rest.Lossless
end

@[simp]
theorem write_text_ne_null (s : String) : Shape.text.write s ≠ .null :=
  nofun

/-! ## What is written -/

/-- Members are written under keys of fields, in the order of the fields. -/
theorem Fields.keys_write {β : Type} : (fields : Fields β) → (b : β) →
    ((fields.write b).map Prod.fst).Sublist fields.keys
  | .nil, _ => .slnil
  | .cons key shape presence rest, (a, b) => by
      rw [write, keys]
      split
      · exact (rest.keys_write b).cons key
      · exact (rest.keys_write b).cons_cons key

theorem Fields.lookup_write_of_not_mem {β : Type} {fields : Fields β} {key : String}
    (unknown : key ∉ fields.keys) (b : β) : (fields.write b).lookup key = none := by
  rw [List.lookup_eq_none_iff]
  intro m member
  have known := (fields.keys_write b).subset (List.mem_map_of_mem member)
  have apart : key ≠ m.1 := fun same => unknown (same ▸ known)
  simpa using apart

theorem whole_bounds (n : Int64) : -int64Bound ≤ n.toInt ∧ n.toInt < int64Bound := by
  have least := n.le_toInt
  have most := n.toInt_lt
  have bound : (int64Bound : Int) = 2 ^ 63 := by decide
  omega

mutual
theorem Shape.writable_write {α : Type} : {shape : Shape α} → shape.Distinct → shape.Lossless →
    (a : α) → (shape.write a).Writable
  | .text, _, _, s => .text s
  | .flag, _, _, b => .bool b
  | .amount, _, lossless, _ => lossless.elim
  | .whole, _, _, n => by
      obtain ⟨least, most⟩ := whole_bounds n
      have bounds : int64Bound < wordBound := by decide
      exact .whole least (by omega)
  | .choice spell _, _, _, a => .text (spell a)
  | .optional _, _, _, none => .null
  | .optional inner, distinct, lossless, some a =>
      have distinct : inner.Distinct := distinct
      Shape.writable_write distinct lossless.1 a
  | .list item, distinct, lossless, items => by
      have distinct : item.Distinct := distinct
      have lossless : item.Lossless := lossless
      refine .array ?_
      intro v member
      obtain ⟨a, -, rfl⟩ := List.mem_map.mp member
      exact Shape.writable_write distinct lossless a
  | .record _ fields _ parts, distinct, lossless, a =>
      .object (distinct.1.sublist (fields.keys_write (parts a)))
        (Fields.writable_write distinct.2 lossless.1 (parts a))

theorem Fields.writable_write {β : Type} : {fields : Fields β} → fields.Distinct →
    fields.Lossless → (b : β) → ∀ m ∈ fields.write b, m.2.Writable
  | .nil, _, _, _ => nofun
  | .cons key shape presence rest, distinct, lossless, (a, b) => by
      have others := Fields.writable_write distinct.2 lossless.2.2 b
      rw [Fields.write]
      split
      · exact others
      · exact List.forall_mem_cons.mpr ⟨Shape.writable_write distinct.1 lossless.1 a, others⟩
end

/-! ## What the written value stands for -/

mutual
theorem Shape.ofJson?_write {α : Type} : {shape : Shape α} → shape.Distinct → shape.Lossless →
    (a : α) → shape.ofJson? (shape.write a) = some a
  | .text, _, _, _ => rfl
  | .flag, _, _, _ => rfl
  | .amount, _, lossless, _ => lossless.elim
  | .whole, _, _, n => by
      rw [Shape.write, Shape.ofJson?, coerceWhole, if_pos (whole_bounds n), Int64.ofInt_toInt]
      rfl
  | .choice _ _, _, lossless, a => lossless a
  | .optional _, _, _, none => rfl
  | .optional inner, distinct, lossless, some a => by
      have distinct : inner.Distinct := distinct
      rw [Shape.write, ofJson?_optional (lossless.2 a), Shape.ofJson?_write distinct lossless.1 a]
      rfl
  | .list item, distinct, lossless, items => by
      have distinct : item.Distinct := distinct
      have lossless : item.Lossless := lossless
      rw [Shape.write, Shape.ofJson?]
      induction items with
      | nil => rfl
      | cons a items ih =>
          rw [List.map_cons, List.mapM_cons, Shape.ofJson?_write distinct lossless a, ih]
          rfl
  | .record _ fields _ parts, distinct, lossless, a => by
      rw [Shape.write, Shape.ofJson?,
        Fields.ofMembers?_write distinct.1 distinct.2 lossless.1 (parts a),
        Option.map_some, lossless.2]

theorem Fields.ofMembers?_write {β : Type} : {fields : Fields β} → fields.keys.Nodup →
    fields.Distinct → fields.Lossless → (b : β) → fields.ofMembers? (fields.write b) = some b
  | .nil, _, _, _, _ => rfl
  | .cons key shape presence rest, keys, distinct, lossless, (a, b) => by
      obtain ⟨unknown, keys⟩ := List.nodup_cons.mp keys
      have others := Fields.ofMembers?_write keys distinct.2 lossless.2.2 b
      rw [Fields.ofMembers?_cons_eq_some, Fields.valueIn?, Fields.write]
      split
      · rename_i omitted
        rw [Fields.lookup_write_of_not_mem unknown, Option.map_none, Option.getD_none]
        exact ⟨lossless.2.1 a omitted, others⟩
      · rw [lookup_cons_eq_ite, if_pos rfl, Option.map_some, Option.getD_some]
        refine ⟨Shape.ofJson?_write distinct.1 lossless.1 a, others ▸ Fields.ofMembers?_congr ?_⟩
        intro k member _ _
        have apart : k ≠ key := fun same => unknown (same ▸ member)
        rw [lookup_cons_eq_ite, if_neg apart]
end

/-- The text of a record is read as that record. -/
theorem Shape.parse_write {α : Type} {shape : Shape α} (distinct : shape.Distinct)
    (lossless : shape.Lossless) (fits : shape.nesting ≤ depthLimit) (a : α) :
    shape.parse (shape.write a).compact = .ok a :=
  parse_compact distinct fits (writable_write distinct lossless a)
    (ofJson?_write distinct lossless a)

end GrantConsole.Record
