import GrantConsole.Proofs.Record.Written

/-!
# Members in another order

Values that differ in the order of members stand for the same records, so it does not matter in
which order a record is sent.
-/

namespace GrantConsole.Record

open GrantConsole.Json

/-- The values differ at most in the order in which their objects hold their members. -/
inductive Rearranged : Json → Json → Prop
  | refl (v : Json) : Rearranged v v
  | trans {u v w : Json} (first : Rearranged u v) (second : Rearranged v w) : Rearranged u w
  | members {before after : List (String × Json)} (order : before.Perm after) :
      Rearranged (.object before) (.object after)
  | member {v w : Json} (before : List (String × Json)) (key : String)
      (after : List (String × Json)) (inside : Rearranged v w) :
      Rearranged (.object (before ++ (key, v) :: after)) (.object (before ++ (key, w) :: after))
  | item {v w : Json} (before after : List Json) (inside : Rearranged v w) :
      Rearranged (.array (before ++ v :: after)) (.array (before ++ w :: after))

theorem lookup_of_perm {before after : List (String × Json)} (order : before.Perm after)
    (keys : (before.map Prod.fst).Nodup) (key : String) : before.lookup key = after.lookup key := by
  induction order with
  | nil => rfl
  | cons m order ih =>
      obtain ⟨k, v⟩ := m
      rw [lookup_cons_eq_ite, lookup_cons_eq_ite, ih (List.nodup_cons.mp keys).2]
  | swap m m' rest =>
      obtain ⟨k, v⟩ := m
      obtain ⟨k', v'⟩ := m'
      have apart : k' ≠ k := by
        rintro rfl
        exact (List.nodup_cons.mp keys).1 List.mem_cons_self
      simp only [lookup_cons_eq_ite]
      grind
  | trans first second ih ih' =>
      exact (ih keys).trans (ih' ((first.map Prod.fst).nodup_iff.mp keys))

/-- Objects whose members stand for the same fields stand for the same records. -/
theorem ofJson?_object {before after : List (String × Json)}
    (alike : ∀ {β : Type} (fields : Fields β), fields.ofMembers? before = fields.ofMembers? after)
    {α : Type} : (shape : Shape α) → shape.ofJson? (.object before) = shape.ofJson? (.object after)
  | .text | .flag | .amount | .whole | .choice _ _ | .list _ => rfl
  | .optional inner => by
      rw [ofJson?_optional (v := .object before) nofun, ofJson?_optional (v := .object after) nofun,
        ofJson?_object alike inner]
  | .record _ fields _ _ => by
      rw [Shape.ofJson?, Shape.ofJson?, alike fields]

theorem ofJson?_array {before after : List Json}
    (alike : ∀ {α : Type} (item : Shape α),
      before.mapM (fun v => item.ofJson? v) = after.mapM fun v => item.ofJson? v)
    {α : Type} : (shape : Shape α) → shape.ofJson? (.array before) = shape.ofJson? (.array after)
  | .text | .flag | .amount | .whole | .choice _ _ | .record _ _ _ _ => rfl
  | .optional inner => by
      rw [ofJson?_optional (v := .array before) nofun, ofJson?_optional (v := .array after) nofun,
        ofJson?_array alike inner]
  | .list item => alike item

theorem Rearranged.writable {v w : Json} (rearranged : Rearranged v w) (writable : v.Writable) :
    w.Writable := by
  induction rearranged with
  | refl => exact writable
  | trans first second ih ih' => exact ih' (ih writable)
  | members order =>
      cases writable with
      | object keys each =>
        exact .object ((order.map Prod.fst).nodup_iff.mp keys)
          fun m member => each m (order.mem_iff.mpr member)
  | member before key after inside ih =>
      cases writable with
      | object keys each =>
        refine .object (by simpa using keys) ?_
        intro m member
        simp only [List.mem_append, List.mem_cons] at member each
        rcases member with member | rfl | member
        · exact each m (.inl member)
        · exact ih (each _ (.inr (.inl rfl)))
        · exact each m (.inr (.inr member))
  | item before after inside ih =>
      cases writable with
      | array each =>
        refine .array ?_
        intro m member
        simp only [List.mem_append, List.mem_cons] at member each
        rcases member with member | rfl | member
        · exact each m (.inl member)
        · exact ih (each _ (.inr (.inl rfl)))
        · exact each m (.inr (.inr member))

theorem Rearranged.ofJson? {v w : Json} (rearranged : Rearranged v w) (writable : v.Writable)
    {α : Type} (shape : Shape α) : shape.ofJson? v = shape.ofJson? w := by
  induction rearranged generalizing α with
  | refl => rfl
  | trans first second ih ih' =>
      exact (ih writable shape).trans (ih' (first.writable writable) shape)
  | members order =>
      cases writable with
      | object keys each =>
        refine ofJson?_object (fun fields => Fields.ofMembers?_congr ?_) shape
        intro key _ _ _
        rw [lookup_of_perm order keys]
  | @member v w before key after inside ih =>
      cases writable with
      | object keys each =>
        have same {γ : Type} (shape : Shape γ) := ih (each (key, v) (by simp)) shape
        refine ofJson?_object (fun fields => Fields.ofMembers?_congr ?_) shape
        intro k _ _ field
        rw [List.lookup_append, List.lookup_append, lookup_cons_eq_ite, lookup_cons_eq_ite]
        cases before.lookup k with
        | some u => rfl
        | none =>
          by_cases found : k = key
          · simp [found, same field]
          · simp [found]
  | @item v w before after inside ih =>
      cases writable with
      | array each =>
        have same {γ : Type} (shape : Shape γ) := ih (each v (by simp)) shape
        refine ofJson?_array (fun item => ?_) shape
        simp only [List.mapM_append, List.mapM_cons, same item]

/-- In whatever order the members of an object and of those in it stand, it is read the same. -/
theorem Rearranged.parse_compact {α : Type} {shape : Shape α} (distinct : shape.Distinct)
    (fits : shape.nesting ≤ depthLimit) {v w : Json} (rearranged : Rearranged v w)
    (writable : v.Writable) {a : α} (value : shape.ofJson? v = some a) :
    shape.parse w.compact = .ok a :=
  Shape.parse_compact distinct fits (rearranged.writable writable)
    ((rearranged.ofJson? writable shape).symm.trans value)

end GrantConsole.Record
