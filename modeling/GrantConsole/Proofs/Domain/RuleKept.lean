import GrantConsole.Api.Operation
import GrantConsole.Proofs.Domain.RoundTrip
import GrantConsole.Proofs.Record.Kept
import GrantConsole.Proofs.Record.Rearranged

/-!
# Rules that are read and written again

A rule that was read from a plain value is sent back whole: every member under a known key keeps its
value, in the rule and in each of its filters and conditions.
-/

namespace GrantConsole

open GrantConsole.Api GrantConsole.Json GrantConsole.Record

/-- The members of one object say under the keys what those of the other say, and nothing else. -/
structure ClauseKept (keys : List String) (before after : List (String × Json)) : Prop where
  kept : ∀ key ∈ keys, MemberKept key (fun v w => w = v) none before after
  known : ∀ m ∈ after, m.1 ∈ keys

/-- Two lists of clauses that say the same, position by position. -/
def ClausesKept (keys : List String) : Json → Json → Prop :=
  ItemsKept fun v w => ∃ before after, v = .object before ∧ w = .object after ∧
    ClauseKept keys before after

/-- What becomes of the members of a rule, with the defaults that missing ones may get. -/
structure RuleKept (before after : List (String × Json)) : Prop where
  same : ∀ key ∈ ["id", "grant_id", "name", "description", "rule_type", "aggregator",
    "error_message", "created_at", "updated_at", "created_by"],
    MemberKept key (fun v w => w = v) none before after
  active : MemberKept "is_active" (fun v w => w = v) (some (.bool true)) before after
  filters : MemberKept "filters"
    (ClausesKept ["id", "field", "operator", "value", "created_at", "updated_at"])
    (some (.array [])) before after
  conditions : MemberKept "conditions"
    (ClausesKept ["id", "field", "operator", "value", "order", "created_at", "updated_at"])
    (some (.array [])) before after
  known : ∀ m ∈ after, m.1 ∈ ["id", "grant_id", "name", "description", "rule_type", "aggregator",
    "error_message", "is_active", "filters", "conditions", "created_at", "updated_at", "created_by"]

/-! ## From shapes to keys -/

theorem memberKept_optional {α : Type} {key : String} {inner : Shape α}
    {before after : List (String × Json)}
    (member :
      MemberKept key (fun v w => (Shape.optional inner).Kept v w) (some .null) before after) :
    MemberKept key (fun v w => inner.Kept v w) none before after where
  there v found some := by
    obtain ⟨w, found', kept⟩ := member.there v found some
    exact ⟨w, found', kept some⟩
  blank missing := by
    rcases member.blank missing with none | null | ⟨d, same, null⟩
    · exact .inl none
    · exact .inr (.inl null)
    · cases same
      exact .inr (.inl null)

theorem memberKept_clauses {α : Type} {key : String} {keys : List String} {item : Shape α}
    (each : ∀ v w, item.Kept v w →
      ∃ before after, v = .object before ∧ w = .object after ∧ ClauseKept keys before after)
    {default? : Option Json} {before after : List (String × Json)}
    (member : MemberKept key (fun v w => (Shape.list item).Kept v w) default? before after) :
    MemberKept key (ClausesKept keys) default? before after where
  there v found some := by
    obtain ⟨w, found', items, items', same, same', kept⟩ := member.there v found some
    exact ⟨w, found', items, items', same, same', kept.imp each⟩
  blank := member.blank

theorem clauseKept_filter (v w : Json) (kept : Filter.shape.Kept v w) :
    ∃ before after, v = .object before ∧ w = .object after ∧
      ClauseKept ["id", "field", "operator", "value", "created_at", "updated_at"] before after := by
  obtain ⟨before, after, rfl, rfl, ⟨id, field, operator, value, created, updated, -⟩, known⟩ := kept
  refine ⟨before, after, rfl, rfl, ?_, known⟩
  simp only [List.forall_mem_cons]
  exact ⟨memberKept_optional id, field, operator, value, memberKept_optional created,
    memberKept_optional updated, nofun⟩

theorem clauseKept_condition (v w : Json) (kept : Condition.shape.Kept v w) :
    ∃ before after, v = .object before ∧ w = .object after ∧
      ClauseKept ["id", "field", "operator", "value", "order", "created_at", "updated_at"]
        before after := by
  obtain ⟨before, after, rfl, rfl,
    ⟨id, field, operator, value, order, created, updated, -⟩, known⟩ := kept
  refine ⟨before, after, rfl, rfl, ?_, known⟩
  simp only [List.forall_mem_cons]
  exact ⟨memberKept_optional id, field, operator, value, order, memberKept_optional created,
    memberKept_optional updated, nofun⟩

theorem ruleKept_of_kept {v w : Json} (kept : Rule.shape.Kept v w) :
    ∃ before after, v = .object before ∧ w = .object after ∧ RuleKept before after := by
  obtain ⟨before, after, rfl, rfl, ⟨id, grant, name, description, type, aggregator, complaint,
    active, filters, conditions, created, updated, author, -⟩, known⟩ := kept
  refine ⟨before, after, rfl, rfl, ?_, active, memberKept_clauses clauseKept_filter filters,
    memberKept_clauses clauseKept_condition conditions, known⟩
  simp only [List.forall_mem_cons]
  exact ⟨memberKept_optional id, grant, name, memberKept_optional description, type,
    memberKept_optional aggregator, complaint, memberKept_optional created,
    memberKept_optional updated, memberKept_optional author, nofun⟩

/-! ## Rules -/

@[simp]
theorem Operator.definite_shape : Operator.shape.Definite := by
  change ∀ op ∈ Operator.all, op.spelling ≠ embeddedKey
  decide

@[simp]
theorem Aggregator.definite_shape : Aggregator.shape.Definite := by
  change ∀ aggregator ∈ Aggregator.all, aggregator.spelling ≠ embeddedKey
  decide

@[simp]
theorem RuleType.definite_shape : RuleType.shape.Definite := by
  change ∀ type ∈ RuleType.all, type.spelling ≠ embeddedKey
  decide

theorem Aggregator.ofJson?_null : Aggregator.shape.ofJson? .null = none :=
  rfl

-- As for round trips, the conditions come down to the fields.
attribute [local simp] Fields.Definite Shape.Definite Fields.Conserving Shape.Conserving
  Shape.ofJson?

theorem Filter.definite_shape : Filter.shape.Definite := by
  refine ⟨by decide, rfl, ?_⟩
  simp

theorem Condition.definite_shape : Condition.shape.Definite := by
  refine ⟨by decide, rfl, ?_⟩
  simp

theorem Rule.definite_shape : Rule.shape.Definite := by
  refine ⟨by decide, rfl, ?_⟩
  simp [Aggregator.ofJson?_null, Filter.definite_shape, Condition.definite_shape]

theorem Filter.conserving_shape : Filter.shape.Conserving := by
  refine ⟨fun _ => rfl, ?_⟩
  simp [Operator.shape]

theorem Condition.conserving_shape : Condition.shape.Conserving := by
  refine ⟨fun _ => rfl, ?_⟩
  simp [Operator.shape]

theorem Rule.conserving_shape : Rule.shape.Conserving := by
  refine ⟨fun _ => rfl, ?_⟩
  simp [RuleType.shape, Aggregator.shape, Filter.conserving_shape, Condition.conserving_shape]

/--
A rule that is read from a text with a plain value and sent back keeps every member under a known
key, and is read again as it was, in whatever order its members are sent.
-/
theorem rule_kept {s : String} {v : Json} {r : Rule} (value : Json.parse s = .ok v)
    (read : Rule.shape.parse s = .ok r) (plain : Rule.shape.isPlain v = true) :
    ∃ before after, v = .object before ∧
      (∀ id, (Operation.replace id r).body = .json (.object after)) ∧ RuleKept before after ∧
      ∀ w, Rearranged (.object after) w → Rule.shape.parse w.compact = .ok r := by
  obtain ⟨distinct, lossless, fits⟩ := Faithful.rule
  have stands := Shape.ofJson?_of_parse Rule.definite_shape read value plain
  have kept := Rule.shape.kept_write distinct Rule.conserving_shape stands plain
  obtain ⟨before, after, rfl, written, kept⟩ := ruleKept_of_kept kept
  refine ⟨before, after, rfl, ?_, kept, ?_⟩
  · intro id
    exact congrArg Body.json written
  · intro w rearranged
    rw [← written] at rearranged
    exact rearranged.parse_compact distinct fits (Shape.writable_write distinct lossless r)
      (Shape.ofJson?_write distinct lossless r)

/-- A rule as a server tells it, with a clause of each kind, a null and an unknown key. -/
def travelCap : Json :=
  .object [("name", .text "cap"), ("grant_id", .text "g"), ("description", .null),
    ("rule_type", .text "budget"), ("error_message", .text "no"), ("rank", .array [.whole 1]),
    ("filters", .array [.object [("operator", .text ">"), ("field", .text "a"),
      ("value", .text "1")]]),
    ("conditions", .array [.object [("field", .text "a"), ("operator", .text "<"),
      ("value", .text "9"), ("order", .whole (-2))]])]

theorem rule_kept_travelCap : ∃ v r before after, Json.parse travelCap.compact = .ok v ∧
    Rule.shape.parse travelCap.compact = .ok r ∧ r.conditions.map Condition.order = [-2] ∧
    v = .object before ∧ (∀ id, (Operation.replace id r).body = .json (.object after)) ∧
    RuleKept before after := by
  obtain ⟨v, value, plain⟩ :
      ∃ v, Json.parse travelCap.compact = .ok v ∧ Rule.shape.isPlain v = true := by
    have plain :
        (Json.parse travelCap.compact).toOption.any (fun v => Rule.shape.isPlain v) = true := by
      rw [Json.parse, parseWithin, readAll, compact, String.toList_ofList]
      decide +kernel
    cases value : Json.parse travelCap.compact with
    | error fault =>
      rw [value] at plain
      cases plain
    | ok v =>
      rw [value] at plain
      exact ⟨v, rfl, plain⟩
  have read : Rule.shape.parse travelCap.compact = .ok
      { grant := "g", name := "cap", type := .budget, complaint := "no", active := true,
        filters := [{ field := "a", operator := .greater, value := "1" }],
        conditions := [{ field := "a", operator := .less, value := "9", order := -2 }] } := by
    rw [Shape.parse, readAll, compact, String.toList_ofList]
    decide +kernel
  obtain ⟨before, after, same, written, kept, -⟩ := rule_kept value read plain
  exact ⟨v, _, before, after, value, read, rfl, same, written, kept⟩

end GrantConsole
