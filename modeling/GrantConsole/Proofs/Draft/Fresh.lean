import GrantConsole.Proofs.Draft.Clauses
import GrantConsole.Proofs.Draft.Flight
import GrantConsole.Proofs.Draft.Submit
import GrantConsole.Record.Writer

/-!
# Rules that the server does not know

Ids, times and the author of a rule are given by the server. A draft that was begun blank has none
of them, in the rule and in its clauses, whatever is edited and whatever comes back for its submits:
a rule that was made is not kept in the draft, which is blank again. So each submit of the draft
makes a rule, and what it sends names nothing that the server gives.
-/

namespace GrantConsole

/-! ## Keys that are not written

A field whose value is omitted has no member in the record that is written. A record is written
without a key at any depth if every field under that key, in the record and in all records inside
it, has an omitted value. -/

/-- No object in a value, however deep, has a member under one of some keys. -/
inductive Json.Lacks (keys : List String) : Json → Prop
  | null : Lacks keys .null
  | bool (b : Bool) : Lacks keys (.bool b)
  | whole (n : Int) : Lacks keys (.whole n)
  | real (x : Number.Binary64) : Lacks keys (.real x)
  | text (s : String) : Lacks keys (.text s)
  | array {items : List Json} (each : ∀ v ∈ items, Lacks keys v) : Lacks keys (.array items)
  | object {members : List (String × Json)} (unnamed : ∀ m ∈ members, m.1 ∉ keys)
      (each : ∀ m ∈ members, Lacks keys m.2) : Lacks keys (.object members)

namespace Record

open GrantConsole.Json

mutual
/-- All fields under some keys have omitted values, in a value and in the records inside it. -/
def Shape.Withholds (keys : List String) {α : Type} : Shape α → α → Prop
  | .optional _, none => True
  | .optional inner, some a => inner.Withholds keys a
  | .list item, items => ∀ a ∈ items, item.Withholds keys a
  | .record _ fields _ parts, a => fields.Withholds keys (parts a)
  | .text, _ | .flag, _ | .amount, _ | .whole, _ | .choice _ _, _ => True

def Fields.Withholds (keys : List String) {β : Type} : Fields β → β → Prop
  | .nil, _ => True
  | .cons key shape presence rest, (a, b) =>
    (presence.omits a = true ∨ key ∉ keys ∧ shape.Withholds keys a) ∧ rest.Withholds keys b
end

variable {keys : List String}

mutual
/-- What is withheld is not written. -/
theorem Shape.lacks_write {α : Type} : {shape : Shape α} → {a : α} → shape.Withholds keys a →
    (shape.write a).Lacks keys
  | .text, s, _ => .text s
  | .flag, b, _ => .bool b
  | .amount, x, _ => .real x
  | .whole, n, _ => .whole n.toInt
  | .choice spell _, a, _ => .text (spell a)
  | .optional _, none, _ => .null
  | .optional inner, some a, withheld => by
      have withheld : inner.Withholds keys a := withheld
      have written := Shape.lacks_write withheld
      exact written
  | .list item, items, withheld => by
      refine .array ?_
      intro v member
      obtain ⟨a, present, rfl⟩ := List.mem_map.mp member
      exact Shape.lacks_write (withheld a present)
  | .record _ fields _ parts, a, withheld => by
      have withheld : fields.Withholds keys (parts a) := withheld
      have written := Fields.lacks_write withheld
      exact .object (fun m member => (written m member).1) fun m member => (written m member).2

theorem Fields.lacks_write {β : Type} : {fields : Fields β} → {b : β} →
    fields.Withholds keys b → ∀ m ∈ fields.write b, m.1 ∉ keys ∧ m.2.Lacks keys
  | .nil, _, _ => nofun
  | .cons key shape presence rest, (a, b), withheld => by
      obtain ⟨first, later⟩ := withheld
      have others := Fields.lacks_write later
      rw [Fields.write]
      split
      · exact others
      · rename_i written
        obtain ⟨unnamed, inside⟩ := first.resolve_left written
        exact List.forall_mem_cons.mpr ⟨⟨unnamed, Shape.lacks_write inside⟩, others⟩
end

end Record

open GrantConsole.Api GrantConsole.Record

/-! ## Rules without what the server gives -/

/-- The filter has nothing that the server gives. -/
structure Filter.Fresh (f : Filter) : Prop where
  id : f.id = none
  created : f.created = none
  updated : f.updated = none

/-- The condition has nothing that the server gives. -/
structure Condition.Fresh (c : Condition) : Prop where
  id : c.id = none
  created : c.created = none
  updated : c.updated = none

/-- The rule has nothing that the server gives, nor has any of its clauses. -/
structure Rule.Fresh (rule : Rule) : Prop where
  id : rule.id = none
  created : rule.created = none
  updated : rule.updated = none
  author : rule.author = none
  filters : ∀ f ∈ rule.filters, f.Fresh
  conditions : ∀ c ∈ rule.conditions, c.Fresh

/-- The keys of what the server gives. -/
def givenKeys : List String :=
  ["id", "created_at", "updated_at", "created_by"]

/-! ## What is written of a fresh rule -/

theorem omits_of_eq_none {α : Type} {a : Option α} (missing : a = none) :
    Presence.omittable.omits a = true :=
  congrArg Option.isNone missing

theorem Filter.Fresh.withheld {f : Filter} (fresh : f.Fresh) :
    Filter.shape.Withholds givenKeys f := by
  unfold Filter.shape Operator.shape
  simp only [Shape.Withholds, Fields.Withholds]
  exact ⟨.inl (omits_of_eq_none fresh.id), .inr ⟨by decide, trivial⟩, .inr ⟨by decide, trivial⟩,
    .inr ⟨by decide, trivial⟩, .inl (omits_of_eq_none fresh.created),
    .inl (omits_of_eq_none fresh.updated), trivial⟩

theorem Condition.Fresh.withheld {c : Condition} (fresh : c.Fresh) :
    Condition.shape.Withholds givenKeys c := by
  unfold Condition.shape Operator.shape
  simp only [Shape.Withholds, Fields.Withholds]
  exact ⟨.inl (omits_of_eq_none fresh.id), .inr ⟨by decide, trivial⟩, .inr ⟨by decide, trivial⟩,
    .inr ⟨by decide, trivial⟩, .inr ⟨by decide, trivial⟩, .inl (omits_of_eq_none fresh.created),
    .inl (omits_of_eq_none fresh.updated), trivial⟩

theorem Rule.Fresh.withheld {rule : Rule} (fresh : rule.Fresh) :
    Rule.shape.Withholds givenKeys rule := by
  have filters : ∀ f ∈ rule.filters, Filter.shape.Withholds givenKeys f :=
    fun f member => (fresh.filters f member).withheld
  have conditions : ∀ c ∈ rule.conditions, Condition.shape.Withholds givenKeys c :=
    fun c member => (fresh.conditions c member).withheld
  have description : (Shape.optional .text).Withholds givenKeys rule.description := by
    cases rule.description <;> trivial
  have aggregator : (Shape.optional Aggregator.shape).Withholds givenKeys rule.aggregator := by
    cases rule.aggregator <;> trivial
  unfold Rule.shape RuleType.shape
  simp only [Shape.Withholds, Fields.Withholds]
  exact ⟨.inl (omits_of_eq_none fresh.id), .inr ⟨by decide, trivial⟩, .inr ⟨by decide, trivial⟩,
    .inr ⟨by decide, description⟩, .inr ⟨by decide, trivial⟩, .inr ⟨by decide, aggregator⟩,
    .inr ⟨by decide, trivial⟩, .inr ⟨by decide, trivial⟩, .inr ⟨by decide, filters⟩,
    .inr ⟨by decide, conditions⟩, .inl (omits_of_eq_none fresh.created),
    .inl (omits_of_eq_none fresh.updated), .inl (omits_of_eq_none fresh.author), trivial⟩

/-! ## Edits of a fresh rule -/

theorem forall_mem_modify {α : Type} {holds : α → Prop} {f : α → α} {items : List α} {index : Nat}
    (inRange : index < items.length) (each : ∀ a ∈ items, holds a)
    (kept : ∀ a, holds a → holds (f a)) : ∀ a ∈ items.modify index f, holds a := by
  obtain ⟨before, a, after, split, -, modified⟩ := List.exists_of_modify f inRange
  rw [split] at each
  rw [modified]
  intro b member
  rcases List.mem_append.mp member with earlier | here
  · exact each b (List.mem_append_left _ earlier)
  · rcases List.mem_cons.mp here with rfl | later
    · exact kept a (each a (by simp))
    · exact each b (by simp [later])

theorem FilterEdit.fresh_apply (edit : FilterEdit) {f : Filter} (fresh : f.Fresh) :
    (edit.apply f).Fresh := by
  cases edit <;> exact ⟨fresh.id, fresh.created, fresh.updated⟩

theorem ConditionEdit.fresh_change (edit : ConditionEdit) {c : Condition} (fresh : c.Fresh) :
    (edit.change c).Fresh := by
  rw [edit.change_eq]
  exact ⟨fresh.id, fresh.created, fresh.updated⟩

theorem Rule.fresh_blank (grant : String) : (Rule.blank grant).Fresh :=
  ⟨rfl, rfl, rfl, rfl, nofun, nofun⟩

namespace RuleDraft

/-- A change of a fresh rule leaves it fresh. -/
theorem RuleChange.fresh {rule after : Rule} {action : Action} (fresh : rule.Fresh)
    (change : RuleChange rule action after) : after.Fresh := by
  have record := change.sameRecord
  have clauses : (∀ f ∈ after.filters, f.Fresh) ∧ ∀ c ∈ after.conditions, c.Fresh := by
    cases change with
    | editHeader edit => cases edit <;> exact ⟨fresh.filters, fresh.conditions⟩
    | addFilter =>
        exact ⟨List.forall_mem_append.mpr
          ⟨fresh.filters, List.forall_mem_singleton.mpr ⟨rfl, rfl, rfl⟩⟩, fresh.conditions⟩
    | updateFilter edit inRange =>
        exact ⟨forall_mem_modify inRange fresh.filters fun _ => edit.fresh_apply,
          fresh.conditions⟩
    | removeFilter inRange =>
        exact ⟨fun f member => fresh.filters f (List.mem_of_mem_eraseIdx member),
          fresh.conditions⟩
    | addCondition =>
        exact ⟨fresh.filters, List.forall_mem_append.mpr
          ⟨fresh.conditions, List.forall_mem_singleton.mpr ⟨rfl, rfl, rfl⟩⟩⟩
    | @updateCondition _ edit _ inRange readable =>
        rw [← ConditionEdit.change_of_readable readable]
        exact ⟨fresh.filters,
          forall_mem_modify inRange fresh.conditions fun _ => edit.fresh_change⟩
    | removeCondition inRange =>
        exact ⟨fresh.filters, fun c member => fresh.conditions c (List.mem_of_mem_eraseIdx member)⟩
  exact ⟨record.id.trans fresh.id, record.created.trans fresh.created,
    record.updated.trans fresh.updated, record.author.trans fresh.author, clauses.1, clauses.2⟩

/-! ## Runs from a blank rule -/

/-- The draft is of a rule to be made, and so is the submit under way. -/
structure OfNew (d : RuleDraft) : Prop where
  fresh : d.rule.Fresh
  mode : ∀ mode, d.phase = .submitting mode → mode = .create

variable {d : RuleDraft}

theorem ofNew_new (grant : String) : OfNew (new grant) :=
  ⟨Rule.fresh_blank grant, nofun⟩

theorem OfNew.act_edit (ofNew : OfNew d) {action : Action} (isEdit : action.isEdit = true) :
    OfNew (d.act action).1 := by
  rcases act_edit_cases isEdit d with ⟨rule, change, applied⟩ | ⟨outcome, -, refused⟩
  · rw [applied]
    constructor
    · rw [touch_rule]
      exact change.fresh ofNew.fresh
    · intro mode busy
      exact ofNew.mode mode ((touch_phase_eq_submitting { d with rule } mode).mp busy)
  · rw [refused]
    exact ofNew

theorem OfNew.beginSubmit (ofNew : OfNew d) : OfNew d.beginSubmit.1 := by
  cases busy : d.isSubmitting with
  | true =>
      rw [beginSubmit_of_isSubmitting busy]
      exact ofNew
  | false =>
      rw [beginSubmit_of_not_isSubmitting busy]
      refine ⟨ofNew.fresh, ?_⟩
      intro mode same
      rw [← Phase.submitting.inj same]
      exact submitMode_of_none ofNew.fresh.id

/-- A rule that was made is not taken in: the draft is blank again. -/
theorem finishSubmit_made {d : RuleDraft} (creating : d.phase = .submitting .create) (made : Rule) :
    d.finishSubmit (.ok made) = (new d.rule.grant, .created made) := by
  unfold finishSubmit
  rw [creating]

theorem OfNew.finishSubmit (ofNew : OfNew d) (result : Except Failure Rule) :
    OfNew (d.finishSubmit result).1 := by
  cases busy : d.isSubmitting with
  | false =>
      rw [finishSubmit_of_not_isSubmitting busy]
      exact ofNew
  | true =>
      cases result with
      | error failure =>
          rw [finishSubmit_error busy]
          exact ⟨ofNew.fresh, nofun⟩
      | ok made =>
          obtain ⟨mode, phase⟩ := d.isSubmitting_iff.mp busy
          obtain rfl := ofNew.mode mode phase
          rw [finishSubmit_made phase]
          exact ofNew_new d.rule.grant

theorem OfNew.act (ofNew : OfNew d) (action : Action) : OfNew (d.act action).1 := by
  by_cases isEdit : action.isEdit = true
  · exact ofNew.act_edit isEdit
  · cases action with
    | beginSubmit => exact ofNew.beginSubmit
    | finishSubmit result => exact ofNew.finishSubmit result
    | _ => exact absurd rfl isEdit

/-- The submission makes a rule, and what it sends says nothing that the server gives. -/
structure MakesRule (s : Submission) : Prop where
  mode : s.mode = .create
  fresh : s.rule.Fresh
  body : ∃ body, s.operation.body = .json body ∧ body.Lacks givenKeys

theorem OfNew.makesRule (ofNew : OfNew d) {s : Submission} (begun : d.beginSubmit.2 = some s) :
    MakesRule s := by
  obtain ⟨rule, phase⟩ := beginSubmit_snapshot begun
  have fresh : s.rule.Fresh := rule ▸ ofNew.fresh
  have lacks : (Rule.shape.write s.rule).Lacks givenKeys := Shape.lacks_write fresh.withheld
  exact ⟨ofNew.beginSubmit.mode s.mode phase, fresh, Rule.shape.write s.rule, s.body_operation,
    lacks⟩

/-- Whatever is done with a draft that was begun blank, every submission that was taken of it makes
a rule and says nothing that the server gives. -/
theorem makesRule_run (grant : String) (actions : List Action) {event : Event}
    (among : event ∈ ((new grant).run actions).events) {s : Submission}
    (begun : event.reply = .begun (some s)) : MakesRule s := by
  have kept : OfNew ((new grant).run actions).draft ∧
      ∀ event ∈ ((new grant).run actions).events, ∀ s,
        event.reply = .begun (some s) → MakesRule s := by
    apply run_induction (motive := fun r => OfNew r.draft ∧
      ∀ event ∈ r.events, ∀ s, event.reply = .begun (some s) → MakesRule s)
    · exact ⟨ofNew_new grant, fun event among => absurd among List.not_mem_nil⟩
    · rintro r action - ⟨ofNew, earlier⟩
      refine ⟨ofNew.act action, ?_⟩
      intro event member s begun
      rcases List.mem_append.mp member with before | last
      · exact earlier event before s begun
      · obtain rfl := List.mem_singleton.mp last
        cases action with
        | beginSubmit => exact ofNew.makesRule (Reply.begun.inj begun)
        | _ => cases begun
  exact kept.2 event among s begun

/-- A rule is made and comes back with all that the server gives it; the next submission is of
another rule, with a condition. -/
theorem makesRule_run_again :
    let made : Rule :=
      { id := some "r-1", grant := "g", created := some "now", author := some "u-1",
        filters := [{ id := some "f-1" }] }
    let actions : List Action :=
      [.addFilter, .beginSubmit, .finishSubmit (.ok made), .addCondition, .beginSubmit]
    let s : Submission := ⟨.create, { grant := "g", active := true, conditions := [{}] }⟩
    ⟨.beginSubmit, .begun (some s)⟩ ∈ ((new "g").run actions).events ∧ MakesRule s := by
  intro made actions s
  have among : ⟨.beginSubmit, .begun (some s)⟩ ∈ ((new "g").run actions).events :=
    .tail _ (.tail _ (.tail _ (.tail _ (.head _))))
  exact ⟨among, makesRule_run "g" actions among rfl⟩

end RuleDraft

end GrantConsole
