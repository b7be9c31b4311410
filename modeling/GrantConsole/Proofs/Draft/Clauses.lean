import GrantConsole.Proofs.Draft.Ledger
import GrantConsole.Proofs.Draft.Run

/-!
# Clauses under edits

Filters and conditions keep their identity and their order while a draft is edited: what is left of
the original ones comes first, then what is left of the added ones, and every field holds what was
last written to it.
-/

namespace GrantConsole

open GrantConsole.Text

/-! ## What edits write -/

namespace FilterEdit

def field? : FilterEdit → Option String
  | field s => some s
  | _ => none

def operator? : FilterEdit → Option Operator
  | operator op => some op
  | _ => none

def value? : FilterEdit → Option String
  | value s => some s
  | _ => none

end FilterEdit

namespace ConditionEdit

def field? : ConditionEdit → Option String
  | field s => some s
  | _ => none

def operator? : ConditionEdit → Option Operator
  | operator op => some op
  | _ => none

def value? : ConditionEdit → Option String
  | value s => some s
  | _ => none

/-- The whole number that was typed, if it is one. -/
def order? : ConditionEdit → Option Int64
  | order raw => readInt64? (trim raw).toList
  | _ => none

/-- The condition after an edit; one without a whole number for an order changes nothing. -/
def change (edit : ConditionEdit) (c : Condition) : Condition :=
  match edit.apply? with
  | .ok f => f c
  | .error _ => c

end ConditionEdit

/--
The filter with a number in a ledger. Its id and its times are those of the original filter with the
number, and missing for an added one.
-/
def Filter.traced (original : List Filter) (l : Ledger FilterEdit) (number : Nat) : Filter where
  id := original[number]?.bind Filter.id
  field := (l.last? FilterEdit.field? number).getD
    ((original[number]?.map Filter.field).getD "")
  operator := (l.last? FilterEdit.operator? number).getD
    ((original[number]?.map Filter.operator).getD .equal)
  value := (l.last? FilterEdit.value? number).getD
    ((original[number]?.map Filter.value).getD "")
  created := original[number]?.bind Filter.created
  updated := original[number]?.bind Filter.updated

/-- The condition with a number in a ledger. -/
def Condition.traced (original : List Condition) (l : Ledger ConditionEdit) (number : Nat) :
    Condition where
  id := original[number]?.bind Condition.id
  field := (l.last? ConditionEdit.field? number).getD
    ((original[number]?.map Condition.field).getD "")
  operator := (l.last? ConditionEdit.operator? number).getD
    ((original[number]?.map Condition.operator).getD .equal)
  value := (l.last? ConditionEdit.value? number).getD
    ((original[number]?.map Condition.value).getD "")
  order := (l.last? ConditionEdit.order? number).getD
    ((original[number]?.map Condition.order).getD 0)
  created := original[number]?.bind Condition.created
  updated := original[number]?.bind Condition.updated

attribute [ext] Filter Condition

theorem Filter.entry_eq_traced (original : List Filter) (l : Ledger FilterEdit) :
    l.entry (fun edit f => edit.apply f) {} original = Filter.traced original l := by
  funext number
  apply Filter.ext
  case id => exact Ledger.get_entry_of_keeps (fun edit _ => by cases edit <;> rfl) rfl ..
  case field => exact Ledger.get_entry_of_writes (fun edit _ => by cases edit <;> rfl) ..
  case operator => exact Ledger.get_entry_of_writes (fun edit _ => by cases edit <;> rfl) ..
  case value => exact Ledger.get_entry_of_writes (fun edit _ => by cases edit <;> rfl) ..
  case created => exact Ledger.get_entry_of_keeps (fun edit _ => by cases edit <;> rfl) rfl ..
  case updated => exact Ledger.get_entry_of_keeps (fun edit _ => by cases edit <;> rfl) rfl ..

/-- What an edit of a condition does, place by place. -/
theorem ConditionEdit.change_eq (edit : ConditionEdit) (c : Condition) :
    edit.change c =
      { c with
        field := edit.field?.getD c.field
        operator := edit.operator?.getD c.operator
        value := edit.value?.getD c.value
        order := edit.order?.getD c.order } := by
  cases edit with
  | order raw =>
      cases read : readInt64? (trim raw).toList <;>
        simp [change, ConditionEdit.apply?, field?, operator?, value?, order?, read]
  | _ => rfl

theorem Condition.entry_eq_traced (original : List Condition) (l : Ledger ConditionEdit) :
    l.entry ConditionEdit.change {} original = Condition.traced original l := by
  funext number
  apply Condition.ext
  case id => exact Ledger.get_entry_of_keeps (fun edit _ => by rw [edit.change_eq]) rfl ..
  case field => exact Ledger.get_entry_of_writes (fun edit _ => by rw [edit.change_eq]) ..
  case operator => exact Ledger.get_entry_of_writes (fun edit _ => by rw [edit.change_eq]) ..
  case value => exact Ledger.get_entry_of_writes (fun edit _ => by rw [edit.change_eq]) ..
  case order => exact Ledger.get_entry_of_writes (fun edit _ => by rw [edit.change_eq]) ..
  case created => exact Ledger.get_entry_of_keeps (fun edit _ => by rw [edit.change_eq]) rfl ..
  case updated => exact Ledger.get_entry_of_keeps (fun edit _ => by rw [edit.change_eq]) rfl ..

namespace RuleDraft

open GrantConsole.Api

/-! ## The changes of a run -/

/-- The change of the filters that an event tells of. -/
def Event.filterChange? : Event → Option (Change FilterEdit)
  | ⟨.addFilter, .done⟩ => some .added
  | ⟨.updateFilter index edit, .edited .applied⟩ => some (.edited index edit)
  | ⟨.removeFilter index, .edited .applied⟩ => some (.removed index)
  | _ => none

/-- The change of the conditions that an event tells of. -/
def Event.conditionChange? : Event → Option (Change ConditionEdit)
  | ⟨.addCondition, .done⟩ => some .added
  | ⟨.updateCondition index edit, .edited .applied⟩ => some (.edited index edit)
  | ⟨.removeCondition index, .edited .applied⟩ => some (.removed index)
  | _ => none

def Run.filterChanges (r : Run) : List (Change FilterEdit) :=
  r.events.filterMap Event.filterChange?

def Run.conditionChanges (r : Run) : List (Change ConditionEdit) :=
  r.events.filterMap Event.conditionChange?

/-- The action brings a rule from the server into the editor. -/
def Action.takesRule : Action → Bool
  | .finishSubmit (.ok _) => true
  | _ => false

theorem act_rule_of_submit {action : Action} (submit : action.isEdit = false)
    (own : action.takesRule = false) (d : RuleDraft) : (d.act action).1.rule = d.rule := by
  cases action with
  | beginSubmit =>
      change d.beginSubmit.1.rule = d.rule
      unfold beginSubmit
      split <;> rfl
  | finishSubmit result =>
      cases result with
      | error failure =>
          change (d.finishSubmit (.error failure)).1.rule = d.rule
          cases busy : d.isSubmitting with
          | false => rw [finishSubmit_of_not_isSubmitting busy]
          | true => rw [finishSubmit_error busy]
      | ok rule => cases own
  | _ => cases submit

/-- The event is of a submit, or of an edit that was refused. -/
def Event.IsStill (event : Event) : Prop :=
  event.action.isEdit = false ∨ ∃ outcome, outcome ≠ .applied ∧ event.reply = .edited outcome

theorem act_rule_cases {action : Action} (own : action.takesRule = false) (d : RuleDraft) :
    (RuleChange d.rule action (d.act action).1.rule ∧ (d.act action).2 = action.applied) ∨
    ((d.act action).1.rule = d.rule ∧ Event.IsStill ⟨action, (d.act action).2⟩) := by
  by_cases isEdit : action.isEdit = true
  · rcases act_edit_cases isEdit d with ⟨rule, change, applied⟩ | ⟨outcome, other, refused⟩
    · rw [applied, touch_rule]
      exact .inl ⟨change, rfl⟩
    · rw [refused]
      exact .inr ⟨rfl, .inr ⟨outcome, other, rfl⟩⟩
  · rw [Bool.not_eq_true] at isEdit
    exact .inr ⟨act_rule_of_submit isEdit own d, .inl isEdit⟩

theorem Event.IsStill.filterChange? {event : Event} (still : event.IsStill) :
    event.filterChange? = none := by
  unfold Event.filterChange?
  rcases still with submit | ⟨outcome, other, reply⟩
  · split <;> first | rfl | cases submit
  · split <;> first | rfl | cases reply <;> exact absurd rfl other

theorem Event.IsStill.conditionChange? {event : Event} (still : event.IsStill) :
    event.conditionChange? = none := by
  unfold Event.conditionChange?
  rcases still with submit | ⟨outcome, other, reply⟩
  · split <;> first | rfl | cases submit
  · split <;> first | rfl | cases reply <;> exact absurd rfl other

theorem filters_act {action : Action} (own : action.takesRule = false) (d : RuleDraft) :
    ChangesAsTold (fun edit f => FilterEdit.apply f edit) {} d.rule.filters
      (Event.filterChange? ⟨action, (d.act action).2⟩) (d.act action).1.rule.filters := by
  rcases act_rule_cases own d with ⟨change, told⟩ | ⟨same, still⟩
  · rw [told]
    generalize (d.act action).1.rule = after at change
    cases change with
    | editHeader edit => cases edit <;> exact .kept _
    | addFilter => exact .changed (.added _)
    | updateFilter edit inRange => exact .changed (.edited edit inRange)
    | removeFilter inRange => exact .changed (.removed inRange)
    | addCondition => exact .kept _
    | updateCondition inRange readable => exact .kept _
    | removeCondition inRange => exact .kept _
  · rw [same, still.filterChange?]
    exact .kept _

theorem ConditionEdit.change_of_readable {edit : ConditionEdit} {change : Condition → Condition}
    (readable : edit.apply? = .ok change) : edit.change = change := by
  funext c
  unfold ConditionEdit.change
  rw [readable]

theorem conditions_act {action : Action} (own : action.takesRule = false) (d : RuleDraft) :
    ChangesAsTold ConditionEdit.change {} d.rule.conditions
      (Event.conditionChange? ⟨action, (d.act action).2⟩) (d.act action).1.rule.conditions := by
  rcases act_rule_cases own d with ⟨change, told⟩ | ⟨same, still⟩
  · rw [told]
    generalize (d.act action).1.rule = after at change
    cases change with
    | editHeader edit => cases edit <;> exact .kept _
    | addFilter => exact .kept _
    | updateFilter edit inRange => exact .kept _
    | removeFilter inRange => exact .kept _
    | addCondition => exact .changed (.added _)
    | @updateCondition _ edit _ inRange readable =>
        rw [← ConditionEdit.change_of_readable readable]
        exact .changed (.edited edit inRange)
    | removeCondition inRange => exact .changed (.removed inRange)
  · rw [same, still.conditionChange?]
    exact .kept _

/-! ## Runs -/

theorem filterMap_concat {α β : Type} (f : α → Option β) (items : List α) (a : α) :
    (items ++ [a]).filterMap f = items.filterMap f ++ (f a).toList := by
  rw [List.filterMap_append]
  cases told : f a <;> simp [told]

/-- Where every action changes a list as its event tells, the ledger of the events follows it. -/
theorem tracks_run {α ε : Type} {apply : ε → α → α} {blank : α} (items : RuleDraft → List α)
    (change? : Event → Option (Change ε)) (start : RuleDraft) {actions : List Action}
    (told : ∀ action ∈ actions, ∀ d : RuleDraft, ChangesAsTold apply blank (items d)
      (change? ⟨action, (d.act action).2⟩) (items (d.act action).1)) :
    let changes := (start.run actions).events.filterMap change?
    Tracks apply blank (items start) changes (Ledger.ofChanges (items start).length changes)
      (items (start.run actions).draft) := by
  apply run_induction
    (motive := fun r => Tracks apply blank (items start) (r.events.filterMap change?)
      (Ledger.ofChanges (items start).length (r.events.filterMap change?)) (items r.draft))
  · exact Tracks.opening
  · intro r action member tracks
    rw [Run.act, filterMap_concat]
    exact tracks.step_told (told action member r.draft)

theorem filters_tracked (start : RuleDraft) {actions : List Action}
    (own : ∀ action ∈ actions, action.takesRule = false) :
    Tracks (fun edit f => FilterEdit.apply f edit) {} start.rule.filters
      (start.run actions).filterChanges
      (Ledger.ofChanges start.rule.filters.length (start.run actions).filterChanges)
      (start.run actions).draft.rule.filters :=
  tracks_run (fun d => d.rule.filters) Event.filterChange? start
    fun action member d => filters_act (own action member) d

theorem conditions_tracked (start : RuleDraft) {actions : List Action}
    (own : ∀ action ∈ actions, action.takesRule = false) :
    Tracks ConditionEdit.change {} start.rule.conditions (start.run actions).conditionChanges
      (Ledger.ofChanges start.rule.conditions.length (start.run actions).conditionChanges)
      (start.run actions).draft.rule.conditions :=
  tracks_run (fun d => d.rule.conditions) Event.conditionChange? start
    fun action member d => conditions_act (own action member) d

theorem sameRecord_run (start : RuleDraft) {actions : List Action}
    (own : ∀ action ∈ actions, action.takesRule = false) :
    SameRecord (start.run actions).draft.rule start.rule := by
  apply run_induction (motive := fun r => SameRecord r.draft.rule start.rule)
  · exact .refl start.rule
  · intro r action member before
    change SameRecord (r.draft.act action).1.rule start.rule
    rcases act_rule_cases (own action member) r.draft with ⟨change, -⟩ | ⟨same, -⟩
    · exact change.sameRecord.trans before
    · rw [same]
      exact before

/--
What a run has made of a list of so many clauses: first what is left of the original ones, in their
order, and then what is left of the added ones, in theirs. `clause` tells what the clause with a
number is like; the original clauses have the numbers below `length`.
-/
structure ClausesTraced {α ε : Type} (clause : Ledger ε → Nat → α) (length : Nat)
    (changes : List (Change ε)) (clauses : List α) : Prop where
  order : ∃ kept added, kept.Sublist (List.range length) ∧
    added.Sublist (List.range' length (changes.countP Change.isAdded)) ∧
    (Ledger.ofChanges length changes).numbers = kept ++ added ∧
    clauses = kept.map (clause (Ledger.ofChanges length changes)) ++
      added.map (clause (Ledger.ofChanges length changes))
  count : clauses.length + changes.countP Change.isRemoved =
    length + changes.countP Change.isAdded

/-- What a run of edits leaves of the rule that it started with. -/
structure RuleTraced (start : RuleDraft) (r : Run) : Prop where
  filters : ClausesTraced (Filter.traced start.rule.filters) start.rule.filters.length
    r.filterChanges r.draft.rule.filters
  conditions : ClausesTraced (Condition.traced start.rule.conditions)
    start.rule.conditions.length r.conditionChanges r.draft.rule.conditions
  record : SameRecord r.draft.rule start.rule

theorem clausesTraced_of_tracks {α ε : Type} {apply : ε → α → α} {blank : α}
    {original items : List α} {changes : List (Change ε)}
    (tracks : Tracks apply blank original changes (Ledger.ofChanges original.length changes) items) :
    ClausesTraced (Ledger.entry apply blank original) original.length changes items := by
  obtain ⟨kept, added, split, first, second⟩ := tracks.order
  refine ⟨⟨kept, added, first, second, split, ?_⟩, tracks.length⟩
  rw [tracks.entries, split, List.map_append]

/-- However the clauses of a rule are edited, each of them stays the clause that it was. -/
theorem ruleTraced_run (start : RuleDraft) {actions : List Action}
    (own : ∀ action ∈ actions, action.takesRule = false) :
    RuleTraced start (start.run actions) := by
  refine ⟨?_, ?_, sameRecord_run start own⟩
  · have traced := clausesTraced_of_tracks (filters_tracked start own)
    have clause : Ledger.entry (fun edit f => FilterEdit.apply f edit) {} start.rule.filters =
        Filter.traced start.rule.filters :=
      funext fun l => Filter.entry_eq_traced _ l
    rwa [clause] at traced
  · have traced := clausesTraced_of_tracks (conditions_tracked start own)
    have clause : Ledger.entry ConditionEdit.change {} start.rule.conditions =
        Condition.traced start.rule.conditions :=
      funext fun l => Condition.entry_eq_traced _ l
    rwa [clause] at traced

/-- An edit after a removal reaches the filter that has moved up. -/
theorem ruleTraced_run_removal :
    let start := load { filters := [{ id := some "f-1" }, { id := some "f-2", field := "date" }] }
    let actions : List Action :=
      [.removeFilter 0, .updateFilter 0 (.value "5"), .addFilter, .beginSubmit,
        .finishSubmit (.error .unavailable), .updateCondition 0 (.order "1")]
    (∀ action ∈ actions, action.takesRule = false) ∧
      (start.run actions).draft.rule.filters =
        [{ id := some "f-2", field := "date", value := "5" }, {}] ∧
      RuleTraced start (start.run actions) := by
  intro start actions
  have own : ∀ action ∈ actions, action.takesRule = false := by decide
  exact ⟨own, rfl, ruleTraced_run start own⟩

end RuleDraft

end GrantConsole
