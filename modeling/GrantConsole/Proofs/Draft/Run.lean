import GrantConsole.Draft.Basic

/-!
# Runs over a draft

A run is what becomes of a draft under a list of actions, with what each action gave back. What
every action of a run preserves holds at its end. An edit leaves the identity of the rule alone, and
is either refused with nothing changed or applied to the rule of the draft.
-/

namespace GrantConsole.RuleDraft

open GrantConsole.Api

/-- What can be done with a draft. -/
inductive Action
  | editHeader (edit : HeaderEdit)
  | addFilter
  | updateFilter (index : Nat) (edit : FilterEdit)
  | removeFilter (index : Nat)
  | addCondition
  | updateCondition (index : Nat) (edit : ConditionEdit)
  | removeCondition (index : Nat)
  | beginSubmit
  | finishSubmit (result : Except Failure Rule)

/-- What an action gives back. -/
inductive Reply
  | done
  | edited (outcome : EditOutcome)
  | begun (submission : Option Submission)
  | finished (outcome : SubmitOutcome)
deriving DecidableEq

/-- An action with what it gave back. -/
structure Event where
  action : Action
  reply : Reply

/-- A draft with what has happened to it, the first event first. -/
structure Run where
  draft : RuleDraft
  events : List Event := []

/-- The draft after an action, with what the action gives back. -/
def act (d : RuleDraft) : Action → RuleDraft × Reply
  | .editHeader edit => (d.editHeader edit, .done)
  | .addFilter => (d.addFilter, .done)
  | .updateFilter index edit => (d.updateFilter index edit).map id .edited
  | .removeFilter index => (d.removeFilter index).map id .edited
  | .addCondition => (d.addCondition, .done)
  | .updateCondition index edit => (d.updateCondition index edit).map id .edited
  | .removeCondition index => (d.removeCondition index).map id .edited
  | .beginSubmit => d.beginSubmit.map id .begun
  | .finishSubmit result => (d.finishSubmit result).map id .finished

def Run.act (r : Run) (action : Action) : Run :=
  ⟨(r.draft.act action).1, r.events ++ [⟨action, (r.draft.act action).2⟩]⟩

def run (d : RuleDraft) (actions : List Action) : Run :=
  actions.foldl Run.act { draft := d }

/-- What holds at the start of a run and is kept by each of its actions holds at its end. -/
theorem run_induction {motive : Run → Prop} {d : RuleDraft} {actions : List Action}
    (start : motive { draft := d })
    (step : ∀ r, ∀ action ∈ actions, motive r → motive (r.act action)) :
    motive (d.run actions) :=
  List.foldlRecOn actions Run.act start fun r holds action member => step r action member holds

/-! ## Touching -/

@[simp]
theorem touch_rule (d : RuleDraft) : d.touch.rule = d.rule := by
  unfold touch
  split <;> rfl

@[simp]
theorem touch_lastError (d : RuleDraft) : d.touch.lastError = d.lastError := by
  unfold touch
  split <;> rfl

theorem touch_phase_of_idle {d : RuleDraft} (idle : d.phase = .idle) :
    d.touch.phase = .editing := by
  unfold touch
  rw [if_pos idle]

theorem touch_of_not_idle {d : RuleDraft} (active : d.phase ≠ .idle) : d.touch = d := by
  unfold touch
  rw [if_neg active]

@[simp]
theorem touch_phase_eq_submitting (d : RuleDraft) (mode : SubmitMode) :
    d.touch.phase = .submitting mode ↔ d.phase = .submitting mode := by
  by_cases idle : d.phase = .idle
  · simp [touch_phase_of_idle idle, idle]
  · rw [touch_of_not_idle idle]

/-! ## Operations -/

theorem updateFilter_eq (d : RuleDraft) (index : Nat) (edit : FilterEdit) :
    d.updateFilter index edit =
      if index < d.rule.filters.length then
        (d.withFilters (d.rule.filters.modify index fun f => edit.apply f), .applied)
      else (d, .outOfRange) := by
  unfold updateFilter editAt?
  split <;> rfl

theorem removeFilter_eq (d : RuleDraft) (index : Nat) :
    d.removeFilter index =
      if index < d.rule.filters.length then
        (d.withFilters (d.rule.filters.eraseIdx index), .applied)
      else (d, .outOfRange) := by
  unfold removeFilter removeAt?
  split <;> rfl

/-- Removing at an index that is not there leaves the rule as it is, like erasing there. -/
theorem rule_removeFilter (d : RuleDraft) (index : Nat) :
    (d.removeFilter index).1.rule = { d.rule with filters := d.rule.filters.eraseIdx index } := by
  rw [removeFilter_eq]
  split
  · rw [withFilters, touch_rule]
  · rename_i outside
    rw [List.eraseIdx_of_length_le (Nat.not_lt.mp outside)]

theorem updateCondition_eq (d : RuleDraft) (index : Nat) (edit : ConditionEdit) :
    d.updateCondition index edit =
      if index < d.rule.conditions.length then
        match edit.apply? with
        | .ok change => (d.withConditions (d.rule.conditions.modify index change), .applied)
        | .error raw => (d, .badOrder raw)
      else (d, .outOfRange) := by
  unfold updateCondition editAt?
  split
  · cases edit.apply? <;> rfl
  · rfl

theorem removeCondition_eq (d : RuleDraft) (index : Nat) :
    d.removeCondition index =
      if index < d.rule.conditions.length then
        (d.withConditions (d.rule.conditions.eraseIdx index), .applied)
      else (d, .outOfRange) := by
  unfold removeCondition removeAt?
  split <;> rfl

theorem rule_removeCondition (d : RuleDraft) (index : Nat) :
    (d.removeCondition index).1.rule =
      { d.rule with conditions := d.rule.conditions.eraseIdx index } := by
  rw [removeCondition_eq]
  split
  · rw [withConditions, touch_rule]
  · rename_i outside
    rw [List.eraseIdx_of_length_le (Nat.not_lt.mp outside)]

/-! ## Edits -/

/-- An action that neither starts a submit nor takes in the answer to one. -/
def Action.isEdit : Action → Bool
  | .beginSubmit | .finishSubmit _ => false
  | _ => true

/-- What an edit gives back when it is applied. -/
def Action.applied : Action → Reply
  | .updateFilter .. | .removeFilter _ | .updateCondition .. | .removeCondition _ =>
      .edited .applied
  | _ => .done

/-- What an applied edit makes of a rule. -/
inductive RuleChange (rule : Rule) : Action → Rule → Prop where
  | editHeader (edit : HeaderEdit) : RuleChange rule (.editHeader edit) (edit.apply rule)
  | addFilter :
      RuleChange rule .addFilter { rule with filters := rule.filters ++ [({} : Filter)] }
  | updateFilter {index : Nat} (edit : FilterEdit) (inRange : index < rule.filters.length) :
      RuleChange rule (.updateFilter index edit)
        { rule with filters := rule.filters.modify index fun f => edit.apply f }
  | removeFilter {index : Nat} (inRange : index < rule.filters.length) :
      RuleChange rule (.removeFilter index)
        { rule with filters := rule.filters.eraseIdx index }
  | addCondition :
      RuleChange rule .addCondition
        { rule with conditions := rule.conditions ++ [({} : Condition)] }
  | updateCondition {index : Nat} {edit : ConditionEdit} {change : Condition → Condition}
      (inRange : index < rule.conditions.length) (readable : edit.apply? = .ok change) :
      RuleChange rule (.updateCondition index edit)
        { rule with conditions := rule.conditions.modify index change }
  | removeCondition {index : Nat} (inRange : index < rule.conditions.length) :
      RuleChange rule (.removeCondition index)
        { rule with conditions := rule.conditions.eraseIdx index }

/-- An edit is applied to the rule of the draft, or it is refused and nothing changes. -/
theorem act_edit_cases {action : Action} (isEdit : action.isEdit = true) (d : RuleDraft) :
    (∃ rule, RuleChange d.rule action rule ∧
      d.act action = ({ d with rule }.touch, action.applied)) ∨
    ∃ outcome, outcome ≠ .applied ∧ d.act action = (d, .edited outcome) := by
  cases action with
  | editHeader edit => exact .inl ⟨_, .editHeader edit, rfl⟩
  | addFilter => exact .inl ⟨_, .addFilter, rfl⟩
  | updateFilter index edit =>
      by_cases inRange : index < d.rule.filters.length
      · refine .inl ⟨_, .updateFilter edit inRange, ?_⟩
        rw [act, updateFilter_eq, if_pos inRange]
        rfl
      · refine .inr ⟨.outOfRange, by decide, ?_⟩
        rw [act, updateFilter_eq, if_neg inRange]
        rfl
  | removeFilter index =>
      by_cases inRange : index < d.rule.filters.length
      · refine .inl ⟨_, .removeFilter inRange, ?_⟩
        rw [act, removeFilter_eq, if_pos inRange]
        rfl
      · refine .inr ⟨.outOfRange, by decide, ?_⟩
        rw [act, removeFilter_eq, if_neg inRange]
        rfl
  | addCondition => exact .inl ⟨_, .addCondition, rfl⟩
  | updateCondition index edit =>
      by_cases inRange : index < d.rule.conditions.length
      · cases readable : edit.apply? with
        | ok change =>
            refine .inl ⟨_, .updateCondition inRange readable, ?_⟩
            rw [act, updateCondition_eq, if_pos inRange, readable]
            rfl
        | error raw =>
            refine .inr ⟨.badOrder raw, EditOutcome.noConfusion, ?_⟩
            rw [act, updateCondition_eq, if_pos inRange, readable]
            rfl
      · refine .inr ⟨.outOfRange, by decide, ?_⟩
        rw [act, updateCondition_eq, if_neg inRange]
        rfl
  | removeCondition index =>
      by_cases inRange : index < d.rule.conditions.length
      · refine .inl ⟨_, .removeCondition inRange, ?_⟩
        rw [act, removeCondition_eq, if_pos inRange]
        rfl
      · refine .inr ⟨.outOfRange, by decide, ?_⟩
        rw [act, removeCondition_eq, if_neg inRange]
        rfl
  | beginSubmit => cases isEdit
  | finishSubmit result => cases isEdit

/-- Two rules that are the same record of the server. -/
structure SameRecord (first second : Rule) : Prop where
  id : first.id = second.id
  created : first.created = second.created
  updated : first.updated = second.updated
  author : first.author = second.author

theorem SameRecord.refl (rule : Rule) : SameRecord rule rule :=
  ⟨rfl, rfl, rfl, rfl⟩

theorem SameRecord.trans {first second third : Rule} (before : SameRecord first second)
    (after : SameRecord second third) : SameRecord first third :=
  ⟨before.id.trans after.id, before.created.trans after.created,
    before.updated.trans after.updated, before.author.trans after.author⟩

theorem RuleChange.sameRecord {rule after : Rule} {action : Action}
    (change : RuleChange rule action after) : SameRecord after rule := by
  cases change with
  | editHeader edit => cases edit <;> exact ⟨rfl, rfl, rfl, rfl⟩
  | _ => exact ⟨rfl, rfl, rfl, rfl⟩

/-! ## Submits -/

/-- The draft with its submit under way. -/
def underWay (d : RuleDraft) : RuleDraft :=
  { d with phase := .submitting d.submitMode, lastError := none }

theorem isSubmitting_iff (d : RuleDraft) :
    d.isSubmitting = true ↔ ∃ mode, d.phase = .submitting mode := by
  unfold isSubmitting
  cases d.phase <;> simp

theorem beginSubmit_of_isSubmitting {d : RuleDraft} (busy : d.isSubmitting = true) :
    d.beginSubmit = (d, none) := by
  unfold beginSubmit
  rw [if_pos busy]

theorem beginSubmit_of_not_isSubmitting {d : RuleDraft} (free : d.isSubmitting = false) :
    d.beginSubmit = (d.underWay, some ⟨d.submitMode, d.rule⟩) := by
  unfold beginSubmit
  rw [free]
  rfl

theorem finishSubmit_of_not_isSubmitting {d : RuleDraft} (free : d.isSubmitting = false)
    (result : Except Failure Rule) : d.finishSubmit result = (d, .ignored) := by
  unfold isSubmitting at free
  unfold finishSubmit
  cases phase : d.phase <;> simp [phase] at free ⊢

/-- A failure brings the draft back as it is, with the failure told. -/
theorem finishSubmit_error {d : RuleDraft} (busy : d.isSubmitting = true) (failure : Failure) :
    d.finishSubmit (.error failure) =
      ({ d with phase := .editing, lastError := some failure }, .failed failure) := by
  obtain ⟨mode, phase⟩ := d.isSubmitting_iff.mp busy
  unfold finishSubmit
  rw [phase]
  cases mode <;> rfl

/-- A success leaves a fresh draft: a blank one, or one of the rule that came back. -/
theorem finishSubmit_ok {d : RuleDraft} (busy : d.isSubmitting = true) (rule : Rule) :
    d.finishSubmit (.ok rule) = (new d.rule.grant, .created rule) ∨
      d.finishSubmit (.ok rule) = (load rule, .updated) := by
  obtain ⟨mode, phase⟩ := d.isSubmitting_iff.mp busy
  unfold finishSubmit
  rw [phase]
  cases mode with
  | create => exact .inl rfl
  | update id => exact .inr rfl

end GrantConsole.RuleDraft
