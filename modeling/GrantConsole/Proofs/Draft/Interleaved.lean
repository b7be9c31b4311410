import GrantConsole.Proofs.Draft.Run

/-!
# Edits of the parts of a rule

A rule has a header, filters and conditions, and an edit is of one of these parts. It leaves the
other parts alone, and what it does to its own part and gives back depends on that part alone. So
edits of different parts can be made in any order: each part goes through the edits of that part as
if there were no others, and a draft that was idle is edited as soon as any of them is applied.
-/

namespace GrantConsole

/-- A part of a rule that has edits of its own. -/
inductive Part
  | header
  | filters
  | conditions
deriving DecidableEq

/-- One part of a rule, in a rule with nothing else in it. -/
def Rule.part (rule : Rule) : Part → Rule
  | .header => { rule with filters := [], conditions := [] }
  | .filters => { filters := rule.filters }
  | .conditions => { conditions := rule.conditions }

theorem Rule.filters_of_part {first second : Rule}
    (same : first.part .filters = second.part .filters) : first.filters = second.filters :=
  (congrArg Rule.filters same :)

theorem Rule.conditions_of_part {first second : Rule}
    (same : first.part .conditions = second.part .conditions) :
    first.conditions = second.conditions :=
  (congrArg Rule.conditions same :)

/-- A rule is no more than its parts. -/
theorem Rule.ext_part {first second : Rule} (same : ∀ part, first.part part = second.part part) :
    first = second := by
  have filters := Rule.filters_of_part (same .filters)
  have conditions := Rule.conditions_of_part (same .conditions)
  calc
    first = { first.part .header with
        filters := first.filters, conditions := first.conditions } := rfl
    _ = { second.part .header with
        filters := second.filters, conditions := second.conditions } := by
      rw [same .header, filters, conditions]
    _ = second := rfl

theorem HeaderEdit.part_apply (edit : HeaderEdit) {first second : Rule}
    (same : first.part .header = second.part .header) :
    (edit.apply first).part .header = (edit.apply second).part .header := by
  have blanked (rule : Rule) :
      (edit.apply rule).part .header = (edit.apply (rule.part .header)).part .header := by
    cases edit <;> rfl
  rw [blanked, same, ← blanked]

namespace RuleDraft

open GrantConsole.Api

/-- The part that an edit is of. -/
def Action.part? : Action → Option Part
  | .editHeader _ => some .header
  | .addFilter | .updateFilter .. | .removeFilter _ => some .filters
  | .addCondition | .updateCondition .. | .removeCondition _ => some .conditions
  | .beginSubmit | .finishSubmit _ => none

theorem Action.isEdit_of_part? {action : Action} {part : Part} (edits : action.part? = some part) :
    action.isEdit = true := by
  cases action with
  | beginSubmit => cases edits
  | finishSubmit result => cases edits
  | _ => rfl

theorem Action.exists_part? {action : Action} (isEdit : action.isEdit = true) :
    ∃ part, action.part? = some part := by
  cases action with
  | beginSubmit => cases isEdit
  | finishSubmit result => cases isEdit
  | _ => exact ⟨_, rfl⟩

/-- Three lists of edits, one for each part, make up a list in which each keeps its own order. -/
inductive Interleaves : List Action → List Action → List Action → List Action → Prop
  | nil : Interleaves [] [] [] []
  | header {action : Action} {headers filters conditions actions : List Action}
      (edits : action.part? = some .header)
      (later : Interleaves headers filters conditions actions) :
      Interleaves (action :: headers) filters conditions (action :: actions)
  | filter {action : Action} {headers filters conditions actions : List Action}
      (edits : action.part? = some .filters)
      (later : Interleaves headers filters conditions actions) :
      Interleaves headers (action :: filters) conditions (action :: actions)
  | condition {action : Action} {headers filters conditions actions : List Action}
      (edits : action.part? = some .conditions)
      (later : Interleaves headers filters conditions actions) :
      Interleaves headers filters (action :: conditions) (action :: actions)

/-- The edits of one part. -/
def editsOf (part : Part) (actions : List Action) : List Action :=
  actions.filter fun action => action.part? = some part

/-- What became of the edits of one part, the first one first. -/
def Run.eventsOf (r : Run) (part : Part) : List Event :=
  r.events.filter fun event => event.action.part? = some part

/-- The list of one part, of the three that are interleaved. -/
def streamOf (headers filters conditions : List Action) : Part → List Action
  | .header => headers
  | .filters => filters
  | .conditions => conditions

theorem Interleaves.editsOf {headers filters conditions actions : List Action}
    (interleaves : Interleaves headers filters conditions actions) (part : Part) :
    editsOf part actions = streamOf headers filters conditions part := by
  induction interleaves with
  | nil => cases part <;> rfl
  | header edits _ ih | filter edits _ ih | condition edits _ ih =>
      unfold RuleDraft.editsOf at ih ⊢
      rw [List.filter_cons, edits, ih]
      cases part <;> rfl

theorem Interleaves.isEdit {headers filters conditions actions : List Action}
    (interleaves : Interleaves headers filters conditions actions) :
    ∀ action ∈ actions, action.isEdit = true := by
  induction interleaves with
  | nil => exact fun _ member => absurd member List.not_mem_nil
  | header edits _ ih | filter edits _ ih | condition edits _ ih =>
      exact List.forall_mem_cons.mpr ⟨Action.isEdit_of_part? edits, ih⟩

/-! ## A run from its first action -/

theorem foldl_act (r : Run) (actions : List Action) :
    actions.foldl Run.act r =
      ⟨(r.draft.run actions).draft, r.events ++ (r.draft.run actions).events⟩ := by
  induction actions generalizing r with
  | nil => rw [run, List.foldl_nil, List.foldl_nil, List.append_nil]
  | cons action later ih =>
      rw [run, List.foldl_cons, List.foldl_cons, ih, ih (Run.act ⟨r.draft, []⟩ action)]
      simp only [Run.act, List.append_assoc, List.nil_append]

theorem run_cons (d : RuleDraft) (action : Action) (later : List Action) :
    d.run (action :: later) =
      ⟨((d.act action).1.run later).draft,
        ⟨action, (d.act action).2⟩ :: ((d.act action).1.run later).events⟩ := by
  rw [run, List.foldl_cons, foldl_act]
  rfl

theorem map_action_events (d : RuleDraft) (actions : List Action) :
    (d.run actions).events.map Event.action = actions := by
  induction actions generalizing d with
  | nil => rfl
  | cons action later ih => rw [run_cons, List.map_cons, ih]

/-! ## One edit -/

theorem RuleChange.part_of_ne {rule after : Rule} {action : Action}
    (change : RuleChange rule action after) {part : Part} (other : action.part? ≠ some part) :
    after.part part = rule.part part := by
  cases change with
  | editHeader edit =>
      cases part with
      | header => exact absurd rfl other
      | filters | conditions => cases edit <;> rfl
  | addFilter | updateFilter edit inRange | removeFilter inRange =>
      cases part with
      | filters => exact absurd rfl other
      | header | conditions => rfl
  | addCondition | updateCondition inRange readable | removeCondition inRange =>
      cases part with
      | conditions => exact absurd rfl other
      | header | filters => rfl

/-- An edit leaves the parts alone that it is not of. -/
theorem part_act_of_ne {action : Action} (isEdit : action.isEdit = true) {part : Part}
    (other : action.part? ≠ some part) (d : RuleDraft) :
    (d.act action).1.rule.part part = d.rule.part part := by
  rcases act_edit_cases isEdit d with ⟨rule, change, applied⟩ | ⟨outcome, _, refused⟩
  · rw [applied, touch_rule]
    exact change.part_of_ne other
  · rw [refused]

/-- What an edit does to its own part, and what it gives back, depends on that part alone. -/
theorem act_congr {action : Action} {part : Part} (edits : action.part? = some part)
    {first second : RuleDraft} (same : first.rule.part part = second.rule.part part) :
    (first.act action).2 = (second.act action).2 ∧
      (first.act action).1.rule.part part = (second.act action).1.rule.part part := by
  cases action with
  | editHeader edit =>
      cases edits
      refine ⟨rfl, ?_⟩
      simp only [act, editHeader, touch_rule]
      exact edit.part_apply same
  | addFilter =>
      cases edits
      have filters := Rule.filters_of_part same
      refine ⟨rfl, ?_⟩
      simp only [act, addFilter, withFilters, touch_rule, Rule.part, filters]
  | updateFilter index edit =>
      cases edits
      have filters := Rule.filters_of_part same
      simp only [act, updateFilter_eq, filters]
      split
      · exact ⟨rfl, by simp only [Prod.map, id, withFilters, touch_rule, Rule.part]⟩
      · exact ⟨rfl, same⟩
  | removeFilter index =>
      cases edits
      have filters := Rule.filters_of_part same
      simp only [act, removeFilter_eq, filters]
      split
      · exact ⟨rfl, by simp only [Prod.map, id, withFilters, touch_rule, Rule.part]⟩
      · exact ⟨rfl, same⟩
  | addCondition =>
      cases edits
      have conditions := Rule.conditions_of_part same
      refine ⟨rfl, ?_⟩
      simp only [act, addCondition, withConditions, touch_rule, Rule.part, conditions]
  | updateCondition index edit =>
      cases edits
      have conditions := Rule.conditions_of_part same
      simp only [act, updateCondition_eq, conditions]
      split
      · cases edit.apply? with
        | ok change =>
            exact ⟨rfl, by simp only [Prod.map, id, withConditions, touch_rule, Rule.part]⟩
        | error raw => exact ⟨rfl, same⟩
      · exact ⟨rfl, same⟩
  | removeCondition index =>
      cases edits
      have conditions := Rule.conditions_of_part same
      simp only [act, removeCondition_eq, conditions]
      split
      · exact ⟨rfl, by simp only [Prod.map, id, withConditions, touch_rule, Rule.part]⟩
      · exact ⟨rfl, same⟩
  | beginSubmit => cases edits
  | finishSubmit result => cases edits

/-! ## A run of edits -/

/-- A part goes through a run of edits as it goes through the edits of that part alone, also when
the draft is another one that has the same in that part. -/
theorem part_run {actions : List Action} (areEdits : ∀ action ∈ actions, action.isEdit = true)
    {part : Part} {first second : RuleDraft}
    (same : first.rule.part part = second.rule.part part) :
    (first.run actions).eventsOf part = (second.run (editsOf part actions)).events ∧
      (first.run actions).draft.rule.part part =
        (second.run (editsOf part actions)).draft.rule.part part := by
  induction actions generalizing first second with
  | nil => exact ⟨rfl, same⟩
  | cons action later ih =>
      obtain ⟨isEdit, laterEdits⟩ := List.forall_mem_cons.mp areEdits
      rw [run_cons]
      by_cases edits : action.part? = some part
      · obtain ⟨reply, after⟩ := act_congr edits same
        obtain ⟨events, draft⟩ := ih laterEdits after
        have kept : editsOf part (action :: later) = action :: editsOf part later :=
          List.filter_cons_of_pos (by simpa using edits)
        rw [kept, run_cons]
        refine ⟨?_, draft⟩
        rw [Run.eventsOf, List.filter_cons_of_pos (by simpa using edits), reply]
        exact congrArg _ events
      · have after := (part_act_of_ne isEdit edits first).trans same
        obtain ⟨events, draft⟩ := ih laterEdits after
        have dropped : editsOf part (action :: later) = editsOf part later :=
          List.filter_cons_of_neg (by simpa using edits)
        rw [dropped]
        refine ⟨?_, draft⟩
        rw [Run.eventsOf, List.filter_cons_of_neg (by simpa using edits)]
        exact events

theorem touch_phase_congr {first second : RuleDraft} (same : first.phase = second.phase) :
    first.touch.phase = second.touch.phase := by
  unfold touch
  rw [same]
  split
  · rfl
  · exact same

@[simp]
theorem touch_touch (d : RuleDraft) : d.touch.touch = d.touch := by
  by_cases idle : d.phase = .idle
  · exact touch_of_not_idle (by rw [touch_phase_of_idle idle]; decide)
  · rw [touch_of_not_idle idle, touch_of_not_idle idle]

/-- Only the first edit that is applied marks a draft as edited. -/
structure Marked (d : RuleDraft) (r : Run) : Prop where
  phase : r.draft.phase =
    if ∃ event ∈ r.events, event.reply = event.action.applied then d.touch.phase else d.phase
  lastError : r.draft.lastError = d.lastError

theorem Marked.act {d : RuleDraft} {r : Run} (marked : Marked d r) {action : Action}
    (isEdit : action.isEdit = true) : Marked d (r.act action) := by
  rcases act_edit_cases isEdit r.draft with ⟨rule, _, applied⟩ | ⟨outcome, isRefused, refused⟩
  · rw [Run.act, applied]
    refine ⟨?_, (touch_lastError _).trans marked.lastError⟩
    rw [if_pos ⟨⟨action, action.applied⟩, by simp, rfl⟩]
    have changed : ({ r.draft with rule } : RuleDraft).touch.phase = r.draft.touch.phase :=
      touch_phase_congr rfl
    refine changed.trans ?_
    have phase := marked.phase
    split at phase
    · exact (touch_phase_congr phase).trans (congrArg RuleDraft.phase d.touch_touch)
    · exact touch_phase_congr phase
  · have unlike : Reply.edited outcome ≠ action.applied := by
      intro same
      cases action <;> cases same <;> exact isRefused rfl
    rw [Run.act, refused]
    refine ⟨?_, marked.lastError⟩
    simpa [or_and_right, exists_or, unlike] using marked.phase

theorem marked_run (d : RuleDraft) {actions : List Action}
    (areEdits : ∀ action ∈ actions, action.isEdit = true) : Marked d (d.run actions) := by
  apply run_induction
  · exact ⟨by simp, rfl⟩
  · exact fun r action member marked => marked.act (areEdits action member)

/-! ## Two orders -/

variable {headers filters conditions first second : List Action}

/-- What becomes of the edits of one part does not depend on the edits of the others. -/
theorem eventsOf_run (interleaves : Interleaves headers filters conditions first) (d : RuleDraft)
    (part : Part) :
    (d.run first).eventsOf part = (d.run (streamOf headers filters conditions part)).events := by
  rw [← interleaves.editsOf part]
  exact (part_run interleaves.isEdit rfl).1

theorem part_rule_run (interleaves : Interleaves headers filters conditions first) (d : RuleDraft)
    (part : Part) :
    (d.run first).draft.rule.part part =
      (d.run (streamOf headers filters conditions part)).draft.rule.part part := by
  rw [← interleaves.editsOf part]
  exact (part_run interleaves.isEdit rfl).2

/-- Whatever becomes of some edit of a run becomes of some edit of one of the parts. -/
theorem exists_mem_events_iff (interleaves : Interleaves headers filters conditions first)
    (d : RuleDraft) (holds : Event → Prop) :
    (∃ event ∈ (d.run first).events, holds event) ↔
      ∃ part, ∃ event ∈ (d.run first).eventsOf part, holds event := by
  constructor
  · rintro ⟨event, member, meets⟩
    have made : event.action ∈ first := by
      rw [← map_action_events d first]
      exact List.mem_map_of_mem member
    obtain ⟨part, edits⟩ := Action.exists_part? (interleaves.isEdit _ made)
    exact ⟨part, event, List.mem_filter.mpr ⟨member, decide_eq_true edits⟩, meets⟩
  · rintro ⟨part, event, member, meets⟩
    exact ⟨event, (List.mem_filter.mp member).1, meets⟩

/-- Edits of the three parts come to the same draft in any order that keeps the order of the edits
of each part, whatever the draft is, and each of them gives back the same. -/
theorem run_interleaved (d : RuleDraft) (one : Interleaves headers filters conditions first)
    (other : Interleaves headers filters conditions second) :
    (d.run first).draft = (d.run second).draft ∧
      ∀ part, (d.run first).eventsOf part = (d.run second).eventsOf part := by
  have events (part : Part) : (d.run first).eventsOf part = (d.run second).eventsOf part :=
    (eventsOf_run one d part).trans (eventsOf_run other d part).symm
  have rule : (d.run first).draft.rule = (d.run second).draft.rule :=
    Rule.ext_part fun part => (part_rule_run one d part).trans (part_rule_run other d part).symm
  have marked := marked_run d one.isEdit
  have alike := marked_run d other.isEdit
  have phase : (d.run first).draft.phase = (d.run second).draft.phase := by
    have applied : (∃ event ∈ (d.run first).events, event.reply = event.action.applied) ↔
        ∃ event ∈ (d.run second).events, event.reply = event.action.applied := by
      rw [exists_mem_events_iff one, exists_mem_events_iff other]
      simp only [events]
    rw [marked.phase, alike.phase]
    simp only [applied]
  refine ⟨?_, events⟩
  calc
    (d.run first).draft =
        ⟨(d.run first).draft.rule, (d.run first).draft.phase, (d.run first).draft.lastError⟩ := rfl
    _ = ⟨(d.run second).draft.rule, (d.run second).draft.phase,
        (d.run second).draft.lastError⟩ := by
      rw [rule, phase, marked.lastError, alike.lastError]
    _ = (d.run second).draft := rfl

/-- A filter is edited before it is there and after, and a condition with an order that is none. -/
theorem run_interleaved_refused :
    ((new "g").run [.updateFilter 0 (.value "Coast"), .editHeader (.name "Cap"), .addFilter,
        .updateFilter 0 (.value "Coast"), .addCondition, .updateCondition 0 (.order "x")]).draft =
      ((new "g").run [.addCondition, .updateFilter 0 (.value "Coast"),
        .updateCondition 0 (.order "x"), .addFilter, .updateFilter 0 (.value "Coast"),
        .editHeader (.name "Cap")]).draft ∧
      ∀ part,
        ((new "g").run [.updateFilter 0 (.value "Coast"), .editHeader (.name "Cap"), .addFilter,
          .updateFilter 0 (.value "Coast"), .addCondition,
          .updateCondition 0 (.order "x")]).eventsOf part =
        ((new "g").run [.addCondition, .updateFilter 0 (.value "Coast"),
          .updateCondition 0 (.order "x"), .addFilter, .updateFilter 0 (.value "Coast"),
          .editHeader (.name "Cap")]).eventsOf part := by
  apply run_interleaved (new "g")
  · exact .filter rfl (.header rfl (.filter rfl (.filter rfl (.condition rfl
      (.condition rfl .nil)))))
  · exact .condition rfl (.filter rfl (.condition rfl (.filter rfl (.filter rfl
      (.header rfl .nil)))))

end RuleDraft

end GrantConsole
