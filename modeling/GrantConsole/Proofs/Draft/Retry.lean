import GrantConsole.Proofs.Draft.Clauses
import GrantConsole.Proofs.Draft.Flight
import GrantConsole.Proofs.Draft.Interleaved

/-!
# Submits that fail

An edit depends on the rule of the draft and not on how its submits stand. So a draft whose submits
fail, whatever is edited before, meanwhile and after, has the rule that the edits alone come to, and
the next submit sends that rule to where the one that failed went.
-/

namespace GrantConsole.RuleDraft

open GrantConsole.Api

/-- What an edit does to the rule, and what it gives back, depends on the rule alone. -/
theorem act_edit_congr {action : Action} (isEdit : action.isEdit = true) {first second : RuleDraft}
    (same : first.rule = second.rule) :
    (first.act action).2 = (second.act action).2 ∧
      (first.act action).1.rule = (second.act action).1.rule := by
  obtain ⟨part, edits⟩ := Action.exists_part? isEdit
  have own := act_congr edits (congrArg (Rule.part · part) same)
  refine ⟨own.1, Rule.ext_part fun other => ?_⟩
  by_cases here : action.part? = some other
  · exact (act_congr here (congrArg (Rule.part · other) same)).2
  · rw [part_act_of_ne isEdit here, part_act_of_ne isEdit here, same]

/-- A run in which no submit succeeds has the rule that its edits alone come to, and the edits give
back the same, also on another draft with the same rule. -/
theorem edits_run {actions : List Action} (own : ∀ action ∈ actions, action.takesRule = false)
    {first second : RuleDraft} (same : first.rule = second.rule) :
    (first.run actions).draft.rule = (second.run (actions.filter Action.isEdit)).draft.rule ∧
      (first.run actions).events.filter (fun event => event.action.isEdit) =
        (second.run (actions.filter Action.isEdit)).events := by
  induction actions generalizing first second with
  | nil => exact ⟨same, rfl⟩
  | cons action later ih =>
      obtain ⟨ownFirst, ownLater⟩ := List.forall_mem_cons.mp own
      cases isEdit : action.isEdit with
      | true =>
          obtain ⟨reply, after⟩ := act_edit_congr isEdit same
          obtain ⟨rule, events⟩ := ih ownLater after
          rw [List.filter_cons_of_pos isEdit, run_cons, run_cons,
            List.filter_cons_of_pos (by exact isEdit), reply]
          exact ⟨rule, congrArg _ events⟩
      | false =>
          have after := (act_rule_of_submit isEdit ownFirst first).trans same
          obtain ⟨rule, events⟩ := ih ownLater after
          rw [List.filter_cons_of_neg (by simp [isEdit]), run_cons,
            List.filter_cons_of_neg (by simp [isEdit])]
          exact ⟨rule, events⟩

variable {edits : List Action}

theorem Action.takesRule_of_isEdit {action : Action} (isEdit : action.isEdit = true) :
    action.takesRule = false := by
  cases action with
  | finishSubmit result => cases isEdit
  | _ => rfl

/-- Edits come to the same rule, and give back the same, on any two drafts with the same rule. -/
theorem edits_congr (areEdits : ∀ action ∈ edits, action.isEdit = true) {first second : RuleDraft}
    (same : first.rule = second.rule) :
    (first.run edits).draft.rule = (second.run edits).draft.rule ∧
      (first.run edits).events = (second.run edits).events := by
  have ofEdits : ∀ event ∈ (first.run edits).events, event.action.isEdit = true := by
    intro event member
    apply areEdits
    rw [← map_action_events first edits]
    exact List.mem_map_of_mem member
  obtain ⟨rule, events⟩ :=
    edits_run (fun action member => Action.takesRule_of_isEdit (areEdits action member)) same
  rw [List.filter_eq_self.mpr areEdits] at rule events
  rw [List.filter_eq_self.mpr ofEdits] at events
  exact ⟨rule, events⟩

/-- The submit that is under way stays so under edits. -/
theorem isSubmitting_run_edits (d : RuleDraft)
    (areEdits : ∀ action ∈ edits, action.isEdit = true) :
    (d.run edits).draft.isSubmitting = d.isSubmitting := by
  apply run_induction (motive := fun r => r.draft.isSubmitting = d.isSubmitting)
  · rfl
  · intro r action member kept
    exact (isSubmitting_act_edit (areEdits action member) r.draft).trans kept

/-- Edits leave the target of the next submit as it is. -/
theorem submitMode_run_edits (d : RuleDraft) (areEdits : ∀ action ∈ edits, action.isEdit = true) :
    (d.run edits).draft.submitMode = d.submitMode := by
  have record := sameRecord_run d fun action member =>
    Action.takesRule_of_isEdit (areEdits action member)
  unfold submitMode
  rw [record.id]

/-- A submit that is begun finds the draft free and takes it as it is. -/
theorem beginSubmit_eq_some {d : RuleDraft} {s : Submission} (begun : d.beginSubmit.2 = some s) :
    d.isSubmitting = false ∧ d.beginSubmit.1 = d.underWay ∧ s = ⟨d.submitMode, d.rule⟩ := by
  have free : d.isSubmitting = false :=
    d.beginSubmit_isSome_iff.mp (Option.isSome_of_eq_some begun)
  rw [beginSubmit_of_not_isSubmitting free] at begun ⊢
  exact ⟨free, rfl, (Option.some.inj begun).symm⟩

/-- When a submit fails, the draft has the rule that the edits made meanwhile would have come to
without the submit, each edit has given back what it would have, and the failure is told; the next
submit sends that rule to where the failed one went. -/
theorem failed_submit_keeps_edits {d : RuleDraft} {s : Submission}
    (begun : d.beginSubmit.2 = some s) (areEdits : ∀ action ∈ edits, action.isEdit = true)
    (failure : Failure) :
    let meanwhile := d.beginSubmit.1.run edits
    let alone := d.run edits
    let failed := meanwhile.draft.finishSubmit (.error failure)
    meanwhile.events = alone.events ∧
      failed = (⟨alone.draft.rule, .editing, some failure⟩, .failed failure) ∧
      failed.1.beginSubmit =
        (⟨alone.draft.rule, .submitting s.mode, none⟩, some ⟨s.mode, alone.draft.rule⟩) := by
  intro meanwhile alone failed
  obtain ⟨-, underWay, rfl⟩ := beginSubmit_eq_some begun
  have sameRule : d.beginSubmit.1.rule = d.rule := (congrArg RuleDraft.rule underWay :)
  obtain ⟨rule, events⟩ := edits_congr areEdits sameRule
  have busy : meanwhile.draft.isSubmitting = true := by
    rw [isSubmitting_run_edits _ areEdits, underWay]
    rfl
  have settled : failed = (⟨alone.draft.rule, .editing, some failure⟩, .failed failure) := by
    rw [← rule]
    exact finishSubmit_error busy failure
  have mode : alone.draft.submitMode = d.submitMode := submitMode_run_edits d areEdits
  refine ⟨events, settled, ?_⟩
  rw [settled, beginSubmit_of_not_isSubmitting rfl, ← mode]
  rfl

/-- A change of a rule fails while a filter is added and filled in. -/
theorem failed_submit_keeps_edits_refused :
    let d := load { id := some "r-1", grant := "g" }
    let edits : List Action :=
      [.addFilter, .updateFilter 0 (.value "5"), .updateCondition 0 (.field "date"),
        .editHeader (.name "Cap")]
    let rule : Rule :=
      { id := some "r-1", grant := "g", name := "Cap", filters := [{ value := "5" }] }
    let failure : Failure := .refused 422 (some "bad field")
    let failed := (d.beginSubmit.1.run edits).draft.finishSubmit (.error failure)
    d.beginSubmit.2 = some ⟨.update "r-1", d.rule⟩ ∧
      (∀ action ∈ edits, action.isEdit = true) ∧
      failed = (⟨rule, .editing, some failure⟩, .failed failure) ∧
      failure.message = "request failed (422): bad field" ∧
      failed.1.beginSubmit.2 = some ⟨.update "r-1", rule⟩ := by
  intro d edits rule failure failed
  have begun : d.beginSubmit.2 = some ⟨.update "r-1", d.rule⟩ := rfl
  have areEdits : ∀ action ∈ edits, action.isEdit = true := by decide
  obtain ⟨-, settled, again⟩ := failed_submit_keeps_edits begun areEdits failure
  exact ⟨begun, areEdits, settled, by decide, congrArg Prod.snd again⟩

end GrantConsole.RuleDraft
