import GrantConsole.Proofs.Draft.Flight

/-!
# The rule that a draft is of

A draft that was loaded is submitted under the id of its rule. When a change was taken in, the draft
becomes the rule that came back, whatever id that has. So the submits of a draft keep their target
as long as the rules that come back keep the id, and no longer: a rule that comes back without an id
would be made anew by the next submit.
-/

namespace GrantConsole.RuleDraft

open GrantConsole.Api

/-- A rule came back for a change and was taken in. -/
def Event.changedTo? (event : Event) : Option Rule :=
  match event.action, event.reply with
  | .finishSubmit (.ok rule), .finished .updated => some rule
  | _, _ => none

/-- The rules that came back for changes have an id. -/
def Echoes (id : String) (events : List Event) : Prop :=
  ∀ event ∈ events, ∀ rule ∈ event.changedTo?, rule.id = some id

/-- What was taken for a submit, as long as only rules with an id came back, goes under that id. -/
def Targets (id : String) (events : List Event) : Prop :=
  ∀ before s after, events = before ++ ⟨.beginSubmit, .begun (some s)⟩ :: after →
    Echoes id before → s.mode = .update id

/-- The draft is of the rule with an id, and so is the submit under way. -/
structure Aimed (id : String) (d : RuleDraft) : Prop where
  known : d.rule.id = some id
  mode : ∀ mode, d.phase = .submitting mode → mode = .update id

variable {id : String} {d : RuleDraft}

theorem aimed_load {rule : Rule} (known : rule.id = some id) : Aimed id (load rule) :=
  ⟨known, nofun⟩

theorem Aimed.beginSubmit (aimed : Aimed id d) : Aimed id d.beginSubmit.1 := by
  cases busy : d.isSubmitting with
  | true =>
    rw [beginSubmit_of_isSubmitting busy]
    exact aimed
  | false =>
    rw [beginSubmit_of_not_isSubmitting busy]
    refine ⟨aimed.known, fun mode same => ?_⟩
    rw [← Phase.submitting.inj same]
    exact submitMode_of_some aimed.known

/-- A snapshot of an aimed draft goes under its id. -/
theorem Aimed.snapshot (aimed : Aimed id d) {s : Submission} (begun : d.beginSubmit.2 = some s) :
    s.mode = .update id :=
  aimed.beginSubmit.mode s.mode (beginSubmit_snapshot begun).2

theorem Aimed.finishSubmit_error (aimed : Aimed id d) (failure : Failure) :
    Aimed id (d.finishSubmit (.error failure)).1 := by
  cases busy : d.isSubmitting with
  | true =>
    rw [RuleDraft.finishSubmit_error busy]
    exact ⟨aimed.known, nofun⟩
  | false =>
    rw [finishSubmit_of_not_isSubmitting busy]
    exact aimed

/-- What comes back for an aimed draft under way is taken in as a change. -/
theorem Aimed.finishSubmit_ok (aimed : Aimed id d) (busy : d.isSubmitting = true) (rule : Rule) :
    d.finishSubmit (.ok rule) = (load rule, .updated) := by
  obtain ⟨mode, phase⟩ := d.isSubmitting_iff.mp busy
  obtain rfl := aimed.mode mode phase
  unfold finishSubmit
  rw [phase]

/-- An aimed draft takes in the answer to its submit. -/
theorem Aimed.finishSubmit (aimed : Aimed id d) {result : Except Failure Rule}
    (echo : ∀ rule, result = .ok rule → (d.finishSubmit result).2 = .updated → rule.id = some id) :
    Aimed id (d.finishSubmit result).1 := by
  cases result with
  | error failure => exact aimed.finishSubmit_error failure
  | ok rule =>
    cases busy : d.isSubmitting with
    | true =>
      have taken := aimed.finishSubmit_ok busy rule
      rw [taken] at echo ⊢
      exact aimed_load (echo rule rfl rfl)
    | false =>
      rw [finishSubmit_of_not_isSubmitting busy]
      exact aimed

theorem Aimed.act_edit (aimed : Aimed id d) {action : Action} (isEdit : action.isEdit = true) :
    Aimed id (d.act action).1 := by
  rcases act_edit_cases isEdit d with ⟨rule, change, applied⟩ | ⟨outcome, -, refused⟩
  · rw [applied]
    refine ⟨?_, fun mode busy => ?_⟩
    · rw [touch_rule]
      exact change.sameRecord.id.trans aimed.known
    · exact aimed.mode mode ((touch_phase_eq_submitting { d with rule } mode).mp busy)
  · rw [refused]
    exact aimed

theorem Aimed.act (aimed : Aimed id d) (action : Action)
    (echo : ∀ rule ∈ Event.changedTo? ⟨action, (d.act action).2⟩, rule.id = some id) :
    Aimed id (d.act action).1 := by
  by_cases isEdit : action.isEdit = true
  · exact aimed.act_edit isEdit
  · cases action with
    | beginSubmit => exact aimed.beginSubmit
    | finishSubmit result =>
      refine aimed.finishSubmit fun rule came updated => echo rule ?_
      subst came
      show Event.changedTo? ⟨_, .finished (d.finishSubmit (.ok rule)).2⟩ = some rule
      rw [updated]
      rfl
    | _ => exact absurd rfl isEdit

/-- An event is added to those that went before; what was taken for it goes under the id too. -/
theorem Targets.concat {events : List Event} {event : Event} (targets : Targets id events)
    (last : ∀ s, event = ⟨.beginSubmit, .begun (some s)⟩ → Echoes id events → s.mode = .update id) :
    Targets id (events ++ [event]) := by
  intro before s after split echoes
  rcases List.eq_nil_or_concat after with rfl | ⟨after, final, rfl⟩
  · obtain ⟨rfl, same⟩ := List.append_inj' split rfl
    exact last s (List.singleton_inj.mp same) echoes
  · rw [List.concat_eq_append, ← List.cons_append, ← List.append_assoc] at split
    exact targets before s after (List.append_inj' split rfl).1 echoes

/-- The submits of a rule that was loaded keep its id as their target. -/
theorem targets_run {rule : Rule} (known : rule.id = some id) (actions : List Action) :
    Targets id ((load rule).run actions).events := by
  have kept : Targets id ((load rule).run actions).events ∧
      (Echoes id ((load rule).run actions).events → Aimed id ((load rule).run actions).draft) := by
    refine run_induction
      (motive := fun r => Targets id r.events ∧ (Echoes id r.events → Aimed id r.draft))
      ⟨fun before s after split => ?_, fun _ => aimed_load known⟩ ?_
    · cases before <;> cases split
    · rintro r action - ⟨targets, aimed⟩
      refine ⟨targets.concat fun s same echoes => ?_, fun echoes => ?_⟩
      · obtain ⟨rfl, begun⟩ := Event.mk.inj same
        exact (aimed echoes).snapshot (Reply.begun.inj begun)
      · refine (aimed fun event mem => echoes event (List.mem_append_left _ mem)).act action ?_
        exact echoes _ (List.mem_append_right _ List.mem_cons_self)
  exact kept.1

/-- Not all rules that were loaded keep their target: the second submit of this run makes a rule. -/
theorem not_targets_of_any_answer :
    ¬ ∀ (rule : Rule) (id : String), rule.id = some id → ∀ (actions : List Action) (s : Submission),
      ⟨.beginSubmit, .begun (some s)⟩ ∈ ((load rule).run actions).events → s.mode = .update id := by
  intro all
  let rule : Rule := { id := some "r", grant := "g" }
  let answer : Rule := { grant := "g" }
  have mode := all rule "r" rfl [.beginSubmit, .finishSubmit (.ok answer), .beginSubmit]
    ⟨.create, answer⟩ (.tail _ (.tail _ (.head _)))
  cases mode

end GrantConsole.RuleDraft
