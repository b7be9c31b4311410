import GrantConsole.Proofs.Draft.Run

/-!
# One submit at a time

However a draft is edited and submitted, there is at most one submit in flight: the submits that
were started and those that were settled differ by the one under way.
-/

namespace GrantConsole.RuleDraft

open GrantConsole.Api

/-- The event is the start of a submit. -/
def Event.isStart (event : Event) : Bool :=
  match event.reply with
  | .begun (some _) => true
  | _ => false

/-- The event is the end of a submit. -/
def Event.isEnd (event : Event) : Bool :=
  match event.reply with
  | .finished outcome => outcome != .ignored
  | _ => false

/-- How many submits were started. -/
def Run.starts (r : Run) : Nat :=
  r.events.countP Event.isStart

/-- How many submits were settled. -/
def Run.ends (r : Run) : Nat :=
  r.events.countP Event.isEnd

/-! ## What an action does to the submit under way -/

theorem isSubmitting_touch (d : RuleDraft) : d.touch.isSubmitting = d.isSubmitting := by
  rw [Bool.eq_iff_iff, isSubmitting_iff, isSubmitting_iff]
  simp

theorem isSubmitting_act_edit {action : Action} (isEdit : action.isEdit = true) (d : RuleDraft) :
    (d.act action).1.isSubmitting = d.isSubmitting := by
  rcases act_edit_cases isEdit d with ⟨rule, -, applied⟩ | ⟨outcome, -, refused⟩
  · rw [applied]
    exact isSubmitting_touch { d with rule }
  · rw [refused]

theorem isStart_of_isEdit {action : Action} (isEdit : action.isEdit = true) (d : RuleDraft) :
    Event.isStart ⟨action, (d.act action).2⟩ = false := by
  cases action <;> first | rfl | cases isEdit

theorem isEnd_of_isEdit {action : Action} (isEdit : action.isEdit = true) (d : RuleDraft) :
    Event.isEnd ⟨action, (d.act action).2⟩ = false := by
  cases action <;> first | rfl | cases isEdit

/-- An action starts a submit only where none is under way, and ends only the one that is. -/
theorem balance_act (d : RuleDraft) (action : Action) :
    d.isSubmitting.toNat + (Event.isStart ⟨action, (d.act action).2⟩).toNat =
      (d.act action).1.isSubmitting.toNat + (Event.isEnd ⟨action, (d.act action).2⟩).toNat := by
  by_cases isEdit : action.isEdit = true
  · rw [isStart_of_isEdit isEdit, isEnd_of_isEdit isEdit, isSubmitting_act_edit isEdit]
  · cases action with
    | beginSubmit =>
        cases busy : d.isSubmitting with
        | false =>
            change _ + (Event.isStart ⟨_, .begun d.beginSubmit.2⟩).toNat =
              d.beginSubmit.1.isSubmitting.toNat + _
            rw [beginSubmit_of_not_isSubmitting busy]
            rfl
        | true =>
            change _ + (Event.isStart ⟨_, .begun d.beginSubmit.2⟩).toNat =
              d.beginSubmit.1.isSubmitting.toNat + _
            rw [beginSubmit_of_isSubmitting busy, busy]
            rfl
    | finishSubmit result =>
        change _ + 0 = (d.finishSubmit result).1.isSubmitting.toNat +
          (Event.isEnd ⟨_, .finished (d.finishSubmit result).2⟩).toNat
        cases busy : d.isSubmitting with
        | false =>
            rw [finishSubmit_of_not_isSubmitting busy, busy]
            rfl
        | true =>
            cases result with
            | error failure =>
                rw [finishSubmit_error busy]
                rfl
            | ok rule =>
                rcases finishSubmit_ok busy rule with fresh | fresh <;> rw [fresh] <;> rfl
    | _ => exact absurd rfl isEdit

theorem countP_concat {α : Type} (p : α → Bool) (events : List α) (event : α) :
    (events ++ [event]).countP p = events.countP p + (p event).toNat := by
  rw [List.countP_append, List.countP_singleton]
  cases p event <;> rfl

/-- The submits started and those settled differ by the one under way. -/
theorem starts_eq_ends_add (d : RuleDraft) (idle : d.isSubmitting = false)
    (actions : List Action) :
    (d.run actions).starts =
      (d.run actions).ends + (d.run actions).draft.isSubmitting.toNat := by
  apply run_induction
    (motive := fun r => r.starts = r.ends + r.draft.isSubmitting.toNat)
  · rw [idle]
    rfl
  · intro r action _ balance
    have starts : (r.act action).starts =
        r.starts + (Event.isStart ⟨action, (r.draft.act action).2⟩).toNat :=
      countP_concat Event.isStart r.events _
    have ends : (r.act action).ends =
        r.ends + (Event.isEnd ⟨action, (r.draft.act action).2⟩).toNat :=
      countP_concat Event.isEnd r.events _
    have step := balance_act r.draft action
    change _ = _ + (r.draft.act action).1.isSubmitting.toNat
    omega

/-! ## Drafts in order -/

/-- The submit under way is of the rule at hand, and a failure is told of an edited rule only. -/
structure InOrder (d : RuleDraft) : Prop where
  mode : ∀ mode, d.phase = .submitting mode → mode = d.submitMode
  told : d.lastError ≠ none → d.phase = .editing

theorem inOrder_of_idle {d : RuleDraft} (idle : d.phase = .idle) (quiet : d.lastError = none) :
    InOrder d :=
  ⟨fun _ busy => Phase.noConfusion (idle.symm.trans busy), fun told => absurd quiet told⟩

theorem InOrder.act_edit {d : RuleDraft} (inOrder : InOrder d) {action : Action}
    (isEdit : action.isEdit = true) : InOrder (d.act action).1 := by
  rcases act_edit_cases isEdit d with ⟨rule, change, applied⟩ | ⟨outcome, -, refused⟩
  · rw [applied]
    constructor
    · intro mode busy
      have before := inOrder.mode mode ((touch_phase_eq_submitting { d with rule } mode).mp busy)
      rw [before]
      unfold submitMode
      rw [touch_rule, change.sameRecord.id]
    · intro told
      rw [touch_lastError] at told
      have editing : { d with rule }.phase = .editing := inOrder.told told
      rw [touch_of_not_idle (by rw [editing]; exact Phase.noConfusion)]
      exact editing
  · rw [refused]
    exact inOrder

theorem InOrder.act {d : RuleDraft} (inOrder : InOrder d) (action : Action) :
    InOrder (d.act action).1 := by
  by_cases isEdit : action.isEdit = true
  · exact inOrder.act_edit isEdit
  · cases action with
    | beginSubmit =>
        change InOrder d.beginSubmit.1
        cases busy : d.isSubmitting with
        | false =>
            rw [beginSubmit_of_not_isSubmitting busy]
            exact ⟨fun mode same => (Phase.submitting.inj same).symm, fun told => absurd rfl told⟩
        | true =>
            rw [beginSubmit_of_isSubmitting busy]
            exact inOrder
    | finishSubmit result =>
        change InOrder (d.finishSubmit result).1
        cases busy : d.isSubmitting with
        | false =>
            rw [finishSubmit_of_not_isSubmitting busy]
            exact inOrder
        | true =>
            cases result with
            | error failure =>
                rw [finishSubmit_error busy]
                exact ⟨fun mode other => Phase.noConfusion other, fun _ => rfl⟩
            | ok rule =>
                rcases finishSubmit_ok busy rule with fresh | fresh <;> rw [fresh] <;>
                  exact inOrder_of_idle rfl rfl
    | _ => exact absurd rfl isEdit

/-! ## Runs -/

/-- What holds of a run: its starts and ends alternate, and its draft is in order. -/
structure SingleFlight (r : Run) : Prop where
  accepted : r.draft.beginSubmit.2.isSome = true ↔ ∀ mode, r.draft.phase ≠ .submitting mode
  balance : r.starts = r.ends ∨ r.starts = r.ends + 1
  busy : r.starts = r.ends + 1 ↔ r.draft.isSubmitting = true
  update : ∀ mode id, r.draft.phase = .submitting mode → r.draft.rule.id = some id →
    mode = .update id
  create : ∀ mode, r.draft.phase = .submitting mode → r.draft.rule.id = none → mode = .create
  snapshot : ∀ s, r.draft.beginSubmit.2 = some s →
    s.rule = r.draft.rule ∧ r.draft.beginSubmit.1.phase = .submitting s.mode
  told : r.draft.lastError ≠ none → r.draft.phase = .editing
  refused : r.draft.beginSubmit.2 = none → r.draft.beginSubmit.1 = r.draft
  ignored : ∀ result, (r.draft.finishSubmit result).2 = .ignored →
    (r.draft.finishSubmit result).1 = r.draft

theorem beginSubmit_isSome_iff (d : RuleDraft) :
    d.beginSubmit.2.isSome = true ↔ d.isSubmitting = false := by
  cases busy : d.isSubmitting with
  | false => simp [beginSubmit_of_not_isSubmitting busy]
  | true => simp [beginSubmit_of_isSubmitting busy]

theorem beginSubmit_snapshot {d : RuleDraft} {s : Submission} (begun : d.beginSubmit.2 = some s) :
    s.rule = d.rule ∧ d.beginSubmit.1.phase = .submitting s.mode := by
  cases busy : d.isSubmitting with
  | false =>
      rw [beginSubmit_of_not_isSubmitting busy] at begun ⊢
      obtain rfl := Option.some.inj begun
      exact ⟨rfl, rfl⟩
  | true =>
      rw [beginSubmit_of_isSubmitting busy] at begun
      cases begun

theorem beginSubmit_of_refused {d : RuleDraft} (refused : d.beginSubmit.2 = none) :
    d.beginSubmit.1 = d := by
  cases busy : d.isSubmitting with
  | false =>
      rw [beginSubmit_of_not_isSubmitting busy] at refused
      cases refused
  | true => rw [beginSubmit_of_isSubmitting busy]

theorem finishSubmit_of_ignored {d : RuleDraft} {result : Except Failure Rule}
    (ignored : (d.finishSubmit result).2 = .ignored) : (d.finishSubmit result).1 = d := by
  cases busy : d.isSubmitting with
  | false => rw [finishSubmit_of_not_isSubmitting busy]
  | true =>
      cases result with
      | error failure =>
          rw [finishSubmit_error busy] at ignored
          cases ignored
      | ok rule =>
          rcases finishSubmit_ok busy rule with fresh | fresh <;> rw [fresh] at ignored <;>
            cases ignored

theorem submitMode_of_some {d : RuleDraft} {id : String} (known : d.rule.id = some id) :
    d.submitMode = .update id := by
  unfold submitMode
  rw [known]

theorem submitMode_of_none {d : RuleDraft} (unknown : d.rule.id = none) :
    d.submitMode = .create := by
  unfold submitMode
  rw [unknown]

theorem singleFlight_of_idle {d : RuleDraft} (idle : d.phase = .idle) (quiet : d.lastError = none)
    (actions : List Action) : SingleFlight (d.run actions) := by
  have inOrder : InOrder (d.run actions).draft :=
    run_induction (motive := fun r => InOrder r.draft) (inOrder_of_idle idle quiet)
      fun r action _ before => before.act action
  have free : d.isSubmitting = false := by
    unfold isSubmitting
    rw [idle]
  have balance := starts_eq_ends_add d free actions
  have flag := Bool.toNat_le (d.run actions).draft.isSubmitting
  refine
    { accepted := ?_
      balance := by omega
      busy := ?_
      update := fun mode id busy known => (inOrder.mode mode busy).trans (submitMode_of_some known)
      create := fun mode busy unknown => (inOrder.mode mode busy).trans (submitMode_of_none unknown)
      snapshot := fun s begun => beginSubmit_snapshot begun
      told := inOrder.told
      refused := beginSubmit_of_refused
      ignored := fun result => finishSubmit_of_ignored }
  · rw [beginSubmit_isSome_iff, ← Bool.not_eq_true, isSubmitting_iff, not_exists]
  · rw [← Bool.toNat_eq_one]
    omega

/-- Whatever is done with a loaded or a blank draft, its submits go one at a time. -/
theorem singleFlight_run (actions : List Action) :
    (∀ rule, SingleFlight ((load rule).run actions)) ∧
      ∀ grant, SingleFlight ((new grant).run actions) :=
  ⟨fun _ => singleFlight_of_idle rfl rfl actions, fun _ => singleFlight_of_idle rfl rfl actions⟩

end GrantConsole.RuleDraft
