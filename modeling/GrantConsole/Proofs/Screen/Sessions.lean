import GrantConsole.Proofs.Draft.Run
import GrantConsole.Proofs.Screen.Turns

/-!
# What answers do to the session

An answer that is taken in leaves the session as it is, but for the grants page: there a grant that
was just made is selected. After a failure a screen makes no call and goes nowhere: it may tell the
failure, and that is all.
-/

namespace GrantConsole.Screen

open GrantConsole.Api

variable {S C R α : Type} {session : Session}

/-- A turn takes in what came of a call: it keeps the session, and a failure is told at most. -/
structure Turn.TakesIn (t : Turn S C) (session : Session) (result : Except Failure α) : Prop where
  session : t.session = session
  failed : ∀ e, result = .error e → ∀ command ∈ t.commands, ∃ kind text, command = .toast kind text

namespace Turn.TakesIn

variable {state : S} {result : Except Failure α}

theorem silent : (⟨state, session, []⟩ : Turn S C).TakesIn session result :=
  ⟨rfl, fun _ _ => nofun⟩

theorem tells {kind : ToastKind} {text : String} :
    (⟨state, session, [.toast kind text]⟩ : Turn S C).TakesIn session result :=
  ⟨rfl, fun _ _ _ mem => ⟨_, _, List.mem_singleton.mp mem⟩⟩

/-- A turn after a success may do anything but to the session. -/
theorem succeeds {t : Turn S C} {a : α} (kept : t.session = session) : t.TakesIn session (.ok a) :=
  ⟨kept, nofun⟩

theorem map {T D : Type} {t : Turn S C} (takesIn : t.TakesIn session result) (f : S → T)
    (g : C → D) : (t.map f g).TakesIn session result where
  session := takesIn.session
  failed e failed command mem := by
    obtain ⟨told, here, rfl⟩ := List.mem_map.mp mem
    obtain ⟨kind, text, rfl⟩ := takesIn.failed e failed told here
    exact ⟨kind, text, rfl⟩

end Turn.TakesIn

/-! ## Rows -/

namespace Rows

variable {rows : Rows S R} {state : Option S} [Resource R]

theorem settleSave_takesIn {reload : S → Session → Turn S C}
    (reloads : ∀ s, (reload s session).session = session) {text : String}
    {result : Except Failure R} :
    (rows.settleSave reload text state session result).TakesIn session result := by
  cases state with
  | none => exact .silent
  | some s =>
    cases result with
    | ok saved => exact .succeeds (reloads _)
    | error e => exact .tells

theorem settleDelete_takesIn {id text : String} {result : Except Failure Unit} :
    (rows.settleDelete (C := C) id text state session result).TakesIn session result := by
  cases state with
  | none => exact .silent
  | some s => cases result <;> exact .tells

end Rows

/-! ## Screens -/

namespace SignIn

theorem settle_takesIn (state : Option SignIn) (result : Except Failure Token) :
    (settle state session result).TakesIn session result := by
  cases result with
  | ok token => exact .succeeds rfl
  | error e => exact .tells

end SignIn

namespace Grants

theorem settle_takesIn (state : Option Grants) (c : Call) (result : Except Failure c.Answer) :
    ∃ after, SelectsAtMost session after ∧ (∀ e, result = .error e → after = session) ∧
      (settle state session c result).TakesIn after result := by
  cases c with
  | load => exact ⟨session, .inl rfl, fun _ _ => rfl, .silent⟩
  | create grant =>
    refine ⟨selectMade session result, ?_, ?_, Rows.settleSave_takesIn fun _ => rfl⟩
    · fun_cases selectMade session result
      · exact .inr ⟨_, _, rfl⟩
      · exact .inl rfl
      · exact .inl rfl
    · rintro e rfl
      rfl
  | replace id grant =>
    exact ⟨session, .inl rfl, fun _ _ => rfl, Rows.settleSave_takesIn fun _ => rfl⟩
  | delete id => exact ⟨session, .inl rfl, fun _ _ => rfl, Rows.settleDelete_takesIn⟩

end Grants

namespace Overview

theorem reload_session (s : Overview) : (s.reload session).session = session := by
  unfold reload
  split <;> rfl

theorem settle_takesIn (state : Option Overview) (result : Except Failure Projection) :
    (settle state session result).TakesIn session result := by
  cases result with
  | ok projection => exact .silent
  | error e => exact .tells

end Overview

namespace Expenses

theorem reload_session (s : Expenses) : (s.reload session).session = session := by
  unfold reload
  split <;> rfl

theorem settle_takesIn (state : Option Expenses) (c : Call) (result : Except Failure c.Answer) :
    (settle state session c result).TakesIn session result := by
  cases c with
  | load _ => exact .silent
  | categories => cases result <;> exact .silent
  | create _ => exact Rows.settleSave_takesIn reload_session
  | delete _ => exact Rows.settleDelete_takesIn

end Expenses

namespace Approvals

theorem settle_takesIn (state : Option Approvals) (c : Call) (result : Except Failure c.Answer) :
    (settle state session c result).TakesIn session result := by
  cases c with
  | loadPending | load => exact .silent
  | decide _ _ _ => cases result <;> exact .tells
  | delete _ => exact Rows.settleDelete_takesIn

end Approvals

namespace Categories

theorem settle_takesIn (state : Option Categories) (c : Call) (result : Except Failure c.Answer) :
    (settle state session c result).TakesIn session result := by
  cases c with
  | load => exact .silent
  | create _ => exact Rows.settleSave_takesIn fun _ => rfl
  | delete _ => exact Rows.settleDelete_takesIn

end Categories

namespace Roles

theorem reload_session (s : Roles) : (s.reload session).session = session := by
  unfold reload
  split <;> rfl

theorem settle_takesIn (state : Option Roles) (c : Call) (result : Except Failure c.Answer) :
    (settle state session c result).TakesIn session result := by
  cases c with
  | load _ => exact .silent
  | users => cases result <;> exact .silent
  | assign _ => exact Rows.settleSave_takesIn reload_session
  | delete _ => exact Rows.settleDelete_takesIn

end Roles

namespace Users

theorem settle_takesIn (state : Option Users) (c : Call) (result : Except Failure c.Answer) :
    (settle state session c result).TakesIn session result := by
  cases c with
  | load => exact .silent
  | fetch _ =>
    cases result with
    | ok user => exact .silent
    | error e => exact .tells
  | create _ | update _ _ => exact Rows.settleSave_takesIn fun _ => rfl
  | delete _ => exact Rows.settleDelete_takesIn

end Users

namespace Rules

theorem reload_session (s : Rules) : (s.reload session).session = session := by
  unfold reload
  split <;> rfl

theorem settle_takesIn (state : Option Rules) (c : Call) (result : Except Failure c.Answer) :
    (settle state session c result).TakesIn session result := by
  cases c with
  | load _ => exact .silent
  | toggle _ _ | applyTemplate _ _ _ => cases result <;> exact .tells
  | templates =>
    cases result with
    | ok names => exact .silent
    | error e => exact .tells
  | delete _ => exact Rows.settleDelete_takesIn

end Rules

namespace RuleEditor

theorem mounted_session (s : RuleEditor) : (s.mounted session).session = session := by
  fun_cases mounted s session <;> rfl

/-- An answer that no submit waits for is not told. -/
theorem settle_takesIn (state : Option RuleEditor) (c : Call) (result : Except Failure c.Answer) :
    (settle state session c result).TakesIn session result := by
  cases c with
  | locate _ id =>
    cases result with
    | ok page =>
      refine .succeeds ?_
      simp only [settle, settleLocate]
      split <;> rfl
    | error e => exact .tells
  | submit _ =>
    cases state with
    | none => exact .silent
    | some s =>
      cases result with
      | ok rule => exact .succeeds rfl
      | error e =>
        simp only [settle, settleSubmit]
        cases busy : s.draft.value.isSubmitting with
        | false =>
          rw [RuleDraft.finishSubmit_of_not_isSubmitting busy]
          exact .silent
        | true =>
          rw [RuleDraft.finishSubmit_error busy]
          exact .tells

end RuleEditor

end GrantConsole.Screen
