import GrantConsole.Console.Page

/-!
# Turns of the screens

What is said of a turn carries over to the page that the screen is: the state is mapped and so are
the calls. A screen that is there when an answer comes is there afterwards, and one that is gone
stays gone. What an operator does on a screen leaves the session as it is, unless a grant is
selected.
-/

namespace GrantConsole.Screen

open GrantConsole.Api

variable {S T C D R : Type}

namespace Turn

variable (f : S → T) (g : C → D) (t : Turn S C)

@[simp] theorem map_state : (t.map f g).state = f t.state := rfl

@[simp] theorem map_session : (t.map f g).session = t.session := rfl

@[simp] theorem map_commands_length : (t.map f g).commands.length = t.commands.length := by
  simp [Turn.map]

@[simp] theorem after_state (cs : List (Command C)) : (t.after cs).state = t.state := rfl

@[simp] theorem after_commands (cs : List (Command C)) :
    (t.after cs).commands = cs ++ t.commands := rfl

/-- The calls of a mapped turn are those of the turn. -/
theorem call_mem_map {d : D} :
    .call d ∈ (t.map f g).commands ↔ ∃ c, .call c ∈ t.commands ∧ g c = d := by
  unfold Turn.map
  rw [List.mem_map]
  constructor
  · rintro ⟨c, called, same⟩
    cases c with
    | toast kind text => cases same
    | call c => exact ⟨c, called, Command.call.inj same⟩
    | goto path => cases same
  · rintro ⟨c, called, rfl⟩
    exact ⟨.call c, called, rfl⟩

end Turn

namespace Rows

variable (rows : Rows S R)

@[simp] theorem settleLoad_isSome (state : Option S) (session : Session)
    (result : Except Failure (Page R)) :
    (rows.settleLoad (C := C) state session result).state.isSome = state.isSome := by
  simp [settleLoad]

variable [Resource R]

@[simp] theorem settleSave_isSome (reload : S → Session → Turn S C) (text : String)
    (state : Option S) (session : Session) (result : Except Failure R) :
    (rows.settleSave reload text state session result).state.isSome = state.isSome := by
  unfold settleSave
  cases state with
  | none => rfl
  | some s =>
    dsimp only
    split <;> rfl

@[simp] theorem settleDelete_isSome (id text : String) (state : Option S) (session : Session)
    (result : Except Failure Unit) :
    (rows.settleDelete (C := C) id text state session result).state.isSome = state.isSome := by
  unfold settleDelete
  cases state with
  | none => rfl
  | some s =>
    dsimp only
    split <;> rfl

end Rows

/-! ## The session while an operator acts -/

section Acting

variable {session : Session} {entry : Entry}

/-- The session is left as it is, or notes which grant is selected. -/
def SelectsAtMost (before after : Session) : Prop :=
  after = before ∨ ∃ id title, after = before.selectGrant id title

@[simp] theorem Rows.confirmed_session (rows : Rows S R) (delete : String → C) (s : S) :
    (rows.confirmed delete s session).session = session := by
  unfold confirmed
  split <;> rfl

theorem SignIn.handle_session (s : SignIn) (act : Act) :
    (s.handle session act entry).session = session := by
  fun_cases handle s session act entry <;> rfl

theorem Grants.handle_session (s : Grants) (act : Act) :
    SelectsAtMost session (s.handle session act entry).session := by
  fun_cases handle s session act entry
  case case2 => exact .inr ⟨_, _, rfl⟩
  all_goals exact .inl (by simp)

theorem Expenses.handle_session (s : Expenses) (act : Act) :
    (s.handle session act entry).session = session := by
  fun_cases handle s session act entry <;> simp

theorem Approvals.handle_session (s : Approvals) (act : Act) :
    (s.handle session act entry).session = session := by
  fun_cases handle s session act entry <;> simp

theorem Categories.handle_session (s : Categories) (act : Act) :
    (s.handle session act entry).session = session := by
  fun_cases handle s session act entry <;> simp

theorem Roles.handle_session (s : Roles) (act : Act) :
    (s.handle session act entry).session = session := by
  fun_cases handle s session act entry <;> simp

theorem Users.handle_session (s : Users) (act : Act) :
    (s.handle session act entry).session = session := by
  fun_cases handle s session act entry <;> simp

theorem Rules.handle_session (s : Rules) (act : Act) :
    (s.handle session act entry).session = session := by
  fun_cases handle s session act entry <;> simp

theorem RuleEditor.handle_session (s : RuleEditor) (act : Act) :
    (s.handle session act entry).session = session := by
  have edits (i : Nat) (e : ConditionEdit) : (s.editCondition session i e).session = session := by
    unfold editCondition
    dsimp only
    split <;> rfl
  have clauses (act : Widget.ClauseAct) : (s.handleClause session act entry).session = session := by
    fun_cases handleClause s session act entry <;> simp [edits]
  fun_cases handle s session act entry <;> simp [clauses]

end Acting

/-! ## What a rule editor submits -/

section Submitting

theorem RuleEditor.call_handleClause {s : RuleEditor} {session : Session} {act : Widget.ClauseAct}
    {entry : Entry} {c : RuleEditor.Call} :
    .call c ∉ (s.handleClause session act entry).commands := by
  have edits (i : Nat) (e : ConditionEdit) : .call c ∉ (s.editCondition session i e).commands := by
    unfold editCondition
    dsimp only
    split <;> simp [failure]
  fun_cases handleClause s session act entry <;> first | exact edits _ _ | exact List.not_mem_nil

/-- The editor calls for nothing but the submit that its draft begins. -/
theorem RuleEditor.call_handle {s : RuleEditor} {session : Session} {act : RuleEditor.Act}
    {entry : Entry} {c : RuleEditor.Call}
    (called : .call c ∈ (s.handle session act entry).commands) :
    act = .submit ∧ ∃ submission, s.draft.value.beginSubmit.2 = some submission ∧
      c = .submit submission := by
  cases act with
  | submit =>
    simp only [handle] at called
    split at called
    · rename_i submission begun
      exact ⟨rfl, submission, begun, Command.call.inj (List.mem_singleton.mp called)⟩
    · cases called
  | clause act => exact absurd called call_handleClause
  | type =>
    simp only [handle] at called
    split at called <;> cases called
  | _ => cases called

end Submitting

/-! ## A screen stays as long as it is at hand -/

section Presence

variable (session : Session)

theorem SignIn.settle_isSome (state : Option SignIn) (result : Except Failure Token) :
    (settle state session result).state.isSome = state.isSome := by
  cases result <;> simp [settle]

theorem Grants.settle_isSome (state : Option Grants) (c : Call) (result : Except Failure c.Answer) :
    (settle state session c result).state.isSome = state.isSome := by
  cases c <;> simp [settle]

theorem Overview.settle_isSome (state : Option Overview) (result : Except Failure Projection) :
    (settle state session result).state.isSome = state.isSome := by
  cases result <;> simp [settle]

theorem Expenses.settle_isSome (state : Option Expenses) (c : Call)
    (result : Except Failure c.Answer) :
    (settle state session c result).state.isSome = state.isSome := by
  cases c with
  | categories => cases result <;> simp [settle]
  | _ => simp [settle]

theorem Approvals.settle_isSome (state : Option Approvals) (c : Call)
    (result : Except Failure c.Answer) :
    (settle state session c result).state.isSome = state.isSome := by
  cases c with
  | decide expense status comments => cases result <;> simp [settle]
  | _ => simp [settle]

theorem Categories.settle_isSome (state : Option Categories) (c : Call)
    (result : Except Failure c.Answer) :
    (settle state session c result).state.isSome = state.isSome := by
  cases c <;> simp [settle]

theorem Roles.settle_isSome (state : Option Roles) (c : Call) (result : Except Failure c.Answer) :
    (settle state session c result).state.isSome = state.isSome := by
  cases c with
  | users => cases result <;> simp [settle]
  | _ => simp [settle]

theorem Users.settle_isSome (state : Option Users) (c : Call) (result : Except Failure c.Answer) :
    (settle state session c result).state.isSome = state.isSome := by
  cases c with
  | fetch id => cases result <;> simp [settle]
  | _ => simp [settle]

theorem Rules.settle_isSome (state : Option Rules) (c : Call) (result : Except Failure c.Answer) :
    (settle state session c result).state.isSome = state.isSome := by
  cases c with
  | toggle id rule => cases result <;> simp [settle]
  | templates => cases result <;> simp [settle]
  | applyTemplate grant template parameters => cases result <;> simp [settle]
  | _ => simp [settle]

theorem RuleEditor.settle_isSome (state : Option RuleEditor) (c : Call)
    (result : Except Failure c.Answer) :
    (settle state session c result).state.isSome = state.isSome := by
  cases c with
  | locate grant id =>
    simp only [settle, settleLocate]
    split <;> simp
  | submit submission => cases state <;> rfl

end Presence

end GrantConsole.Screen
