import Mathlib.Algebra.GroupWithZero.Nat
import GrantConsole.Proofs.Console.Kinds

/-!
# What turns cost

A turn costs what its commands cost: toasts nothing, a call its price, going to a place more than
the mount of the page there. The price of a call is larger than the cost of the turn that takes its
answer in, and the price of a mount larger than the cost of what a page does when it is mounted. A
turn that costs less than a call that changes something on the server makes none.
-/

namespace GrantConsole

theorem Submission.operation_method (submission : Submission) :
    submission.operation.method = .post ∨ submission.operation.method = .put := by
  unfold Submission.operation
  split
  · exact .inl rfl
  · exact .inr rfl

end GrantConsole

namespace GrantConsole.Screen

open GrantConsole.Api GrantConsole.Console

variable {S T C D R : Type}

/-! ## Costs of commands -/

def gotoCost (path : String) : Nat :=
  if path = signInPath then 2 else if path = afterSignInPath then 8 else 11

/-- What a command costs at a price for each call. -/
def Command.cost (price : C → Nat) : Command C → Nat
  | .toast _ _ => 0
  | .call c => price c
  | .goto path => gotoCost path

def commandsCost (price : C → Nat) (cs : List (Command C)) : Nat :=
  (cs.map (Command.cost price)).sum

def Turn.cost (price : C → Nat) (t : Turn S C) : Nat :=
  commandsCost price t.commands

theorem gotoCost_le (path : String) : gotoCost path ≤ 11 := by
  unfold gotoCost
  repeat' split
  all_goals decide

section Commands

variable {price : C → Nat}

@[simp] theorem commandsCost_nil : commandsCost price [] = 0 := rfl

@[simp] theorem commandsCost_cons (c : Command C) (cs : List (Command C)) :
    commandsCost price (c :: cs) = c.cost price + commandsCost price cs := by
  simp [commandsCost]

@[simp] theorem commandsCost_append (cs ds : List (Command C)) :
    commandsCost price (cs ++ ds) = commandsCost price cs + commandsCost price ds := by
  simp [commandsCost]

@[simp] theorem cost_success (text : String) : (success text).cost price = 0 := rfl

@[simp] theorem cost_failure (text : String) : (failure text).cost price = 0 := rfl

@[simp] theorem cost_call (c : C) : (Command.call c).cost price = price c := rfl

@[simp] theorem cost_goto (path : String) :
    (Command.goto (C := C) path).cost price = gotoCost path := rfl

/-- Commands cost no more than so many of the costliest. -/
theorem commandsCost_le (price : C → Nat) {limit : Nat} (calls : ∀ c, price c ≤ limit)
    (places : 11 ≤ limit) (cs : List (Command C)) :
    commandsCost price cs ≤ limit * cs.length := by
  induction cs with
  | nil => simp
  | cons c cs ih =>
    have first : c.cost price ≤ limit := by
      cases c with
      | toast kind text => exact Nat.zero_le _
      | call c => exact calls c
      | goto path => exact Nat.le_trans (gotoCost_le path) places
    rw [commandsCost_cons, List.length_cons, Nat.mul_succ]
    omega

/-- A call among commands costs no more than all of them. -/
theorem price_le_of_mem (price : C → Nat) {c : C} {cs : List (Command C)} (called : .call c ∈ cs) :
    price c ≤ commandsCost price cs := by
  induction cs with
  | nil => cases called
  | cons d cs ih =>
    rw [commandsCost_cons]
    rcases List.mem_cons.mp called with rfl | called
    · exact Nat.le_add_right _ _
    · exact Nat.le_trans (ih called) (Nat.le_add_left _ _)

theorem Turn.cost_map (f : S → T) (g : C → D) (price : D → Nat) (t : Turn S C) :
    (t.map f g).cost price = t.cost fun c => price (g c) := by
  unfold Turn.cost Turn.map
  induction t.commands with
  | nil => rfl
  | cons c cs ih =>
    rw [List.map_cons, commandsCost_cons, commandsCost_cons, ih]
    cases c <;> rfl

theorem Turn.cost_map_le {f : S → T} {g : C → D} {price : D → Nat} {t : Turn S C} {limit : Nat}
    (bound : t.cost (fun c => price (g c)) ≤ limit) : (t.map f g).cost price ≤ limit := by
  rwa [Turn.cost_map]

@[simp] theorem Turn.cost_after (cs : List (Command C)) (t : Turn S C) :
    (t.after cs).cost price = commandsCost price cs + t.cost price := by
  simp [Turn.after, Turn.cost]

end Commands

/-! ## Turns of a listing -/

namespace Rows

variable (rows : Rows S R)

theorem confirmed_short (delete : String → C) (s : S) (session : Session) :
    (rows.confirmed delete s session).commands.length ≤ 1 := by
  unfold confirmed
  split <;> simp

variable [Resource R] {price : C → Nat}

/-- Taking in a save costs what loading the rows again costs. -/
theorem cost_settleSave {limit : Nat} {reload : S → Session → Turn S C}
    (reloads : ∀ s session, (reload s session).cost price ≤ limit) (text : String)
    (state : Option S) (session : Session) (result : Except Failure R) :
    (rows.settleSave reload text state session result).cost price ≤ limit := by
  unfold settleSave
  cases state with
  | none => exact Nat.zero_le _
  | some s =>
    dsimp only
    split
    · rw [Turn.cost_after, Turn.cost_map]
      simpa using reloads _ session
    · exact Nat.zero_le _

/-- Taking in a deletion costs nothing. -/
theorem cost_settleDelete {limit : Nat} (id text : String) (state : Option S) (session : Session)
    (result : Except Failure Unit) :
    (rows.settleDelete id text state session result).cost price ≤ limit := by
  unfold settleDelete
  cases state with
  | none => exact Nat.zero_le _
  | some s =>
    dsimp only
    split <;> exact Nat.zero_le _

end Rows

/-! ## Turns of the screens

A call that only reads leads to no other call and to no other place.
-/

/-- What a call costs that asks the server for something. -/
def price {α : Type} (op : Operation α) : Nat :=
  if op.method = .get then 3 else 14

/-- What taking in the answer to such a call costs at most. -/
def afterPrice {α : Type} (op : Operation α) : Nat :=
  if op.method = .get then 0 else 11

theorem price_le {α : Type} (op : Operation α) : price op ≤ 14 := by
  unfold price
  split <;> decide

/-- Loading rows again costs no more than taking in a change may cost. -/
theorem reload_le_afterPrice {α : Type} {op : Operation α} (changes : op.method ≠ .get) :
    3 ≤ afterPrice op := by
  rw [afterPrice, if_neg changes]
  decide

namespace Grants

theorem handle_short (s : Grants) (session : Session) (act : Act) (entry : Entry) :
    (s.handle session act entry).commands.length ≤ 1 := by
  fun_cases handle s session act entry <;> simp [Rows.confirmed_short]

theorem cost_reload (s : Grants) (session : Session) :
    (s.reload session).cost (fun c => price c.operation) ≤ 3 := Nat.le_refl 3

theorem cost_settle (state : Option Grants) (session : Session) (c : Call)
    (result : Except Failure c.Answer) :
    (settle state session c result).cost (fun c => price c.operation) ≤
      afterPrice c.operation := by
  cases c with
  | load => exact Nat.le_refl 0
  | create grant =>
    exact Nat.le_trans (rows.cost_settleSave cost_reload _ _ _ _) (reload_le_afterPrice nofun)
  | replace id grant =>
    exact Nat.le_trans (rows.cost_settleSave cost_reload _ _ _ _) (reload_le_afterPrice nofun)
  | delete id => exact rows.cost_settleDelete ..

end Grants

namespace Overview

theorem cost_reload (s : Overview) (session : Session) :
    (s.reload session).cost (fun c => price c.operation) ≤ 3 := by
  fun_cases reload s session
  · exact Nat.zero_le 3
  · exact Nat.le_refl 3

theorem cost_settle (state : Option Overview) (session : Session)
    (result : Except Failure Projection) :
    (settle state session result).cost (fun c => price c.operation) = 0 := by
  cases result <;> rfl

end Overview

namespace Expenses

theorem handle_short (s : Expenses) (session : Session) (act : Act) (entry : Entry) :
    (s.handle session act entry).commands.length ≤ 1 := by
  fun_cases handle s session act entry <;> simp [Rows.confirmed_short]

theorem cost_reload (s : Expenses) (session : Session) :
    (s.reload session).cost (fun c => price c.operation) ≤ 3 := by
  fun_cases reload s session
  · exact Nat.zero_le 3
  · exact Nat.le_refl 3

theorem cost_mounted (s : Expenses) (session : Session) :
    (s.mounted session).cost (fun c => price c.operation) ≤ 6 := by
  have reloads := s.cost_reload session
  simp only [mounted, Turn.cost, commandsCost_append] at reloads ⊢
  exact Nat.add_le_add reloads (Nat.le_refl 3)

theorem cost_settle (state : Option Expenses) (session : Session) (c : Call)
    (result : Except Failure c.Answer) :
    (settle state session c result).cost (fun c => price c.operation) ≤
      afterPrice c.operation := by
  cases c with
  | load grant => exact Nat.le_refl 0
  | categories => cases result <;> exact Nat.le_refl 0
  | create expense =>
    exact Nat.le_trans (rows.cost_settleSave cost_reload _ _ _ _) (reload_le_afterPrice nofun)
  | delete id => exact rows.cost_settleDelete ..

end Expenses

namespace Approvals

theorem handle_short (s : Approvals) (session : Session) (act : Act) (entry : Entry) :
    (s.handle session act entry).commands.length ≤ 1 := by
  fun_cases handle s session act entry <;> simp [Rows.confirmed_short]

theorem cost_mounted (s : Approvals) (session : Session) :
    (s.mounted session).cost (fun c => price c.operation) ≤ 6 := Nat.le_refl 6

theorem cost_settle (state : Option Approvals) (session : Session) (c : Call)
    (result : Except Failure c.Answer) :
    (settle state session c result).cost (fun c => price c.operation) ≤
      afterPrice c.operation := by
  cases c with
  | loadPending => exact Nat.le_refl 0
  | load => exact Nat.le_refl 0
  | decide expense status comments => cases result <;> exact Nat.zero_le _
  | delete id => exact rows.cost_settleDelete ..

end Approvals

namespace Categories

theorem handle_short (s : Categories) (session : Session) (act : Act) (entry : Entry) :
    (s.handle session act entry).commands.length ≤ 1 := by
  fun_cases handle s session act entry <;> simp [Rows.confirmed_short]

theorem cost_reload (s : Categories) (session : Session) :
    (s.reload session).cost (fun c => price c.operation) ≤ 3 := Nat.le_refl 3

theorem cost_settle (state : Option Categories) (session : Session) (c : Call)
    (result : Except Failure c.Answer) :
    (settle state session c result).cost (fun c => price c.operation) ≤
      afterPrice c.operation := by
  cases c with
  | load => exact Nat.le_refl 0
  | create category =>
    exact Nat.le_trans (rows.cost_settleSave cost_reload _ _ _ _) (reload_le_afterPrice nofun)
  | delete id => exact rows.cost_settleDelete ..

end Categories

namespace Roles

theorem handle_short (s : Roles) (session : Session) (act : Act) (entry : Entry) :
    (s.handle session act entry).commands.length ≤ 1 := by
  fun_cases handle s session act entry <;> simp [Rows.confirmed_short]

theorem cost_reload (s : Roles) (session : Session) :
    (s.reload session).cost (fun c => price c.operation) ≤ 3 := by
  fun_cases reload s session
  · exact Nat.zero_le 3
  · exact Nat.le_refl 3

theorem cost_mounted (s : Roles) (session : Session) :
    (s.mounted session).cost (fun c => price c.operation) ≤ 6 := by
  have reloads := s.cost_reload session
  simp only [mounted, Turn.cost, commandsCost_append] at reloads ⊢
  exact Nat.add_le_add reloads (Nat.le_refl 3)

theorem cost_settle (state : Option Roles) (session : Session) (c : Call)
    (result : Except Failure c.Answer) :
    (settle state session c result).cost (fun c => price c.operation) ≤
      afterPrice c.operation := by
  cases c with
  | load grant => exact Nat.le_refl 0
  | users => cases result <;> exact Nat.le_refl 0
  | assign role =>
    exact Nat.le_trans (rows.cost_settleSave cost_reload _ _ _ _) (reload_le_afterPrice nofun)
  | delete id => exact rows.cost_settleDelete ..

end Roles

namespace Users

theorem handle_short (s : Users) (session : Session) (act : Act) (entry : Entry) :
    (s.handle session act entry).commands.length ≤ 1 := by
  have saves : s.saveCommand.length ≤ 1 := by
    fun_cases saveCommand s <;> simp
  fun_cases handle s session act entry <;> simp [Rows.confirmed_short, saves]

theorem cost_reload (s : Users) (session : Session) :
    (s.reload session).cost (fun c => price c.operation) ≤ 3 := Nat.le_refl 3

theorem cost_settle (state : Option Users) (session : Session) (c : Call)
    (result : Except Failure c.Answer) :
    (settle state session c result).cost (fun c => price c.operation) ≤
      afterPrice c.operation := by
  cases c with
  | load => exact Nat.le_refl 0
  | fetch id => cases result <;> exact Nat.le_refl 0
  | create user =>
    exact Nat.le_trans (rows.cost_settleSave cost_reload _ _ _ _) (reload_le_afterPrice nofun)
  | update id change =>
    exact Nat.le_trans (rows.cost_settleSave cost_reload _ _ _ _) (reload_le_afterPrice nofun)
  | delete id => exact rows.cost_settleDelete ..

end Users

namespace Rules

theorem handle_short (s : Rules) (session : Session) (act : Act) (entry : Entry) :
    (s.handle session act entry).commands.length ≤ 1 := by
  fun_cases handle s session act entry <;> simp [Rows.confirmed_short]

theorem cost_reload (s : Rules) (session : Session) :
    (s.reload session).cost (fun c => price c.operation) ≤ 3 := by
  fun_cases reload s session
  · exact Nat.zero_le 3
  · exact Nat.le_refl 3

theorem cost_settle (state : Option Rules) (session : Session) (c : Call)
    (result : Except Failure c.Answer) :
    (settle state session c result).cost (fun c => price c.operation) ≤
      afterPrice c.operation := by
  cases c with
  | load grant => exact Nat.le_refl 0
  | toggle id rule => cases result <;> exact Nat.zero_le _
  | delete id => exact rows.cost_settleDelete ..
  | templates => cases result <;> exact Nat.le_refl 0
  | applyTemplate grant template parameters => cases result <;> exact Nat.zero_le _

end Rules

namespace RuleEditor

theorem handleClause_short (s : RuleEditor) (session : Session) (act : Widget.ClauseAct)
    (entry : Entry) : (s.handleClause session act entry).commands.length ≤ 1 := by
  have edits (i : Nat) (e : ConditionEdit) :
      (s.editCondition session i e).commands.length ≤ 1 := by
    unfold editCondition
    dsimp only
    split <;> simp
  fun_cases handleClause s session act entry <;> simp [edits]

theorem handle_short (s : RuleEditor) (session : Session) (act : Act) (entry : Entry) :
    (s.handle session act entry).commands.length ≤ 1 := by
  fun_cases handle s session act entry <;> simp [handleClause_short]

theorem cost_mounted (s : RuleEditor) (session : Session) :
    (s.mounted session).cost (fun c => price c.operation) ≤ 8 := by
  fun_cases mounted s session
  · exact Nat.zero_le 8
  · exact Nat.le_refl 8
  · show 3 ≤ 8
    decide

theorem cost_settle (state : Option RuleEditor) (session : Session) (c : Call)
    (result : Except Failure c.Answer) :
    (settle state session c result).cost (fun c => price c.operation) ≤
      afterPrice c.operation := by
  cases c with
  | locate grant id =>
    simp only [settle, settleLocate]
    split <;> exact Nat.le_refl 0
  | submit submission =>
    have changes : afterPrice submission.operation = 11 := by
      rcases submission.operation_method with post | put
      · rw [afterPrice, if_neg (by rw [post]; decide)]
      · rw [afterPrice, if_neg (by rw [put]; decide)]
    rw [show (Call.submit submission).operation = submission.operation from rfl, changes]
    cases state with
    | none => exact Nat.zero_le 11
    | some s =>
      simp only [settle, settleSubmit, Turn.cost]
      fun_cases submitCommands (s.draft.value.finishSubmit result).2
      all_goals simp [gotoCost_le]

end RuleEditor

namespace SignIn

theorem handle_short (s : SignIn) (session : Session) (act : Act) (entry : Entry) :
    (s.handle session act entry).commands.length ≤ 1 := by
  fun_cases handle s session act entry <;> simp

theorem cost_settle (state : Option SignIn) (session : Session) (result : Except Failure Token) :
    (settle state session result).cost (fun c => price c.operation) ≤ 11 := by
  cases result with
  | error e => exact Nat.zero_le 11
  | ok token => cases state <;> simp [settle, Turn.cost, gotoCost_le]

end SignIn

end GrantConsole.Screen

/-! ## Turns of the pages -/

namespace GrantConsole.Console

open GrantConsole.Api GrantConsole.Screen

/-- What mounting a page of a kind costs. -/
def Kind.mountCost : Kind → Nat
  | signIn => 1
  | missing => 1
  | ruleEditor => 10
  | _ => 7

theorem Kind.mountCost_pos (k : Kind) : 1 ≤ k.mountCost := by
  cases k <;> decide

theorem Kind.mountCost_le (k : Kind) : k.mountCost ≤ 10 := by
  cases k <;> decide

namespace Page

def Call.cost (c : Call) : Nat :=
  price c.operation

/-- An event makes a page do one thing at most. -/
theorem handle_short (p : Page) (session : Session) (act : Act) (entry : Entry) :
    (p.handle session act entry).commands.length ≤ 1 := by
  fun_cases handle p session act entry
  case case10 => exact Nat.zero_le 1
  case case1 s a | case2 s a | case3 s a | case4 s a | case5 s a | case6 s a | case7 s a
      | case8 s a | case9 s a =>
    rw [Turn.map_commands_length]
    exact s.handle_short session a entry

theorem cost_handle (p : Page) (session : Session) (act : Act) (entry : Entry) :
    (p.handle session act entry).cost Call.cost ≤ 14 := by
  have short := p.handle_short session act entry
  have bound := commandsCost_le Call.cost (fun c => price_le c.operation) (by decide)
    (p.handle session act entry).commands
  unfold Turn.cost
  omega

theorem cost_settle (page : Option Page) (session : Session) (c : Call)
    (result : Except Failure c.Answer) :
    (settle page session c result).cost Call.cost ≤ afterPrice c.operation := by
  cases c with
  | signIn c => exact Turn.cost_map_le (SignIn.cost_settle ..)
  | grants c => exact Turn.cost_map_le (Grants.cost_settle ..)
  | overview c => exact Turn.cost_map_le (Nat.le_of_eq (Overview.cost_settle ..))
  | expenses c => exact Turn.cost_map_le (Expenses.cost_settle ..)
  | approvals c => exact Turn.cost_map_le (Approvals.cost_settle ..)
  | categories c => exact Turn.cost_map_le (Categories.cost_settle ..)
  | roles c => exact Turn.cost_map_le (Roles.cost_settle ..)
  | users c => exact Turn.cost_map_le (Users.cost_settle ..)
  | rules c => exact Turn.cost_map_le (Rules.cost_settle ..)
  | ruleEditor c => exact Turn.cost_map_le (RuleEditor.cost_settle ..)

theorem cost_load (p : Page) (session : Session) (guarded : p.isGuarded) :
    (p.load session).cost Call.cost < p.kind.mountCost := by
  cases p with
  | signIn s => cases guarded
  | missing => cases guarded
  | grants s | overview s | categories s | users s | rules s =>
    exact Nat.lt_of_le_of_lt (Turn.cost_map_le (s.cost_reload session)) (show 3 < 7 by decide)
  | expenses s | approvals s | roles s =>
    exact Nat.lt_of_le_of_lt (Turn.cost_map_le (s.cost_mounted session)) (show 6 < 7 by decide)
  | ruleEditor s =>
    exact Nat.lt_of_le_of_lt (Turn.cost_map_le (s.cost_mounted session)) (show 8 < 10 by decide)

/-- The way to the sign-in page costs less than the mount of a page that sends there. -/
theorem gotoCost_signIn_lt {p : Page} (guarded : p.isGuarded) :
    gotoCost signInPath < p.kind.mountCost := by
  cases p with
  | signIn s => cases guarded
  | missing => cases guarded
  | ruleEditor s => exact show 2 < 10 by decide
  | _ => exact show 2 < 7 by decide

theorem cost_mounted (p : Page) (session : Session) :
    (p.mounted session).cost Call.cost < p.kind.mountCost := by
  unfold mounted
  split
  case isTrue guarded =>
    unfold Session.access
    cases session.isSignedIn with
    | true => exact p.cost_load session guarded
    | false => simpa [Turn.cost] using gotoCost_signIn_lt guarded
  case isFalse => exact p.kind.mountCost_pos

end Page

end GrantConsole.Console
