import GrantConsole.Proofs.Screen.Turns

/-!
# Kinds of pages

Each page is one of the screens and stays one until another page opens. The calls that it makes are
calls of its screen, and it takes in the answers to no others.
-/

namespace GrantConsole.Console

open GrantConsole.Api GrantConsole.Screen

/-- Which of the screens a page is. -/
inductive Kind
  | signIn
  | grants
  | overview
  | expenses
  | approvals
  | categories
  | roles
  | users
  | rules
  | ruleEditor
  | missing
deriving DecidableEq

namespace Page

def kind : Page → Kind
  | signIn _ => .signIn
  | grants _ => .grants
  | overview _ => .overview
  | expenses _ => .expenses
  | approvals _ => .approvals
  | categories _ => .categories
  | roles _ => .roles
  | users _ => .users
  | rules _ => .rules
  | ruleEditor _ => .ruleEditor
  | missing => .missing

/-- The screen that makes a call. -/
def Call.kind : Call → Kind
  | signIn _ => .signIn
  | grants _ => .grants
  | overview _ => .overview
  | expenses _ => .expenses
  | approvals _ => .approvals
  | categories _ => .categories
  | roles _ => .roles
  | users _ => .users
  | rules _ => .rules
  | ruleEditor _ => .ruleEditor

/-- The screen that an act is for. -/
def Act.kind : Act → Kind
  | signIn _ => .signIn
  | grants _ => .grants
  | expenses _ => .expenses
  | approvals _ => .approvals
  | categories _ => .categories
  | roles _ => .roles
  | users _ => .users
  | rules _ => .rules
  | ruleEditor _ => .ruleEditor

@[simp] theorem kind_handle (p : Page) (session : Session) (act : Act) (entry : Entry) :
    (p.handle session act entry).state.kind = p.kind := by
  fun_cases handle p session act entry <;> rfl

/-- An act for another screen does nothing. -/
theorem handle_of_kind_ne {p : Page} {act : Act} (other : act.kind ≠ p.kind) (session : Session)
    (entry : Entry) : p.handle session act entry = ⟨p, session, []⟩ := by
  fun_cases handle p session act entry
  case case10 => rfl
  all_goals exact absurd rfl other

@[simp] theorem kind_mounted (p : Page) (session : Session) :
    (p.mounted session).state.kind = p.kind := by
  fun_cases mounted p session <;> try rfl
  cases p <;> rfl

@[simp] theorem kind_moved (p : Page) (place : Place) : (p.moved place).kind = p.kind := by
  fun_cases moved place p <;> rfl

/-- An answer that a screen takes in does not make it another. -/
theorem kind_settle (page : Option Page) (session : Session) (c : Call)
    (result : Except Failure c.Answer) :
    ∀ q ∈ (settle page session c result).state, q.kind = c.kind := by
  intro q settled
  cases c
  all_goals
    obtain ⟨s, -, rfl⟩ := Option.map_eq_some_iff.mp settled
    rfl

/-- A page takes in the answers to its own calls, and no others. -/
theorem settle_isSome_iff (page : Option Page) (session : Session) (c : Call)
    (result : Except Failure c.Answer) :
    (settle page session c result).state.isSome ↔ ∃ p, page = some p ∧ p.kind = c.kind := by
  cases c
  all_goals
    simp only [settle, Turn.map_state, Option.isSome_map, SignIn.settle_isSome,
      Grants.settle_isSome, Overview.settle_isSome, Expenses.settle_isSome,
      Approvals.settle_isSome, Categories.settle_isSome, Roles.settle_isSome,
      Users.settle_isSome, Rules.settle_isSome, RuleEditor.settle_isSome]
    split
    · exact ⟨fun _ => ⟨_, rfl, rfl⟩, fun _ => rfl⟩
    · rename_i other
      refine ⟨nofun, ?_⟩
      rintro ⟨p, rfl, alike⟩
      cases p <;> first | exact (other _ rfl).elim | cases alike

/-- A page that is gone stays gone. -/
theorem settle_none_state (session : Session) (c : Call) (result : Except Failure c.Answer) :
    (settle none session c result).state = none := by
  refine Option.not_isSome_iff_eq_none.mp fun there => ?_
  obtain ⟨_, here, -⟩ := (settle_isSome_iff none session c result).mp there
  cases here

/-- The page at hand after an answer is of the kind that it was of. -/
theorem kind_settle_getD {page : Option Page} {p : Page} (own : ∀ q ∈ page, q = p)
    (session : Session) (c : Call) (result : Except Failure c.Answer) :
    ((settle page session c result).state.getD p).kind = p.kind := by
  cases left : (settle page session c result).state with
  | none => rfl
  | some q =>
    obtain ⟨_, here, alike⟩ := (settle_isSome_iff page session c result).mp (by rw [left]; rfl)
    rw [Option.getD_some, kind_settle page session c result q left, ← alike, own _ here]

theorem call_kind_handle {p : Page} {session : Session} {act : Act} {entry : Entry} {c : Call}
    (called : .call c ∈ (p.handle session act entry).commands) : c.kind = p.kind := by
  revert called
  fun_cases handle p session act entry
  case case10 => simp
  all_goals
    rw [Turn.call_mem_map]
    rintro ⟨c, -, rfl⟩
    rfl

theorem call_kind_mounted {p : Page} {session : Session} {c : Call}
    (called : .call c ∈ (p.mounted session).commands) : c.kind = p.kind := by
  revert called
  fun_cases mounted p session
  · cases p
    case signIn | missing => simp [load]
    all_goals
      simp only [load, Turn.call_mem_map]
      rintro ⟨c, -, rfl⟩
      rfl
  · simp
  · simp

theorem call_kind_settle {page : Option Page} {session : Session} {c d : Call}
    {result : Except Failure c.Answer}
    (called : .call d ∈ (settle page session c result).commands) : d.kind = c.kind := by
  revert called
  cases c
  all_goals
    simp only [settle, Turn.call_mem_map]
    rintro ⟨c, -, rfl⟩
    rfl

end Page

namespace Place

/-- The screen that shows a place. -/
def kind : Place → Kind
  | signIn => .signIn
  | grants => .grants
  | overview => .overview
  | expenses => .expenses
  | approvals => .approvals
  | categories => .categories
  | roles => .roles
  | users => .users
  | rules => .rules
  | newRule => .ruleEditor
  | rule _ => .ruleEditor
  | missing => .missing

@[simp] theorem kind_opened (place : Place) (session : Session) :
    (Page.opened place session).kind = place.kind := by
  cases place <;> rfl

theorem kind_eq_of_samePage {p q : Place} (same : p.samePage q = true) : p.kind = q.kind := by
  unfold samePage at same
  split at same
  · rfl
  · rw [eq_of_beq same]

theorem kind_eq_signIn_iff {p : Place} : p.kind = .signIn ↔ p = .signIn := by
  cases p <;> simp [kind]

/-- The root is the place where one signs in. -/
theorem ofPath_root : ofPath "/" = signIn := by decide

end Place

/-- The path of the sign-in page leads to the root from everywhere. -/
theorem follow_signInPath (here : Url.Location) : here.follow signInPath = ⟨"/", ""⟩ := by
  have same : here.resolve signInPath = "/" := rfl
  simp only [Url.Location.follow, same]
  rw [if_neg (by decide)]
  decide

end GrantConsole.Console
