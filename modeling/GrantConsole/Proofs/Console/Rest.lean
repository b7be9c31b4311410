import GrantConsole.Proofs.Console.Changes
import GrantConsole.Proofs.Console.Cost
import GrantConsole.Proofs.Console.Hearing

/-!
# The console comes to rest

Work makes more work due: a page that is mounted loads its rows, a call that is answered may load
them again or lead to another page, the end of a session leads to the sign-in page. The cost of a
piece of work is larger than the costs of all that it makes due, so that the costs of what is due
fall with every piece that is done. One event starts from nothing due and costs far less than the
limit: after each step of a run nothing is due.
-/

namespace GrantConsole.Console

open GrantConsole.Api GrantConsole.Markup GrantConsole.Screen GrantConsole.Url

namespace Tab

/-- What a piece of work costs. The mount of a page that has been left does nothing. -/
def cost (tab : Tab) : Due → Nat
  | .mount page =>
    if page < tab.number then 1 else if page = tab.number then tab.page.kind.mountCost else 10
  | .call _ c => c.cost
  | .goto _ path => gotoCost path
  | .signedOut => 2
  | .expiry => 2

def dueCost (tab : Tab) : Nat :=
  (tab.due.map tab.cost).sum

/-- The page at hand is still the same or a later one is. -/
def Onward (a b : Tab) : Prop :=
  a.number < b.number ∨ a.number = b.number ∧ a.page.kind = b.page.kind

/-- More work has become due, of a limited cost. -/
structure Adds (limit : Nat) (a b : Tab) : Prop where
  onward : Onward a b
  added : ∃ new, b.due = a.due ++ new ∧ (new.map b.cost).sum ≤ limit

section Costs

variable {a b : Tab} {limit : Nat}

/-- Work becomes no costlier as the console goes on. -/
theorem Onward.cost_le (onward : Onward a b) (due : Due) : b.cost due ≤ a.cost due := by
  cases due with
  | mount page =>
    have low := b.page.kind.mountCost_le
    have positive := a.page.kind.mountCost_pos
    rcases onward with later | ⟨same, alike⟩
    · simp only [cost]
      repeat' split
      all_goals omega
    · simp only [cost, same, alike]
      exact Nat.le_refl _
  | call page c => exact Nat.le_refl _
  | goto page path => exact Nat.le_refl _
  | signedOut => exact Nat.le_refl _
  | expiry => exact Nat.le_refl _

theorem Onward.costs_le (onward : Onward a b) (dues : List Due) :
    (dues.map b.cost).sum ≤ (dues.map a.cost).sum := by
  induction dues with
  | nil => exact Nat.le_refl 0
  | cons due dues ih => simpa using Nat.add_le_add (onward.cost_le due) ih

theorem Adds.refl (tab : Tab) : Adds limit tab tab :=
  ⟨.inr ⟨rfl, rfl⟩, [], by simp, Nat.zero_le _⟩

theorem Adds.mono {more : Nat} (adds : Adds limit a b) (le : limit ≤ more) : Adds more a b :=
  ⟨adds.onward, adds.added.imp fun _ h => ⟨h.1, Nat.le_trans h.2 le⟩⟩

theorem Adds.dueCost_le (adds : Adds limit a b) : b.dueCost ≤ a.dueCost + limit := by
  obtain ⟨onward, new, due, bound⟩ := adds
  have kept := onward.costs_le a.due
  simp only [dueCost, due, List.map_append, List.sum_append]
  omega

end Costs

section Operations

variable (tab : Tab)

theorem cost_dueOf (page : Nat) (cs : List (Command Page.Call)) :
    ((cs.filterMap (dueOf page)).map tab.cost).sum = commandsCost Page.Call.cost cs := by
  induction cs with
  | nil => rfl
  | cons c cs ih =>
    rw [commandsCost_cons, ← ih]
    cases c with
    | toast kind text => simp [dueOf, List.filterMap_cons, Command.cost]
    | call c => simp only [dueOf, List.filterMap_cons, List.map_cons, List.sum_cons]; rfl
    | goto path => simp only [dueOf, List.filterMap_cons, List.map_cons, List.sum_cons]; rfl

theorem takeTurn_adds {t : Turn Page Page.Call} (alike : t.state.kind = tab.page.kind) :
    Adds (t.cost Page.Call.cost) tab (tab.takeTurn t) := by
  refine ⟨.inr ⟨by simp, by simp [alike]⟩, _, tab.takeTurn_due t, ?_⟩
  rw [cost_dueOf]
  exact Nat.le_refl _

/-- An answer leaves the page at hand the screen that it is. -/
theorem settleCall_kind (tab : Tab) (page : Nat) (c : Page.Call) (outcome : Outcome c.Answer) :
    (tab.settleCall page c outcome).page.kind = tab.page.kind := by
  have own : ∀ q ∈ (if page = tab.number then some tab.page else none), q = tab.page := by
    intro q here
    split at here
    · exact (Option.some.inj here).symm
    · cases here
  rw [settleCall_page]
  exact Page.kind_settle_getD own _ _ _

theorem settleCall_adds (page : Nat) (c : Page.Call) (outcome : Outcome c.Answer) :
    Adds (2 + afterPrice c.operation) tab (tab.settleCall page c outcome) := by
  refine ⟨.inr ⟨by simp, (settleCall_kind ..).symm⟩, expiryOf outcome ++ _,
    by rw [settleCall_due, List.append_assoc], ?_⟩
  · have ends : ∀ tab : Tab, ((expiryOf outcome).map tab.cost).sum ≤ 2 := by
      intro tab
      unfold expiryOf
      split <;> simp [cost]
    have takes := Page.cost_settle (if page = tab.number then some tab.page else none)
      outcome.session c outcome.result
    rw [List.map_append, List.sum_append, cost_dueOf]
    exact Nat.add_le_add (ends _) takes

theorem send_adds (page : Nat) (c : Page.Call) :
    Adds (2 + afterPrice c.operation) tab (tab.send page c) := by
  rcases tab.send_cases page c with
    ⟨-, sent⟩ | ⟨request, -, ⟨r, server, -, sent⟩ | ⟨server, -, sent⟩⟩
  · rw [sent]
    exact tab.settleCall_adds page c _
  · obtain ⟨onward, added⟩ := settleCall_adds { tab with server, sent := tab.sent ++ [request] } page c
      (c.operation.settle tab.session r.outcome)
    rw [sent]
    exact ⟨onward, added⟩
  · rw [sent]
    exact ⟨.inr ⟨rfl, rfl⟩, [], by simp, Nat.zero_le _⟩

theorem goto_adds (location : Location) :
    Adds (Page.opened (Place.ofPath location.path) tab.session).kind.mountCost tab
      (tab.goto location) := by
  rcases tab.goto_cases location with stays | ⟨chrome, place, moves⟩ | ⟨chrome, opens⟩
  · rw [stays]
    exact .refl tab
  · rw [moves]
    exact ⟨.inr ⟨rfl, by simp⟩, [], by simp, Nat.zero_le _⟩
  · rw [opens]
    exact ⟨.inl (Nat.lt_succ_self _), [.mount (tab.number + 1)], rfl, by simp [cost]⟩

end Operations

/-! ## Each piece of work costs more than what it makes due -/

section Work

variable (tab : Tab)

theorem follow_adds (path : String) : Adds 10 tab (tab.follow path) :=
  (tab.goto_adds _).mono (Kind.mountCost_le _)

/-- A path that is followed to the same location from everywhere leads to one kind of page. -/
theorem follow_adds_of_kind {path : String} {location : Location} {kind : Kind}
    (leads : tab.location.follow path = location)
    (shows : ∀ session, (Page.opened (Place.ofPath location.path) session).kind = kind) :
    Adds kind.mountCost tab (tab.follow path) := by
  rw [follow, leads, ← shows tab.session]
  exact tab.goto_adds location

theorem follow_signIn_adds : Adds 1 tab (tab.follow signInPath) := by
  have shows (session : Session) : (Page.opened (Place.ofPath "/") session).kind = .signIn := by
    rw [Place.kind_opened, Place.ofPath_root]
    rfl
  exact tab.follow_adds_of_kind (follow_signInPath tab.location) shows

theorem follow_afterSignIn_adds : Adds 7 tab (tab.follow afterSignInPath) := by
  have leads : tab.location.follow afterSignInPath = ⟨"/grants", ""⟩ := by
    have same : tab.location.resolve afterSignInPath = "/grants" := rfl
    simp only [Location.follow, same]
    rw [if_neg (by decide)]
    decide
  have shows : Place.ofPath "/grants" = .grants := by decide
  exact tab.follow_adds_of_kind leads fun session => by simp only [shows]; rfl

/-- Going to a place costs more than what it makes due. -/
theorem goto_work_adds (page : Nat) (path : String) :
    ∃ limit < gotoCost path, Adds limit tab (tab.work (.goto page path)) := by
  have follows : ∃ limit < gotoCost path, Adds limit tab (tab.follow path) := by
    unfold gotoCost
    split
    · rename_i same
      exact ⟨1, by decide, same ▸ tab.follow_signIn_adds⟩
    · split
      · rename_i same
        exact ⟨7, by decide, same ▸ tab.follow_afterSignIn_adds⟩
      · exact ⟨10, by decide, tab.follow_adds path⟩
  obtain ⟨limit, small, adds⟩ := follows
  refine ⟨limit, small, ?_⟩
  simp only [work]
  split
  · exact adds
  · exact .refl tab

theorem work_adds (due : Due) : ∃ limit < tab.cost due, Adds limit tab (tab.work due) := by
  cases due with
  | mount page =>
    by_cases here : page = tab.number
    · subst here
      simp only [work, cost, if_pos, Nat.lt_irrefl, if_false]
      exact ⟨_, tab.page.cost_mounted tab.session, tab.takeTurn_adds (by simp)⟩
    · simp only [work, cost, if_neg here]
      exact ⟨0, by split <;> decide, .refl tab⟩
  | call page c =>
    refine ⟨_, ?_, tab.send_adds page c⟩
    show 2 + afterPrice c.operation < price c.operation
    unfold afterPrice price
    split <;> decide
  | goto page path => exact tab.goto_work_adds page path
  | signedOut => exact ⟨1, by simp [cost], tab.follow_signIn_adds⟩
  | expiry =>
    refine ⟨1, by simp [cost], ?_⟩
    simp only [work]
    split
    · obtain ⟨onward, added⟩ := follow_signIn_adds { tab with expired := false }
      exact ⟨onward, added⟩
    · exact .refl tab

/-- The costs of what is due fall with every piece of work. -/
theorem dueCost_next {after : Tab} (next : tab.next = some after) :
    after.dueCost < tab.dueCost := by
  cases first : tab.due with
  | nil => rw [(next_eq_none_iff tab).mpr first] at next; cases next
  | cons due rest =>
    rw [next_eq_some tab first] at next
    cases next
    obtain ⟨limit, small, adds⟩ := work_adds { tab with due := rest } due
    have total : tab.dueCost = tab.cost due + (rest.map tab.cost).sum := by
      simp [dueCost, first]
    have left := adds.dueCost_le
    have same : dueCost { tab with due := rest } = (rest.map tab.cost).sum := rfl
    have sameFirst : cost { tab with due := rest } due = tab.cost due := rfl
    omega

theorem runFor_due {fuel : Nat} (enough : tab.dueCost ≤ fuel) : (tab.runFor fuel).due = [] := by
  induction fuel generalizing tab with
  | zero =>
    have nothing : tab.next = none := by
      cases next : tab.next with
      | none => rfl
      | some after =>
        have falls := tab.dueCost_next next
        omega
    exact (next_eq_none_iff tab).mp nothing
  | succ fuel ih =>
    unfold runFor
    cases next : tab.next with
    | none => exact (next_eq_none_iff tab).mp next
    | some after =>
      have falls := tab.dueCost_next next
      exact ih after (by omega)

theorem run_due_of_cost (small : tab.dueCost ≤ workLimit) : tab.run.due = [] :=
  tab.runFor_due small

/-- What starts from nothing due and adds work within the limit comes to rest. -/
theorem run_due_of_adds {before : Tab} {limit : Nat} (rests : before.due = [])
    (adds : Adds limit before tab) (small : limit ≤ workLimit) : tab.run.due = [] := by
  have bound := adds.dueCost_le
  have nothing : before.dueCost = 0 := by simp [dueCost, rests]
  exact tab.run_due_of_cost (by omega)

end Work

/-! ## Nothing is due after an event -/

section Events

variable {tab : Tab}

theorem act_due (rests : tab.due = []) (a : Act) (entry : Entry) : (tab.act a entry).due = [] := by
  cases a with
  | page a =>
    have adds := tab.takeTurn_adds (t := tab.page.handle tab.session a entry) (by simp)
    exact run_due_of_adds _ rests (adds.mono (Page.cost_handle ..)) (by decide)
  | signOut =>
    have adds : Adds 2 tab ({ tab with session := tab.session.signOut }.push .signedOut) :=
      ⟨.inr ⟨rfl, rfl⟩, [.signedOut], rfl, Nat.le_refl 2⟩
    exact run_due_of_adds _ rests adds (by decide)
  | dismiss id => exact rests

theorem visit_due (rests : tab.due = []) (path : String) : (tab.visit path).due = [] :=
  run_due_of_adds _ rests (tab.follow_adds path) (by decide)

theorem answer_due (rests : tab.due = []) {nth : Nat} {r : Reply} {after : Tab}
    (answered : tab.answer? nth r = some after) : after.due = [] := by
  obtain ⟨flight, -, rfl⟩ := Option.map_eq_some_iff.mp answered
  have adds := settleCall_adds { tab with flights := tab.flights.eraseIdx nth } flight.page
    flight.call (flight.call.operation.settle tab.session r.outcome)
  have small : 2 + afterPrice flight.call.operation ≤ workLimit := by
    unfold afterPrice
    split <;> decide
  have restsStill : Tab.due { tab with flights := tab.flights.eraseIdx nth } = [] := rests
  exact run_due_of_adds _ restsStill adds small

theorem opened_due (session : Session) (server : Server) (path : String) :
    (opened session server path).due = [] := by
  have bound := (launched session server path).page.kind.mountCost_le
  have small : (launched session server path).dueCost ≤ workLimit := by
    simp only [dueCost, launched_due, List.map_cons, List.map_nil, List.sum_cons, List.sum_nil, cost,
      workLimit]
    split
    · omega
    · split <;> omega
  rw [opened_eq]
  exact run_due_of_cost _ small

end Events

end Tab

end GrantConsole.Console
