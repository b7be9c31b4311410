import GrantConsole.Console.Step

/-!
# What the operations of a tab change

The commands of a turn only add work and toasts. A turn changes the page at hand but not its number;
going to another place changes the number if it opens another page. What each operation leaves as it
was is said field by field, so that no later proof opens the operations.
-/

namespace GrantConsole.Console

open GrantConsole.Api GrantConsole.Screen GrantConsole.Url

/-- The work that a command of a page makes due. -/
def dueOf (page : Nat) : Command Page.Call → Option Due
  | .toast _ _ => none
  | .call c => some (.call page c)
  | .goto path => some (.goto page path)

/-- What a command of a page tells the operator. -/
def tell (toasts : Toasts) : Command Page.Call → Toasts
  | .toast kind text => toasts.push kind text
  | .call _ => toasts
  | .goto _ => toasts

/-- The page that a piece of work belongs to. -/
def Due.page? : Due → Option Nat
  | .mount page => some page
  | .call page _ => some page
  | .goto page _ => some page
  | .signedOut => none
  | .expiry => none

namespace Tab

variable (tab : Tab) (page : Nat) (cs : List (Command Page.Call))

section Commands

@[simp] theorem commands_nil : tab.commands page [] = tab := rfl

theorem commands_cons (c : Command Page.Call) :
    tab.commands page (c :: cs) = (tab.command page c).commands page cs := rfl

theorem commands_due : (tab.commands page cs).due = tab.due ++ cs.filterMap (dueOf page) := by
  induction cs generalizing tab with
  | nil => simp
  | cons c cs ih =>
    rw [commands_cons, ih]
    cases c <;> simp [command, toast, push, dueOf, List.filterMap_cons]

theorem commands_toasts : (tab.commands page cs).toasts = cs.foldl tell tab.toasts := by
  induction cs generalizing tab with
  | nil => rfl
  | cons c cs ih =>
    rw [commands_cons, ih]
    cases c <;> rfl

/-- A field that a toast and a push leave alone is left alone by all commands. -/
theorem commands_field {α : Type} (field : Tab → α)
    (toasted : ∀ tab kind text, field (toast tab kind text) = field tab)
    (pushed : ∀ tab due, field (push tab due) = field tab) :
    field (tab.commands page cs) = field tab := by
  induction cs generalizing tab with
  | nil => rfl
  | cons c cs ih =>
    rw [commands_cons, ih]
    cases c with
    | toast kind text => exact toasted _ _ _
    | call c => exact pushed _ _
    | goto path => exact pushed _ _

@[simp] theorem commands_page : (tab.commands page cs).page = tab.page :=
  commands_field tab page cs Tab.page (fun _ _ _ => rfl) (fun _ _ => rfl)

@[simp] theorem commands_number : (tab.commands page cs).number = tab.number :=
  commands_field tab page cs Tab.number (fun _ _ _ => rfl) (fun _ _ => rfl)

@[simp] theorem commands_session : (tab.commands page cs).session = tab.session :=
  commands_field tab page cs Tab.session (fun _ _ _ => rfl) (fun _ _ => rfl)

@[simp] theorem commands_expired : (tab.commands page cs).expired = tab.expired :=
  commands_field tab page cs Tab.expired (fun _ _ _ => rfl) (fun _ _ => rfl)

@[simp] theorem commands_sent : (tab.commands page cs).sent = tab.sent :=
  commands_field tab page cs Tab.sent (fun _ _ _ => rfl) (fun _ _ => rfl)

@[simp] theorem commands_flights : (tab.commands page cs).flights = tab.flights :=
  commands_field tab page cs Tab.flights (fun _ _ _ => rfl) (fun _ _ => rfl)

@[simp] theorem commands_location : (tab.commands page cs).location = tab.location :=
  commands_field tab page cs Tab.location (fun _ _ _ => rfl) (fun _ _ => rfl)

end Commands

section Turns

variable (t : Turn Page Page.Call)

@[simp] theorem takeTurn_page : (tab.takeTurn t).page = t.state := by simp [takeTurn]

@[simp] theorem takeTurn_number : (tab.takeTurn t).number = tab.number := by simp [takeTurn]

@[simp] theorem takeTurn_sent : (tab.takeTurn t).sent = tab.sent := by simp [takeTurn]

@[simp] theorem takeTurn_flights : (tab.takeTurn t).flights = tab.flights := by simp [takeTurn]

@[simp] theorem takeTurn_location : (tab.takeTurn t).location = tab.location := by simp [takeTurn]

@[simp] theorem takeTurn_session : (tab.takeTurn t).session = t.session := by simp [takeTurn]

theorem takeTurn_due :
    (tab.takeTurn t).due = tab.due ++ t.commands.filterMap (dueOf tab.number) := by
  simp [takeTurn, commands_due]

end Turns

section Settling

variable (c : Page.Call) (outcome : Outcome c.Answer)

/-- The turn in which the answer to a call is taken in. -/
def settling : Turn (Option Page) Page.Call :=
  Page.settle (if page = tab.number then some tab.page else none) outcome.session c outcome.result

/-- The work that the end of a session makes due. -/
def expiryOf {α : Type} (outcome : Outcome α) : List Due :=
  if outcome.ended then [.expiry] else []

theorem mem_expiryOf {α : Type} {outcome : Outcome α} {due : Due} (mem : due ∈ expiryOf outcome) :
    due = .expiry := by
  unfold expiryOf at mem
  split at mem
  · exact List.mem_singleton.mp mem
  · cases mem

@[simp] theorem settleCall_page :
    (tab.settleCall page c outcome).page = (tab.settling page c outcome).state.getD tab.page := by
  unfold settleCall settling
  split
  · simp only [commands_page]
    rfl
  · simp

@[simp] theorem settleCall_session :
    (tab.settleCall page c outcome).session = (tab.settling page c outcome).session := by
  unfold settleCall settling
  split
  · simp only [commands_session]
    rfl
  · simp

theorem settleCall_expired :
    (tab.settleCall page c outcome).expired = (outcome.ended || tab.expired) := by
  unfold settleCall
  cases outcome.ended <;> simp [push]

@[simp] theorem settleCall_number : (tab.settleCall page c outcome).number = tab.number := by
  unfold settleCall
  split <;> simp [push]

@[simp] theorem settleCall_sent : (tab.settleCall page c outcome).sent = tab.sent := by
  unfold settleCall
  split <;> simp [push]

@[simp] theorem settleCall_flights : (tab.settleCall page c outcome).flights = tab.flights := by
  unfold settleCall
  split <;> simp [push]

@[simp] theorem settleCall_location :
    (tab.settleCall page c outcome).location = tab.location := by
  unfold settleCall
  split <;> simp [push]

theorem settleCall_due :
    (tab.settleCall page c outcome).due =
      tab.due ++ expiryOf outcome ++
        (tab.settling page c outcome).commands.filterMap (dueOf page) := by
  unfold settleCall settling expiryOf
  split
  · simp only [commands_due, push]
    rfl
  · simp [commands_due]

theorem settleCall_toasts :
    (tab.settleCall page c outcome).toasts =
      (tab.settling page c outcome).commands.foldl tell tab.toasts := by
  unfold settleCall settling
  split
  · simp only [commands_toasts, push]
    rfl
  · simp [commands_toasts]

end Settling

/-- What sending a call does: it fails without a token, is settled by a reply that is at hand, and
is under way otherwise. -/
theorem send_cases (c : Page.Call) :
    c.operation.request? tab.session = none ∧
        tab.send page c = tab.settleCall page c (Operation.fail tab.session .notSignedIn) ∨
      ∃ request, c.operation.request? tab.session = some request ∧
        ((∃ r server, tab.server.take request = (some r, server) ∧
            tab.send page c = { tab with server, sent := tab.sent ++ [request] }.reply page c r) ∨
          ∃ server, tab.server.take request = (none, server) ∧
            tab.send page c =
              { tab with
                server
                sent := tab.sent ++ [request]
                flights := tab.flights ++ [⟨page, c⟩] }) := by
  unfold send
  cases asked : c.operation.request? tab.session with
  | none => exact .inl ⟨rfl, rfl⟩
  | some request =>
    refine .inr ⟨request, rfl, ?_⟩
    rcases taken : tab.server.take request with ⟨_ | r, server⟩
    · exact .inr ⟨server, rfl, by simp [taken]⟩
    · exact .inl ⟨r, server, rfl, by simp [taken]⟩

/-- Sending a call sends its request, if it has one. -/
theorem send_sent (c : Page.Call) :
    (tab.send page c).sent = tab.sent ++ (c.operation.request? tab.session).toList := by
  rcases tab.send_cases page c with
    ⟨unasked, sent⟩ | ⟨request, asked, ⟨r, server, -, sent⟩ | ⟨server, -, sent⟩⟩
  · rw [sent, unasked]
    simp
  · rw [sent, asked]
    simp [reply]
  · rw [sent, asked]
    rfl

@[simp] theorem send_number (c : Page.Call) : (tab.send page c).number = tab.number := by
  rcases tab.send_cases page c with
    ⟨-, sent⟩ | ⟨request, -, ⟨r, server, -, sent⟩ | ⟨server, -, sent⟩⟩
  · rw [sent, settleCall_number]
  · rw [sent, reply, settleCall_number]
  · rw [sent]

/-- What going to a location does: nothing where one is already, a move of the page at hand where
that page shows the place too, and otherwise another page with another number opens. -/
theorem goto_cases (location : Location) :
    tab.goto location = tab ∨
      (∃ chrome place, tab.goto location =
        { tab with location, chrome, page := tab.page.moved place }) ∨
      ∃ chrome, tab.goto location =
        { tab with
          location, chrome
          page := .opened (Place.ofPath location.path) tab.session
          number := tab.number + 1
          strays := []
          due := tab.due ++ [.mount (tab.number + 1)] } := by
  unfold goto
  split
  · exact .inl rfl
  · dsimp only
    split
    · exact .inr (.inl ⟨_, _, rfl⟩)
    · exact .inr (.inr ⟨_, rfl⟩)

@[simp] theorem goto_sent (location : Location) : (tab.goto location).sent = tab.sent := by
  rcases tab.goto_cases location with same | ⟨_, _, same⟩ | ⟨_, same⟩ <;> rw [same]

@[simp] theorem goto_session (location : Location) : (tab.goto location).session = tab.session := by
  rcases tab.goto_cases location with same | ⟨_, _, same⟩ | ⟨_, same⟩ <;> rw [same]

@[simp] theorem goto_flights (location : Location) : (tab.goto location).flights = tab.flights := by
  rcases tab.goto_cases location with same | ⟨_, _, same⟩ | ⟨_, same⟩ <;> rw [same]

@[simp] theorem goto_location (location : Location) : (tab.goto location).location = location := by
  unfold goto
  split
  · rename_i here
    exact here.symm
  · dsimp only
    split <;> rfl

/-- What a piece of work does. -/
inductive Works (tab : Tab) : Due → Tab → Prop
  | mounts : Works tab (.mount tab.number) (tab.takeTurn (tab.page.mounted tab.session))
  | calls (page : Nat) (c : Page.Call) : Works tab (.call page c) (tab.send page c)
  | goes (path : String) : Works tab (.goto tab.number path) (tab.follow path)
  | signsOut : Works tab .signedOut (tab.follow signInPath)
  | expires : Works tab .expiry ({ tab with expired := false }.follow signInPath)
  /-- The page to be mounted or to go to another place has been left. -/
  | left {due : Due} {page : Nat} (own : due.page? = some page) (elsewhere : page ≠ tab.number) :
      Works tab due tab
  /-- The end of the session has been seen to. -/
  | seen : Works tab .expiry tab

theorem goto_number_le (location : Location) : tab.number ≤ (tab.goto location).number := by
  rcases tab.goto_cases location with same | ⟨_, _, same⟩ | ⟨_, same⟩
  · exact Nat.le_of_eq (congrArg Tab.number same).symm
  · exact Nat.le_of_eq (congrArg Tab.number same).symm
  · rw [same]
    exact Nat.le_succ _

/-- Pages are numbered in the order of their opening. -/
theorem Works.number_le {tab after : Tab} {due : Due} (works : Works tab due after) :
    tab.number ≤ after.number := by
  cases works with
  | mounts => exact Nat.le_of_eq (takeTurn_number ..).symm
  | calls page c => exact Nat.le_of_eq (send_number ..).symm
  | goes path => exact goto_number_le ..
  | signsOut => exact goto_number_le ..
  | expires => exact goto_number_le { tab with expired := false } _
  | left own elsewhere => exact Nat.le_refl _
  | seen => exact Nat.le_refl _

theorem works_work (due : Due) : Works tab due (tab.work due) := by
  cases due with
  | mount page =>
    simp only [work]
    split
    · rename_i here
      exact here ▸ .mounts
    · rename_i elsewhere
      exact .left rfl elsewhere
  | call page c => exact .calls page c
  | goto page path =>
    simp only [work]
    split
    · rename_i here
      exact here ▸ .goes path
    · rename_i elsewhere
      exact .left rfl elsewhere
  | signedOut => exact .signsOut
  | expiry =>
    simp only [work]
    split
    · exact .expires
    · exact .seen

/-- The console on a path before its first page is mounted. -/
def launched (session : Session) (server : Server) (path : String) : Tab where
  session := session
  server := server
  location := .ofLink path
  chrome := Chrome.look session (Location.ofLink path).path
  page := .opened (Place.ofPath (Location.ofLink path).path) session
  due := [.mount 0]

theorem launched_page (session : Session) (server : Server) (path : String) :
    (launched session server path).page =
      .opened (Place.ofPath (Location.ofLink path).path) session := by
  rw [launched]

@[simp] theorem launched_due (session : Session) (server : Server) (path : String) :
    (launched session server path).due = [.mount 0] := rfl

theorem opened_eq (session : Session) (server : Server) (path : String) :
    opened session server path = (launched session server path).run := rfl

/-- An act of the page is taken in, and then the work is done that it makes due. -/
theorem act_page_eq (a : Page.Act) (entry : Entry) :
    tab.act (.page a) entry = (tab.takeTurn (tab.page.handle tab.session a entry)).run := rfl

section Runs

theorem next_eq_some {due : Due} {rest : List Due} (first : tab.due = due :: rest) :
    tab.next = some ({ tab with due := rest }.work due) := by
  simp [next, first]

theorem next_eq_none_iff : tab.next = none ↔ tab.due = [] := by
  unfold next
  split <;> simp_all

/-- The work that is done next is the first that is due. -/
theorem works_of_next {after : Tab} (next : tab.next = some after) :
    ∃ due rest, tab.due = due :: rest ∧ Works { tab with due := rest } due after := by
  cases first : tab.due with
  | nil => rw [(next_eq_none_iff tab).mpr first] at next; cases next
  | cons due rest =>
    rw [next_eq_some tab first] at next
    cases next
    exact ⟨due, rest, rfl, works_work _ due⟩

/-- What every piece of work carries over is carried over by any number of pieces. -/
theorem runFor_carries (Carried : Tab → Tab → Prop) (refl : ∀ tab, Carried tab tab)
    (trans : ∀ {a b c}, Carried a b → Carried b c → Carried a c)
    (works : ∀ (tab : Tab) due rest, tab.due = due :: rest →
      Carried tab ({ tab with due := rest }.work due))
    (fuel : Nat) : Carried tab (tab.runFor fuel) := by
  induction fuel generalizing tab with
  | zero => exact refl tab
  | succ fuel ih =>
    unfold runFor
    cases due : tab.due with
    | nil => rw [(next_eq_none_iff tab).mpr due]; exact refl tab
    | cons first rest =>
      rw [next_eq_some tab due]
      exact trans (works tab first rest due) (ih _)

end Runs

end Tab

end GrantConsole.Console
