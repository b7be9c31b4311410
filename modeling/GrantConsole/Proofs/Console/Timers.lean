import GrantConsole.Proofs.Console.Moves
import GrantConsole.Proofs.Toast.Queue

/-!
# Toasts and their timers

Whatever happens in the console, its toasts are what some pushes and dismissals have left, and each
toast that is shown has a timer which dismisses it within the lifetime of a toast. So none is left
when nothing is told for so long.
-/

namespace GrantConsole.Console

open GrantConsole.Api GrantConsole.Screen GrantConsole.Url

/-- The toasts are those of a run, and each of them will be dismissed within its lifetime. -/
structure Timed (toasts : Toasts) (timers : List Timer) (clock : Nat) : Prop where
  ran : ∃ actions, toasts = Toasts.run {} actions
  timer : ∀ toast ∈ toasts.queue, ∃ timer ∈ timers,
    timer.toast = toast.id ∧ timer.time ≤ clock + Toasts.lifetime

section Timed

variable {toasts : Toasts} {timers : List Timer} {clock : Nat}

theorem timed_empty : Timed {} [] 0 :=
  ⟨⟨[], rfl⟩, fun _ member => absurd member List.not_mem_nil⟩

theorem Timed.push (timed : Timed toasts timers clock) (kind : ToastKind) (text : String) :
    Timed (toasts.push kind text) (timers ++ [⟨clock + Toasts.lifetime, toasts.next⟩]) clock := by
  obtain ⟨⟨actions, ran⟩, timer⟩ := timed
  constructor
  · refine ⟨actions ++ [.push kind text], ?_⟩
    rw [Toasts.run_append, ← ran]
    rfl
  · intro toast member
    have there : toast ∈ (toasts.act (.push kind text)).queue := member
    rcases Toasts.mem_queue_act there with old | new
    · obtain ⟨t, among, own, soon⟩ := timer toast old
      exact ⟨t, List.mem_append_left _ among, own, soon⟩
    · exact ⟨_, List.mem_append_right _ List.mem_cons_self, new.symm, Nat.le_refl _⟩

/-- Any dismissals leave toasts that had timers, and those timers are not of what was dismissed. -/
theorem mem_queue_dismissals {ids : List Nat} {toast : Toast}
    (member : toast ∈ (toasts.run (ids.map .dismiss)).queue) :
    toast ∈ toasts.queue ∧ toast.id ∉ ids := by
  induction ids generalizing toasts with
  | nil => exact ⟨member, List.not_mem_nil⟩
  | cons id later ih =>
      obtain ⟨kept, others⟩ := ih member
      obtain ⟨old, apart⟩ := List.mem_filter.mp kept
      refine ⟨old, ?_⟩
      intro among
      rcases List.mem_cons.mp among with same | late
      · exact bne_iff_ne.mp apart same
      · exact others late

theorem Timed.dismissals (timed : Timed toasts timers clock) (ids : List Nat) :
    Timed (toasts.run (ids.map .dismiss)) timers clock := by
  obtain ⟨⟨actions, ran⟩, timer⟩ := timed
  constructor
  · exact ⟨actions ++ ids.map .dismiss, by rw [Toasts.run_append, ← ran]⟩
  · exact fun toast member => timer toast (mem_queue_dismissals member).1

end Timed

namespace Tab

/-- What is shown is timed. -/
def Timed (tab : Tab) : Prop :=
  Console.Timed tab.toasts tab.timers tab.clock

section Work

variable {tab after : Tab}

theorem Timed.commands (timed : tab.Timed) (page : Nat) (cs : List (Command Page.Call)) :
    (tab.commands page cs).Timed := by
  induction cs generalizing tab with
  | nil => exact timed
  | cons c cs ih =>
      rw [commands_cons]
      cases c with
      | toast kind text => exact ih (timed.push kind text)
      | call c => exact ih timed
      | goto path => exact ih timed

theorem Timed.takeTurn (timed : tab.Timed) (t : Turn Page Page.Call) : (tab.takeTurn t).Timed := by
  have turned : Tab.Timed { tab with page := t.state, session := t.session } := timed
  exact turned.commands tab.number t.commands

theorem Timed.settleCall (timed : tab.Timed) (page : Nat) (c : Page.Call)
    (outcome : Outcome c.Answer) : (tab.settleCall page c outcome).Timed := by
  unfold Tab.settleCall
  apply Timed.commands
  split <;> exact timed

theorem Timed.send (timed : tab.Timed) (page : Nat) (c : Page.Call) : (tab.send page c).Timed := by
  rcases tab.send_cases page c with
    ⟨-, sent⟩ | ⟨request, -, ⟨r, server, -, sent⟩ | ⟨server, -, sent⟩⟩
  · rw [sent]
    exact timed.settleCall page c _
  · have taken : Tab.Timed { tab with server, sent := tab.sent ++ [request] } := timed
    rw [sent]
    exact taken.settleCall page c _
  · rw [sent]
    exact timed

theorem Timed.goto (timed : tab.Timed) (location : Location) : (tab.goto location).Timed := by
  rcases tab.goto_cases location with same | ⟨_, _, same⟩ | ⟨_, same⟩ <;> rw [same] <;>
    exact timed

theorem Timed.works {due : Due} (timed : tab.Timed) (works : Works tab due after) :
    after.Timed := by
  cases works with
  | mounts => exact timed.takeTurn _
  | calls page c => exact timed.send page c
  | goes path => exact timed.goto _
  | signsOut => exact timed.goto _
  | expires =>
      have seen : Tab.Timed { tab with expired := false } := timed
      exact seen.goto _
  | left own elsewhere => exact timed
  | seen => exact timed

end Work

/-! ## Waiting -/

/-- The toasts whose timers fire within a time. -/
def expiring (tab : Tab) (ms : Nat) : List Nat :=
  (tab.timers.filter fun t => t.time ≤ tab.clock + ms).map Timer.toast

section Waiting

variable {tab after : Tab}

theorem wait_toasts (tab : Tab) (ms : Nat) :
    (tab.wait ms).toasts = tab.toasts.run ((tab.expiring ms).map .dismiss) := by
  unfold expiring Toasts.run
  rw [List.map_map, List.foldl_map]
  rfl

/-- A toast that is shown after a while had a timer that has not fired yet. -/
theorem Timed.outlasts (timed : tab.Timed) {ms : Nat} {toast : Toast}
    (member : toast ∈ (tab.wait ms).toasts.queue) :
    ∃ timer ∈ tab.timers, timer.toast = toast.id ∧ tab.clock + ms < timer.time ∧
      timer.time ≤ tab.clock + Toasts.lifetime := by
  rw [wait_toasts] at member
  obtain ⟨old, spared⟩ := mem_queue_dismissals member
  obtain ⟨timer, among, own, soon⟩ := timed.timer toast old
  refine ⟨timer, among, own, ?_, soon⟩
  apply Nat.lt_of_not_le
  intro fires
  exact spared (own ▸ List.mem_map_of_mem (List.mem_filter.mpr ⟨among, decide_eq_true fires⟩))

theorem Timed.wait (timed : tab.Timed) (ms : Nat) : (tab.wait ms).Timed := by
  have dismissed := Console.Timed.dismissals timed (tab.expiring ms)
  refine ⟨wait_toasts tab ms ▸ dismissed.ran, ?_⟩
  intro toast member
  obtain ⟨timer, among, own, late, soon⟩ := timed.outlasts member
  refine ⟨timer, List.mem_filter.mpr ⟨among, decide_eq_true late⟩, own, ?_⟩
  exact Nat.le_trans soon (Nat.add_le_add_right (Nat.le_add_right ..) _)

theorem Moves.timed (moves : Moves tab after) (timed : tab.Timed) : after.Timed := by
  cases moves with
  | works next =>
      obtain ⟨due, rest, -, works⟩ := works_of_next tab next
      have before : Tab.Timed { tab with due := rest } := timed
      exact before.works works
  | acts rests offered entry => exact timed.takeTurn _
  | signsOut rests => exact timed
  | visits rests path => exact timed.goto _
  | @answers _ nth flight held r =>
      have before : Tab.Timed { tab with flights := tab.flights.eraseIdx nth } := timed
      exact before.settleCall flight.page flight.call _
  | dismisses id => exact Console.Timed.dismissals timed [id]
  | waits ms => exact timed.wait ms
  | keeps key value => cases value <;> exact timed
  | dresses strays => exact timed

theorem Leads.timed (leads : Leads tab after) (timed : tab.Timed) : after.Timed := by
  induction leads with
  | refl => exact timed
  | tail _ moves ih => exact moves.timed ih

/-- In all that the console comes to, its toasts are what pushes and dismissals have left, and none
of them is left when the lifetime of a toast goes by. -/
theorem toasts_expire {session : Session} {server : Server} {path : String}
    (leads : Leads (launched session server path) tab) {ms : Nat} (long : Toasts.lifetime ≤ ms) :
    (∃ actions, tab.toasts = Toasts.run {} actions) ∧ (tab.wait ms).toasts.queue = [] := by
  have timed := leads.timed timed_empty
  refine ⟨timed.ran, ?_⟩
  rw [List.eq_nil_iff_forall_not_mem]
  intro toast member
  obtain ⟨timer, -, -, late, soon⟩ := timed.outlasts member
  omega

end Waiting

end Tab

end GrantConsole.Console
