import GrantConsole.Proofs.Api.Call
import GrantConsole.Proofs.Console.Changes
import GrantConsole.Proofs.Console.Questions

/-!
# Requests of a kind

Pages that open and answers that come call for nothing but reading. So if a kind of requests takes
in no reading, such a request is sent only for a call that an act has made, and a run that starts
with one call sends at most the request of that call.
-/

namespace GrantConsole.Console.Tab

open GrantConsole.Api GrantConsole.Screen GrantConsole.Url

/-- The requests that were sent with a method of a kind, in order. -/
def requests (kind : Method → Bool) (tab : Tab) : List Request :=
  tab.sent.filter fun request => kind request.method

/-- None of the calls that are due is of a kind. -/
def Harmless (kind : Method → Bool) (tab : Tab) : Prop :=
  ∀ page c, .call page c ∈ tab.due → kind c.operation.method = false

/-- No request of a kind is sent, and nothing that is due will send one. -/
structure Spares (kind : Method → Bool) (a b : Tab) : Prop where
  harmless : b.Harmless kind
  sent : b.requests kind = a.requests kind

section Sending

variable {kind : Method → Bool} {tab : Tab}

theorem harmless_append {dues : List Due} (harmless : tab.Harmless kind)
    (new : ∀ page c, .call page c ∈ dues → kind c.operation.method = false) {other : Tab}
    (due : other.due = tab.due ++ dues) : other.Harmless kind := by
  intro page c mem
  rw [due] at mem
  exact (List.mem_append.mp mem).elim (harmless page c) (new page c)

/-- The calls among the work that commands make due are those among the commands. -/
theorem call_mem_dueOf {page other : Nat} {c : Page.Call} {cs : List (Command Page.Call)}
    (mem : .call other c ∈ cs.filterMap (dueOf page)) : .call c ∈ cs := by
  obtain ⟨command, given, same⟩ := List.mem_filterMap.mp mem
  cases command with
  | toast kind text => cases same
  | call d =>
    cases same
    exact given
  | goto path => cases same

theorem takeTurn_spares (harmless : tab.Harmless kind) {t : Turn Page Page.Call}
    (new : ∀ c, .call c ∈ t.commands → kind c.operation.method = false) :
    Spares kind tab (tab.takeTurn t) where
  harmless := harmless_append harmless (fun _ c mem => new c (call_mem_dueOf mem))
    (tab.takeTurn_due t)
  sent := by simp [requests]

theorem goto_spares (harmless : tab.Harmless kind) (location : Location) :
    Spares kind tab (tab.goto location) := by
  rcases tab.goto_cases location with stays | ⟨chrome, place, moves⟩ | ⟨chrome, opens⟩
  · rw [stays]
    exact ⟨harmless, rfl⟩
  · rw [moves]
    exact ⟨harmless, rfl⟩
  · rw [opens]
    exact ⟨harmless_append harmless (by simp) rfl, rfl⟩

theorem follow_spares (harmless : tab.Harmless kind) (path : String) :
    Spares kind tab (tab.follow path) :=
  goto_spares harmless (tab.location.follow path)

theorem harmless_of_due (rests : tab.due = []) : tab.Harmless kind := by
  intro page c mem
  rw [rests] at mem
  cases mem

variable (reads : kind .get = false)
include reads

theorem settleCall_spares (harmless : tab.Harmless kind) (page : Nat) (c : Page.Call)
    (outcome : Outcome c.Answer) : Spares kind tab (tab.settleCall page c outcome) where
  harmless := by
    refine harmless_append harmless ?_ (by rw [settleCall_due, List.append_assoc])
    intro other d mem
    rcases List.mem_append.mp mem with ended | made
    · cases mem_expiryOf ended
    · rw [Page.call_settle_method (call_mem_dueOf made), reads]
  sent := by simp [requests]

theorem send_harmless (harmless : tab.Harmless kind) (page : Nat) (c : Page.Call) :
    (tab.send page c).Harmless kind := by
  rcases tab.send_cases page c with
    ⟨-, sent⟩ | ⟨request, -, ⟨r, server, -, sent⟩ | ⟨server, -, sent⟩⟩
  · rw [sent]
    exact (settleCall_spares reads harmless page c _).harmless
  · have still : Harmless kind { tab with server, sent := tab.sent ++ [request] } := harmless
    rw [sent]
    exact (settleCall_spares reads still page c (c.operation.settle tab.session r.outcome)).harmless
  · rw [sent]
    exact harmless

theorem send_spares (harmless : tab.Harmless kind) (page : Nat) {c : Page.Call}
    (spares : kind c.operation.method = false) : Spares kind tab (tab.send page c) where
  harmless := send_harmless reads harmless page c
  sent := by
    unfold requests
    rw [send_sent, List.filter_append]
    cases asked : c.operation.request? tab.session with
    | none => simp
    | some request =>
      have other : kind request.method = false := (Operation.request?_eq asked).1 ▸ spares
      simp [other]

theorem work_spares (harmless : tab.Harmless kind) {due : Due}
    (spares : ∀ page c, due = .call page c → kind c.operation.method = false) :
    Spares kind tab (tab.work due) := by
  cases due with
  | mount page =>
    simp only [work]
    split
    · refine takeTurn_spares harmless fun c mounted => ?_
      rw [Page.call_mounted_method mounted, reads]
    · exact ⟨harmless, rfl⟩
  | call page c => exact send_spares reads harmless page (spares page c rfl)
  | goto page path =>
    simp only [work]
    split
    · exact follow_spares harmless path
    · exact ⟨harmless, rfl⟩
  | signedOut => exact follow_spares harmless signInPath
  | expiry =>
    simp only [work]
    split
    · have fresh : Harmless kind { tab with expired := false } := harmless
      obtain ⟨still, sent⟩ := follow_spares fresh signInPath
      exact ⟨still, sent⟩
    · exact ⟨harmless, rfl⟩

theorem runFor_spares (harmless : tab.Harmless kind) (fuel : Nat) :
    Spares kind tab (tab.runFor fuel) := by
  refine tab.runFor_carries (fun a b => a.Harmless kind → Spares kind a b)
    (fun _ still => ⟨still, rfl⟩) (fun first second still => ?_)
    (fun tab due rest first still => ?_) fuel harmless
  · obtain ⟨after, sent⟩ := first still
    exact ⟨(second after).harmless, (second after).sent.trans sent⟩
  · have spares : ∀ page c, due = .call page c → kind c.operation.method = false := by
      rintro page c rfl
      exact still page c (by rw [first]; exact List.mem_cons_self)
    have others : Harmless kind { tab with due := rest } := fun page c mem =>
      still page c (by rw [first]; exact List.mem_cons_of_mem due mem)
    obtain ⟨after, sent⟩ := work_spares reads others spares
    exact ⟨after, sent⟩

theorem run_spares (harmless : tab.Harmless kind) : Spares kind tab tab.run := by
  obtain ⟨still, sent⟩ := runFor_spares reads harmless workLimit
  exact ⟨still, sent⟩

/-- A run that starts with one call only sends its request, and no other of the kind. -/
theorem run_requests_of_call {page : Nat} {c : Page.Call} (alone : tab.due = [.call page c]) :
    tab.run.requests kind =
      tab.requests kind ++
        (c.operation.request? tab.session).toList.filter fun request => kind request.method := by
  have first : tab.runFor workLimit = runFor 999 ({ tab with due := [] }.send page c) := by
    show runFor (999 + 1) tab = _
    rw [runFor, next_eq_some tab alone]
    rfl
  have still : Harmless kind { tab with due := [] } := harmless_of_due rfl
  have rest := runFor_spares reads (send_harmless reads still page c) 999
  calc tab.run.requests kind
    _ = (runFor 999 ({ tab with due := [] }.send page c)).requests kind := by
      unfold run
      rw [first]
      rfl
    _ = ({ tab with due := [] }.send page c).requests kind := rest.sent
    _ = _ := by
      unfold requests
      rw [send_sent, List.filter_append]

end Sending

end GrantConsole.Console.Tab
