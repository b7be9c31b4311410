import GrantConsole.Proofs.Console.Failing
import GrantConsole.Proofs.Console.Moves

/-!
# Failures are told once and change nothing else

A call of the page at hand fails when its reply says so, when the reply breaks off or when there is
no token to send it with. If the call was to change something, taking in the failure leaves all rows
and counts, the drafts and all that was typed as they are; a deletion closes its question. One toast
is pushed, and it ends with what the failure says. A submit that fails is always the one that its
editor waits for, so that no failure goes untold.
-/

namespace GrantConsole.Console

open GrantConsole.Api GrantConsole.Screen GrantConsole.Url

namespace Tab

/-- The console takes in what came of a call of a page: that it could not be sent, the reply that
was at hand when it was sent, or one that it has waited for. -/
inductive Settles (tab : Tab) (page : Nat) (c : Page.Call) : Outcome c.Answer → Tab → Prop
  | unsent {rest : List Due} (first : tab.due = .call page c :: rest)
      (unasked : c.operation.request? tab.session = none) :
      Settles tab page c (Operation.fail tab.session .notSignedIn)
        ({ tab with due := rest }.send page c)
  | atOnce {rest : List Due} {request : Request} {r : Reply} {server : Server}
      (first : tab.due = .call page c :: rest)
      (asked : c.operation.request? tab.session = some request)
      (taken : tab.server.take request = (some r, server)) :
      Settles tab page c (c.operation.settle tab.session r.outcome)
        ({ tab with due := rest }.send page c)
  | answered {nth : Nat} (rests : tab.due = []) (held : tab.flights[nth]? = some ⟨page, c⟩)
      (r : Reply) :
      Settles tab page c (c.operation.settle tab.session r.outcome)
        ({ tab with flights := tab.flights.eraseIdx nth }.reply page c r)

/-- A call that was to change something failed: nothing changed but the question of a deletion, one
toast says why, and nothing follows but the end of the session, if that is why. -/
structure FailsOnce (tab after : Tab) (c : Page.Call) (e : Failure) : Prop where
  spared : tab.page.Spared after.page
  dialog : after.page.dialog? = tab.page.dialogAfter c
  told : ∃ before, after.toasts = tab.toasts.push .error (before ++ e.message)
  due : ∀ due ∈ after.due, due ∈ tab.due ∨ due = .expiry

/-- A tab takes in the turn with which what came of a call of a page is met. -/
structure TakesTurn (tab : Tab) (number : Nat) (t : Turn (Option Page) Page.Call) (after : Tab) :
    Prop where
  page : after.page = t.state.getD tab.page
  session : after.session = t.session
  toasts : after.toasts = t.commands.foldl tell tab.toasts
  due : ∀ due ∈ after.due,
    due ∈ tab.due ∨ due = .expiry ∨ due ∈ t.commands.filterMap (dueOf number)

section Settling

variable {tab after : Tab} {page : Nat} {c : Page.Call} {outcome : Outcome c.Answer} {e : Failure}

/-- Taking in what came of a call is one of the moves. -/
theorem Settles.moves (settles : tab.Settles page c outcome after) : Moves tab after := by
  cases settles with
  | unsent first unasked => exact .works (next_eq_some tab first)
  | atOnce first asked taken => exact .works (next_eq_some tab first)
  | answered rests held r => exact .answers rests held r

/-- The call had no answer before. -/
theorem Settles.mem_calls (settles : tab.Settles page c outcome after) : ⟨page, c⟩ ∈ tab.calls := by
  have due {rest : List Due} (first : tab.due = .call page c :: rest) : ⟨page, c⟩ ∈ tab.calls := by
    unfold calls
    rw [first]
    exact List.mem_cons_self
  cases settles with
  | unsent first unasked => exact due first
  | atOnce first asked taken => exact due first
  | answered rests held r => exact List.mem_append_right _ (List.mem_of_getElem? held)

/-- The outcome is taken in by a tab with the same page, number and toasts, and nothing more due. -/
theorem Settles.settleCall (settles : tab.Settles page c outcome after) :
    ∃ taking : Tab, taking.page = tab.page ∧ taking.number = tab.number ∧
      taking.toasts = tab.toasts ∧ (∀ due ∈ taking.due, due ∈ tab.due) ∧
      after = taking.settleCall page c outcome := by
  have among {rest : List Due} (first : tab.due = .call page c :: rest) :
      ∀ due ∈ rest, due ∈ tab.due := fun due mem => first ▸ List.mem_cons_of_mem _ mem
  cases settles with
  | @unsent rest first unasked =>
    refine ⟨{ tab with due := rest }, rfl, rfl, rfl, among first, ?_⟩
    unfold send
    rw [unasked]
  | @atOnce rest request r server first asked taken =>
    refine ⟨{ tab with due := rest, server, sent := tab.sent ++ [request] }, rfl, rfl, rfl,
      among first, ?_⟩
    unfold send
    simp only [asked, taken]
    rfl
  | @answered nth rests held r =>
    exact ⟨{ tab with flights := tab.flights.eraseIdx nth }, rfl, rfl, rfl, fun _ mem => mem, rfl⟩

/-- In a rule editor a submit without an answer is the one that it waits for. -/
theorem Sound.busy (sound : tab.Sound) (mem : ⟨tab.number, c⟩ ∈ tab.calls)
    (mutates : c.mutates = true) :
    ∀ s, tab.page = .ruleEditor s → s.draft.value.isSubmitting = true := by
  intro s here
  have own : c.kind = tab.page.kind := sound.own _ mem rfl
  have submits : c.submits = true := by
    rw [here] at own
    cases c <;> cases own
    rename_i c
    cases c with
    | locate grant id => cases mutates
    | submit submission => rfl
  have some : 0 < tab.calls.countP (Flight.isOf tab.number Page.Call.submits) :=
    List.countP_pos_iff.mpr ⟨_, mem, by simp [Flight.isOf, submits]⟩
  have counted := (sound.steady s here).busy
  cases waits : s.draft.value.isSubmitting with
  | true => rfl
  | false =>
    rw [waits] at counted
    exact absurd counted (Nat.ne_of_gt some)

/-- What comes of a call is taken in as a turn of the page at hand, or of none. -/
theorem Settles.takesTurn (settles : tab.Settles page c outcome after) :
    TakesTurn tab page (tab.settling page c outcome) after := by
  obtain ⟨taking, samePage, sameNumber, sameToasts, among, rfl⟩ := settles.settleCall
  have turn : taking.settling page c outcome = tab.settling page c outcome := by
    rw [settling, settling, samePage, sameNumber]
  refine ⟨by rw [settleCall_page, turn, samePage], by rw [settleCall_session, turn],
    by rw [settleCall_toasts, turn, sameToasts], fun due mem => ?_⟩
  rw [settleCall_due, turn] at mem
  rcases List.mem_append.mp mem with before | made
  · exact (List.mem_append.mp before).imp (among due) fun ended => .inl (mem_expiryOf ended)
  · exact .inr (.inr made)

/-- A failure is taken in by the page at hand. -/
theorem settling_of_failed (failed : outcome.result = .error e) :
    tab.settling tab.number c outcome =
      Page.settle (some tab.page) outcome.session c (.error e) := by
  rw [settling, if_pos rfl, failed]

theorem Settles.failsOnce (sound : tab.Sound) (settles : tab.Settles tab.number c outcome after)
    (mutates : c.mutates = true) (failed : outcome.result = .error e) :
    FailsOnce tab after c e := by
  have mem := settles.mem_calls
  have taken := settling_of_failed failed ▸ settles.takesTurn
  obtain ⟨⟨before, told⟩, -, q, left, spared, dialog⟩ :=
    Page.settle_fails (sound.own _ mem rfl) mutates (sound.busy mem mutates) outcome.session e
  have now : after.page = q := by rw [taken.page, left, Option.getD_some]
  refine ⟨now ▸ spared, now ▸ dialog, ⟨before, ?_⟩, fun due mem => ?_⟩
  · rw [taken.toasts, told]
    rfl
  · refine (taken.due due mem).imp_right fun added => added.resolve_right fun made => ?_
    rw [told] at made
    cases made

end Settling

/-- Whatever the console has done, a call of the page at hand that was to change something and
failed changes nothing but the question of a deletion, and is told once. -/
theorem failures_told_once {session : Session} {server : Server} {path : String} {tab after : Tab}
    {c : Page.Call} {outcome : Outcome c.Answer} {e : Failure}
    (leads : Leads (launched session server path) tab)
    (settles : tab.Settles tab.number c outcome after) (mutates : c.mutates = true)
    (failed : outcome.result = .error e) : FailsOnce tab after c e :=
  settles.failsOnce (leads.sound (launched_sound session server path)) mutates failed

/-- A new rule is submitted while the server cannot be reached. -/
theorem failures_told_once_offline :
    ∃ tab after,
      Leads (launched ⟨some [("access_token", "t")]⟩ ⟨[some (.broken "offline")], []⟩ "/rules/new")
        tab ∧
      FailsOnce tab after (.ruleEditor (.submit ⟨.create, .blank ""⟩)) (.transport "offline") := by
  let session : Session := ⟨some [("access_token", "t")]⟩
  let start : Tab := launched session ⟨[some (.broken "offline")], []⟩ "/rules/new"
  let editor : RuleEditor := .opened none session
  let c : Page.Call := .ruleEditor (.submit ⟨.create, .blank ""⟩)
  have page : start.page = .ruleEditor editor := by
    have place : Place.ofPath (Location.ofLink "/rules/new").path = .newRule := by decide
    rw [launched_page, place]
    rfl
  let shown : Tab := { start with due := [], page := .ruleEditor editor }
  have next : start.next = some shown := by
    have same : { start with due := [] } = shown := by simp only [shown, ← page]
    rw [next_eq_some _ (launched_due ..), same]
    rfl
  have offered : shown.page.Offers ⟨"", "", []⟩ { event := .submit } (.ruleEditor .submit) :=
    ⟨rfl, nofun, nofun, fun _ => ⟨rfl, editor, rfl, rfl, rfl⟩⟩
  let tab := shown.takeTurn (shown.page.handle shown.session (.ruleEditor .submit) {})
  have leads : Leads start tab :=
    .tail (.single (.works next)) (.acts rfl (fun _ => ⟨_, _, offered⟩) {})
  have settles : tab.Settles 0 c (c.operation.settle tab.session (Reply.outcome (.broken "offline")))
      ({ tab with due := [] }.send 0 c) := .atOnce rfl rfl rfl
  exact ⟨tab, _, leads, failures_told_once leads settles rfl rfl⟩

end Tab

end GrantConsole.Console
