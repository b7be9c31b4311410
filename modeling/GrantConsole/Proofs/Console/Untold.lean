import GrantConsole.Proofs.Console.Failures

/-!
# Loads that fail unseen

The loads of lists, and of what is chosen from in their dialogs, are the only calls whose failure is
not told: no toast is pushed, the page shows the same whatever the failure was, and no more than the
end of the session follows. The failure of any other call is told in a toast of its own.
-/

namespace GrantConsole.Console

open GrantConsole.Api GrantConsole.Markup GrantConsole.Screen GrantConsole.Url

namespace Page

/-- The call loads a list, or what is chosen from in its dialog. -/
def Call.lists : Call → Bool
  | grants .load => true
  | expenses (.load _) | expenses .categories => true
  | approvals .loadPending | approvals .load => true
  | categories .load => true
  | roles (.load _) | roles .users => true
  | users .load => true
  | rules (.load _) => true
  | _ => false

/-- What a page shows once it has taken in the failure of a call of its own. -/
def viewAfter (p : Page) (session : Session) (c : Call) (e : Failure) : Node Act :=
  ((settle (some p) session c (.error e)).state.getD p).view

/-- A load of a list failed: the page is spared, says nothing, and shows nothing of the failure. -/
structure Conceals (p : Page) (c : Call) (t : Turn (Option Page) Call) : Prop where
  commands : t.commands = []
  page : ∃ q, t.state = some q ∧ p.Spared q ∧ q.dialog? = p.dialog? ∧
    ∀ session other, p.viewAfter session c other = q.view

section Settling

variable {p : Page} {c : Call}

theorem settle_conceals (own : c.kind = p.kind) (lists : c.lists = true) (session : Session)
    (e : Failure) : p.Conceals c (settle (some p) session c (.error e)) := by
  cases c with
  | signIn c | overview c | ruleEditor c => cases lists
  | grants c =>
    cases p <;> cases own
    cases c with
    | load => exact ⟨rfl, _, rfl, ⟨rfl, rfl, rfl, rfl⟩, rfl, fun _ _ => rfl⟩
    | create _ | replace _ _ | delete _ => cases lists
  | expenses c =>
    cases p <;> cases own
    cases c with
    | load _ | categories => exact ⟨rfl, _, rfl, ⟨rfl, rfl, rfl, rfl⟩, rfl, fun _ _ => rfl⟩
    | create _ | delete _ => cases lists
  | approvals c =>
    cases p <;> cases own
    cases c with
    | loadPending | load => exact ⟨rfl, _, rfl, ⟨rfl, rfl, rfl, rfl⟩, rfl, fun _ _ => rfl⟩
    | decide _ _ _ | delete _ => cases lists
  | categories c =>
    cases p <;> cases own
    cases c with
    | load => exact ⟨rfl, _, rfl, ⟨rfl, rfl, rfl, rfl⟩, rfl, fun _ _ => rfl⟩
    | create _ | delete _ => cases lists
  | roles c =>
    cases p <;> cases own
    cases c with
    | load _ | users => exact ⟨rfl, _, rfl, ⟨rfl, rfl, rfl, rfl⟩, rfl, fun _ _ => rfl⟩
    | assign _ | delete _ => cases lists
  | users c =>
    cases p <;> cases own
    cases c with
    | load => exact ⟨rfl, _, rfl, ⟨rfl, rfl, rfl, rfl⟩, rfl, fun _ _ => rfl⟩
    | fetch _ | create _ | update _ _ | delete _ => cases lists
  | rules c =>
    cases p <;> cases own
    cases c with
    | load _ => exact ⟨rfl, _, rfl, ⟨rfl, rfl, rfl, rfl⟩, rfl, fun _ _ => rfl⟩
    | toggle _ _ | delete _ | templates | applyTemplate _ _ _ => cases lists

/-- A call that neither loads a list nor changes anything tells its failure. -/
theorem settle_tells (lists : c.lists = false) (mutates : c.mutates = false) (page : Option Page)
    (session : Session) (e : Failure) :
    ∃ before, (settle page session c (.error e)).commands = [failure (before ++ e.message)] := by
  cases c with
  | signIn c => exact ⟨"Sign-in failed: ", rfl⟩
  | overview c => exact ⟨"Could not load projection: ", rfl⟩
  | grants c | expenses c | approvals c | categories c | roles c | users c =>
    cases c <;> cases lists <;> cases mutates
  | rules c =>
    cases c with
    | templates => exact ⟨"Could not load templates: ", rfl⟩
    | load _ => cases lists
    | toggle _ _ | delete _ | applyTemplate _ _ _ => cases mutates
  | ruleEditor c =>
    cases c with
    | locate _ _ => exact ⟨"Could not load rule: ", rfl⟩
    | submit _ => cases mutates

end Settling

end Page

namespace Tab

/-- A load of a list failed and nobody is told: nothing follows but the end of the session, if the
failure means that, and the page does not show which failure it was. -/
structure Untold (tab after : Tab) (c : Page.Call) : Prop where
  toasts : after.toasts = tab.toasts
  spared : tab.page.Spared after.page
  dialog : after.page.dialog? = tab.page.dialog?
  due : ∀ due ∈ after.due, due ∈ tab.due ∨ due = .expiry
  alike : ∀ session other, tab.page.viewAfter session c other = after.page.view

/-- What becomes of the failure of a call: those of lists are not told, all others are, once. -/
def Reported (tab after : Tab) (c : Page.Call) (e : Failure) : Prop :=
  if c.lists then Untold tab after c
  else ∃ before, after.toasts = tab.toasts.push .error (before ++ e.message)

section Reporting

variable {tab after : Tab} {c : Page.Call} {outcome : Outcome c.Answer} {e : Failure}

theorem Settles.untold (sound : tab.Sound) (settles : tab.Settles tab.number c outcome after)
    (lists : c.lists = true) (failed : outcome.result = .error e) : Untold tab after c := by
  have own : c.kind = tab.page.kind := sound.own _ settles.mem_calls rfl
  have taken := settling_of_failed failed ▸ settles.takesTurn
  obtain ⟨silent, q, left, spared, dialog, alike⟩ :=
    Page.settle_conceals own lists outcome.session e
  have now : after.page = q := by rw [taken.page, left, Option.getD_some]
  refine ⟨?_, now ▸ spared, now ▸ dialog, fun due mem => ?_, now ▸ alike⟩
  · rw [taken.toasts, silent]
    rfl
  · refine (taken.due due mem).imp_right fun added => added.resolve_right fun made => ?_
    rw [silent] at made
    cases made

theorem Settles.told (settles : tab.Settles tab.number c outcome after) (lists : c.lists = false)
    (mutates : c.mutates = false) (failed : outcome.result = .error e) :
    ∃ before, after.toasts = tab.toasts.push .error (before ++ e.message) := by
  have taken := settling_of_failed failed ▸ settles.takesTurn
  obtain ⟨before, told⟩ :=
    Page.settle_tells lists mutates (some tab.page) outcome.session e
  refine ⟨before, ?_⟩
  rw [taken.toasts, told]
  rfl

theorem Settles.reported (sound : tab.Sound) (settles : tab.Settles tab.number c outcome after)
    (failed : outcome.result = .error e) : Reported tab after c e := by
  unfold Reported
  cases lists : c.lists with
  | true => exact settles.untold sound lists failed
  | false =>
    cases mutates : c.mutates with
    | true => exact (settles.failsOnce sound mutates failed).told
    | false => exact settles.told lists mutates failed

end Reporting

/-- In all runs the failure of a call of the page at hand is told in a toast, unless the call was to
load a list or what is chosen from in its dialog: of that nobody is told. -/
theorem failed_loads_untold {session : Session} {server : Server} {path : String} {tab after : Tab}
    {c : Page.Call} {outcome : Outcome c.Answer} {e : Failure}
    (leads : Leads (launched session server path) tab)
    (settles : tab.Settles tab.number c outcome after) (failed : outcome.result = .error e) :
    Reported tab after c e :=
  settles.reported (leads.sound (launched_sound session server path)) failed

/-- The categories are loaded while the server is out of order. -/
def brokenServer : Server where
  replies := [some (.answer ⟨500, ""⟩)]

/-- The console on the page of the categories, which is mounted and loads them. -/
theorem leads_load :
    ∃ tab after : Tab, ∃ c : Page.Call, ∃ outcome : Outcome c.Answer,
      Leads (launched ⟨some [("access_token", "t")]⟩ brokenServer "/categories") tab ∧
      tab.Settles tab.number c outcome after ∧ c.lists = true ∧
      outcome.result = .error (.refused 500 none) ∧ tab.toasts = {} := by
  let session : Session := ⟨some [("access_token", "t")]⟩
  let start : Tab := launched session brokenServer "/categories"
  let c : Page.Call := .categories .load
  have page : start.page = .categories {} := by
    have place : Place.ofPath (Location.ofLink "/categories").path = .categories := by decide
    rw [launched_page, place]
    rfl
  let tab : Tab := { start with due := [] }.takeTurn (Page.mounted (.categories {}) session)
  have next : start.next = some tab := by
    rw [next_eq_some start (launched_due ..)]
    show some ({ start with due := [] }.takeTurn (start.page.mounted session)) = some tab
    rw [page]
    rfl
  have settles : tab.Settles tab.number c (c.operation.settle tab.session (.ok ⟨500, ""⟩))
      ({ tab with due := [] }.send tab.number c) :=
    .atOnce (r := .answer ⟨500, ""⟩) rfl rfl rfl
  exact ⟨tab, _, c, _, .single (.works next), settles, rfl, rfl, rfl⟩

/-- Nobody is told that the categories could not be loaded. -/
theorem failed_loads_untold_categories :
    ∃ tab after : Tab, ∃ c : Page.Call,
      Leads (launched ⟨some [("access_token", "t")]⟩ brokenServer "/categories") tab ∧
      Reported tab after c (.refused 500 none) ∧ after.toasts = {} := by
  obtain ⟨tab, after, c, outcome, leads, settles, lists, failed, none⟩ := leads_load
  have reported := failed_loads_untold leads settles failed
  have untold := reported
  rw [Reported, if_pos lists] at untold
  exact ⟨tab, after, c, leads, reported, untold.toasts.trans none⟩

/-- Not every load that fails is told in a toast with the text of its failure. -/
theorem load_failure_not_told :
    ¬ ∀ (session : Session) (server : Server) (path : String) (tab after : Tab) (c : Page.Call)
      (outcome : Outcome c.Answer) (e : Failure), Leads (launched session server path) tab →
        tab.Settles tab.number c outcome after → c.lists = true → outcome.result = .error e →
          ∃ toast ∈ after.toasts.queue, toast.kind = .error ∧
            e.message.toList <:+: toast.text.toList := by
  intro all
  obtain ⟨tab, after, c, outcome, leads, settles, lists, failed, none⟩ := leads_load
  obtain ⟨toast, mem, -⟩ := all _ _ _ tab after c outcome _ leads settles lists failed
  have untold := settles.untold (leads.sound (launched_sound ..)) lists failed
  rw [untold.toasts, none] at mem
  cases mem

end Tab

end GrantConsole.Console
