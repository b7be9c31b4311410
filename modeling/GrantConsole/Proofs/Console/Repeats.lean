import Mathlib.Logic.Function.Iterate
import GrantConsole.Proofs.Api.Call
import GrantConsole.Proofs.Console.Kinds
import GrantConsole.Proofs.Console.Steps
import GrantConsole.Proofs.Screen.Repeats

/-!
# Controls that are used again

Between a request and its answer an operator may use the same control again. The sign-in page and
the rule editor wait for the answer and send nothing more. On all other pages each further click
sends the same request again, and nothing in the document tells that one is under way.
-/

namespace GrantConsole.Console

open GrantConsole.Api GrantConsole.Markup GrantConsole.Screen

namespace Page

/-- The page makes no call while the answer to an earlier one is outstanding. -/
def waits : Page → Bool
  | signIn _ => true
  | ruleEditor _ => true
  | _ => false

/-- An act makes a call and leaves a page on which it makes the call again, unless that page
waits. -/
structure Repeats (p : Page) (session : Session) (act : Act) (entry : Entry) (c : Call) (q : Page) :
    Prop where
  makes : p.handle session act entry = ⟨q, session, [.call c]⟩
  again : q.handle session act entry = ⟨q, session, if p.waits then [] else [.call c]⟩
  waits : q.waits = p.waits
  /-- The page does not show that it asked for a change. -/
  shows : p.waits = false → c.operation.method ≠ .get → q.view = p.view

variable {p q : Page} {session : Session} {act : Act} {entry : Entry} {c : Call}

section Screens

variable {S D : Type} {f : S → Page} {g : D → Call} {s : S} {d : D}

theorem repeats_of_turns (turn : S → Turn S D) {t : S}
    (embeds : ∀ s, (f s).handle session act entry = (turn s).map f g)
    (makes : turn s = ⟨t, session, [.call d]⟩)
    (again : turn t = ⟨t, session, if (f s).waits then [] else [.call d]⟩)
    (waits : (f t).waits = (f s).waits)
    (shows : (f s).waits = false → (g d).operation.method ≠ .get → (f t).view = (f s).view) :
    (f s).Repeats session act entry (g d) (f t) where
  makes := by
    rw [embeds, makes]
    rfl
  again := by
    rw [embeds, again]
    cases (f s).waits <;> rfl
  waits := waits
  shows := shows

/-- The call goes out and the screen stays as it was. -/
theorem repeats_of_same {turn : Turn S D} (same : turn = ⟨s, session, [.call d]⟩)
    (free : (f s).waits = false) (embeds : (f s).handle session act entry = turn.map f g) :
    (f s).Repeats session act entry (g d) (f s) where
  makes := by
    rw [embeds, same]
    rfl
  again := by
    rw [embeds, same, free]
    rfl
  waits := rfl
  shows _ _ := rfl

end Screens

/-- Every act that makes a call is one that can be repeated. -/
theorem repeats_of_call (called : .call c ∈ (p.handle session act entry).commands) :
    ∃ q, p.Repeats session act entry c q := by
  revert called
  fun_cases handle p session act entry
  case case10 =>
    intro called
    cases called
  all_goals
    rw [Turn.call_mem_map]
    rintro ⟨c, called, rfl⟩
  case case1 s a =>
    obtain ⟨rfl, makes⟩ := SignIn.handle_of_call called
    have again : SignIn.handle { s with busy := true } session .submit entry =
        ⟨{ s with busy := true }, session, []⟩ := rfl
    exact ⟨signIn { s with busy := true },
      repeats_of_turns (fun s => s.handle session .submit entry) (fun _ => rfl) makes again rfl
        fun free => by cases free⟩
  case case2 s a =>
    rcases Grants.handle_of_call called with same | ⟨rfl, total, read, makes⟩
    · exact ⟨_, repeats_of_same same rfl rfl⟩
    · have again := (Grants.handle_save_editDraft entry read).trans makes
      have embeds (s : Grants) : (grants s).handle session (.grants .save) entry =
          (s.handle session .save entry).map grants .grants := by rw [handle]
      refine ⟨_, repeats_of_turns _ embeds makes again rfl fun _ _ => ?_⟩
      rw [view, view, s.view_editDraft total]
  case case3 => exact ⟨_, repeats_of_same (Expenses.handle_of_call called) rfl rfl⟩
  case case4 => exact ⟨_, repeats_of_same (Approvals.handle_of_call called) rfl rfl⟩
  case case5 => exact ⟨_, repeats_of_same (Categories.handle_of_call called) rfl rfl⟩
  case case6 => exact ⟨_, repeats_of_same (Roles.handle_of_call called) rfl rfl⟩
  case case7 => exact ⟨_, repeats_of_same (Users.handle_of_call called) rfl rfl⟩
  case case8 s a =>
    rcases Rules.handle_of_call called with same | ⟨rfl, rfl⟩
    · exact ⟨_, repeats_of_same same rfl rfl⟩
    · exact ⟨rules { s with templateOpen := true, parameters := "\x7b\x7d" },
        repeats_of_turns (fun s => s.handle session .openTemplates entry) (fun _ => rfl) rfl rfl rfl
          fun _ changes => absurd rfl changes⟩
  case case9 s a =>
    obtain ⟨rfl, -⟩ := RuleEditor.call_handle called
    obtain ⟨t, makes, again⟩ := RuleEditor.handle_submit_again called
    exact ⟨ruleEditor t,
      repeats_of_turns (fun s => s.handle session .submit entry) (fun _ => rfl) makes again rfl
        fun free => by cases free⟩

/-- Where the page does not wait, the act can be repeated without end. -/
theorem Repeats.next (repeats : p.Repeats session act entry c q) (free : p.waits = false) :
    q.Repeats session act entry c q where
  makes := by rw [repeats.again, free]; rfl
  again := by rw [repeats.again, repeats.waits]
  waits := rfl
  shows _ _ := rfl

end Page

/-- The server leaves a request open, and as many more of it as follow. -/
def Server.LeavesOpen (request : Request) : Nat → Server → Prop
  | 0, _ => True
  | n + 1, server =>
    (server.take request).1 = none ∧ LeavesOpen request n (server.take request).2

namespace Tab

section Acts

variable {tab : Tab} {a : Page.Act} {entry : Entry} {c : Page.Call} {q : Page}
  {request : Request}

/-- The console with one more request sent, which the server leaves open. -/
def awaiting (tab : Tab) (c : Page.Call) (request : Request) : Tab :=
  { tab with
    server := (tab.server.take request).2
    sent := tab.sent ++ [request]
    flights := tab.flights ++ [⟨tab.number, c⟩] }

theorem send_of_open (tab : Tab) (asked : c.operation.request? tab.session = some request)
    (unanswered : (tab.server.take request).1 = none) :
    tab.send tab.number c = tab.awaiting c request := by
  unfold send awaiting
  rcases taken : tab.server.take request with ⟨r, server⟩
  rw [taken] at unanswered
  subst unanswered
  simp only [asked, taken]

theorem runFor_of_rests (tab : Tab) (rests : tab.due = []) (fuel : Nat) :
    tab.runFor fuel = tab := by
  cases fuel with
  | zero => rfl
  | succ fuel => rw [runFor, (next_eq_none_iff tab).mpr rests]

/-- A turn that makes one call makes it the only work that is due. -/
theorem takeTurn_of_call (rests : tab.due = [])
    (makes : tab.page.handle tab.session a entry = ⟨q, tab.session, [.call c]⟩) :
    tab.takeTurn (tab.page.handle tab.session a entry) =
      { tab with page := q, due := [.call tab.number c] } := by
  rw [makes]
  simp [takeTurn, commands, command, push, rests]

/-- A call that is left open is the only work that the act brings about. -/
theorem act_of_call (rests : tab.due = [])
    (makes : tab.page.handle tab.session a entry = ⟨q, tab.session, [.call c]⟩)
    (asked : c.operation.request? tab.session = some request)
    (unanswered : (tab.server.take request).1 = none) :
    tab.act (.page a) entry = (awaiting { tab with page := q } c request).sweep := by
  have sends : next { tab with page := q, due := [.call tab.number c] } =
      some (awaiting { tab with page := q } c request) := by
    rw [next_eq_some _ rfl, ← rests]
    exact congrArg some (send_of_open { tab with page := q } asked unanswered)
  rw [act_page_eq, takeTurn_of_call rests makes, run, workLimit, runFor, sends]
  exact congrArg sweep (runFor_of_rests (awaiting { tab with page := q } c request) rests _)

/-- An act that only changes the page makes nothing due. -/
theorem act_of_nothing (rests : tab.due = [])
    (nothing : tab.page.handle tab.session a entry = ⟨q, tab.session, []⟩) :
    tab.act (.page a) entry = sweep { tab with page := q } := by
  rw [act_page_eq, nothing]
  exact congrArg sweep (runFor_of_rests { tab with page := q } rests _)

/-- Acts that only repeat what the page is already do nothing but sweep. -/
theorem sent_of_idle_acts (tab : Tab) (rests : tab.due = [])
    (idle : tab.page.handle tab.session a entry = ⟨tab.page, tab.session, []⟩) (n : Nat) :
    ((fun tab : Tab => tab.act (.page a) entry)^[n] tab).sent = tab.sent := by
  induction n generalizing tab with
  | zero => rfl
  | succ n ih =>
    have once : tab.act (.page a) entry = tab.sweep := act_of_nothing rests idle
    rw [Function.iterate_succ_apply, once]
    exact ih tab.sweep rests idle

/-- A page that waits sends its request once, however often it is asked to. -/
theorem sent_of_waiting_acts (rests : tab.due = []) (waits : tab.page.waits = true)
    (repeats : tab.page.Repeats tab.session a entry c q)
    (asked : c.operation.request? tab.session = some request)
    (unanswered : (tab.server.take request).1 = none) (n : Nat) :
    ((fun tab : Tab => tab.act (.page a) entry)^[n + 1] tab).sent = tab.sent ++ [request] := by
  have idle : q.handle tab.session a entry = ⟨q, tab.session, []⟩ := by
    rw [repeats.again, waits]
    rfl
  rw [Function.iterate_succ_apply, act_of_call rests repeats.makes asked unanswered]
  exact sent_of_idle_acts (awaiting { tab with page := q } c request).sweep rests idle n

end Acts

section Clicks

variable {tab : Tab} {t : Target} {spot : Spot Act} {a : Page.Act} {c : Page.Call} {q : Page}
  {request : Request}

/-- A click on a target is one act of the page: no link is followed and no form is submitted. -/
structure Presses (tab : Tab) (t : Target) (spot : Spot Act) (a : Page.Act) : Prop where
  clicked : tab.clicked? (.click t) = some spot
  heard : heard { event := .click } (spot.chain.map Node.listeners) = [.page a]
  noLink : linkOf spot.chain = none
  noForm : formChain spot.chain = none

theorem formChain_eq_none_iff {chain : List (Node Act)} :
    formChain chain = none ↔ some "form" ∉ chain.map Node.tag? := by
  induction chain with
  | nil => simp [formChain]
  | cons n around ih =>
    unfold formChain
    by_cases form : n.isTag "form" = true
    · have tag : n.tag? = some "form" := eq_of_beq form
      simp [form, tag]
    · have tag : some "form" ≠ n.tag? := fun same => form (beq_iff_eq.mpr same.symm)
      simp [form, tag, ih]

/-- Outside of links and forms a click does nothing by itself. -/
theorem afterClick_eq_self {spot : Spot Act} (noLink : linkOf spot.chain = none)
    (noForm : formChain spot.chain = none) (tab : Tab) : tab.afterClick spot = tab := by
  have outside : (spot.again? tab.body).bind (fun s => formChain s.chain) = none := by
    refine Option.bind_eq_none_iff.mpr fun now again => formChain_eq_none_iff.mpr ?_
    have alike := List.find?_some again
    simp only [Bool.and_eq_true, beq_iff_eq] at alike
    show some "form" ∉ now.tags
    rw [alike.2]
    exact formChain_eq_none_iff.mp noForm
  unfold afterClick
  rw [noLink, outside]
  exact ite_self tab

theorem Presses.step_eq (presses : tab.Presses t spot a) :
    (tab.step (.click t)).1 = tab.act (.page a) {} := by
  obtain ⟨same, -⟩ := onEnabled_of_clicked presses.clicked fun spot => (tab.click spot, .done)
  rw [step, same, click, afterClick_eq_self presses.noLink presses.noForm, fire_eq, presses.heard]
  rfl

theorem Presses.of_body {other : Tab} (presses : tab.Presses t spot a)
    (same : other.body = tab.body) : other.Presses t spot a where
  clicked := by
    rw [← presses.clicked, clicked?, clicked?, same]
  heard := presses.heard
  noLink := presses.noLink
  noForm := presses.noForm

/-- What a click is heard as, and where it is made, tells that it is one act. -/
theorem exists_presses (pressed : (tab.clicked? (.click t)).map (fun spot =>
      (heard { event := .click } (spot.chain.map Node.listeners), linkOf spot.chain,
        (formChain spot.chain).isNone)) = some ([.page a], none, true)) :
    ∃ spot, tab.Presses t spot a := by
  obtain ⟨spot, clicked, same⟩ := Option.map_eq_some_iff.mp pressed
  obtain ⟨heard, noLink, noForm⟩ : _ ∧ _ ∧ _ := by simpa only [Prod.mk.injEq] using same
  exact ⟨spot, clicked, heard, noLink, Option.isNone_iff_eq_none.mp noForm⟩

/-- What a page does not show, the document does not show. -/
theorem body_awaiting (view : q.view = tab.page.view) :
    (awaiting { tab with page := q } c request).body = tab.body := by
  simp only [body, main, plainMain, awaiting, view]
  rfl

theorem sweep_awaiting (tidy : tab.sweep = tab) (view : q.view = tab.page.view) :
    (awaiting { tab with page := q } c request).sweep =
      awaiting { tab with page := q } c request := by
  have kept : (tab.strays.filter fun stray => stray.isIn tab.plainMain) = tab.strays :=
    congrArg Tab.strays tidy
  have same : (awaiting { tab with page := q } c request).plainMain = tab.plainMain := by
    simp only [plainMain, awaiting, view]
  rw [sweep, same]
  exact congrArg (fun strays => { awaiting { tab with page := q } c request with strays }) kept

/-- While the server leaves the requests open, each click on a control that asks for a change sends
the request again and shows nothing, unless the page waits. -/
theorem clicks_repeated (tab : Tab) (n : Nat) (rests : tab.due = []) (tidy : tab.sweep = tab)
    (presses : tab.Presses t spot a) (free : tab.page.waits = false)
    (repeats : tab.page.Repeats tab.session a {} c q) (changes : c.operation.method ≠ .get)
    (asked : c.operation.request? tab.session = some request)
    (unanswered : tab.server.LeavesOpen request n) :
    let final := tab.after (List.replicate n (.click t))
    final.sent = tab.sent ++ List.replicate n request ∧
      final.flights = tab.flights ++ List.replicate n ⟨tab.number, c⟩ ∧ final.body = tab.body := by
  induction n generalizing tab with
  | zero => simp
  | succ n ih =>
    have view := repeats.shows free changes
    have once : (tab.step (.click t)).1 = awaiting { tab with page := q } c request := by
      rw [presses.step_eq, act_of_call rests repeats.makes asked unanswered.1,
        sweep_awaiting tidy view]
    have first : tab.after (List.replicate (n + 1) (.click t)) =
        (awaiting { tab with page := q } c request).after (List.replicate n (.click t)) := by
      rw [← once]
      rfl
    have shown : (awaiting { tab with page := q } c request).body = tab.body := body_awaiting view
    obtain ⟨sent, flights, body⟩ := ih (awaiting { tab with page := q } c request) rests
      (sweep_awaiting tidy view) (presses.of_body shown) (repeats.waits.trans free)
      (repeats.next free) asked unanswered.2
    refine ⟨?_, ?_, by rw [first, body, shown]⟩
    · rw [first, sent, List.replicate_succ]
      exact List.append_assoc ..
    · rw [first, flights, List.replicate_succ]
      exact List.append_assoc ..

/-- An act that makes a call is repeated before the call is answered. A page that waits sends the
request once. On all other pages a control that asks for a change sends it with each click, and
nothing in the document tells the clicks apart. -/
theorem duplicates_unless_waiting (rests : tab.due = [])
    (called : .call c ∈ (tab.page.handle tab.session a {}).commands)
    (asked : c.operation.request? tab.session = some request) (n : Nat)
    (unanswered : tab.server.LeavesOpen request (n + 1)) :
    (tab.page.waits = true →
      ((fun tab : Tab => tab.act (.page a) {})^[n + 1] tab).sent = tab.sent ++ [request]) ∧
    (tab.page.waits = false → c.operation.method ≠ .get → tab.sweep = tab → ∀ t spot,
      tab.Presses t spot a →
        let final := tab.after (List.replicate (n + 1) (.click t))
        final.sent = tab.sent ++ List.replicate (n + 1) request ∧
          final.flights = tab.flights ++ List.replicate (n + 1) ⟨tab.number, c⟩ ∧
          final.body = tab.body) := by
  obtain ⟨q, repeats⟩ := Page.repeats_of_call called
  exact ⟨fun waits => sent_of_waiting_acts rests waits repeats asked unanswered.1 n,
    fun free changes tidy t spot presses =>
      clicks_repeated tab (n + 1) rests tidy presses free repeats changes asked unanswered⟩

/-- The page of the categories with the dialog for a new one. -/
def newCategory : Tab where
  session := ⟨some [("access_token", "t")]⟩
  server := {}
  location := ⟨"/categories", ""⟩
  chrome := ⟨true, "/categories", none⟩
  page := .categories { listing := ⟨{ dialog := .create { active := true } }, []⟩ }

def saveButton : Target where
  look := { tag := some "button", text := some "Save" }

/-- The dialog for a new category is saved twice. -/
theorem duplicates_unless_waiting_category :
    ∃ (c : Page.Call) (request : Request), newCategory.due = [] ∧
      .call c ∈ (newCategory.page.handle newCategory.session (.categories .save) {}).commands ∧
      c.operation.request? newCategory.session = some request ∧
      newCategory.server.LeavesOpen request 2 ∧ request.method = .post ∧
      (newCategory.after [.click saveButton, .click saveButton]).sent = [request, request] := by
  let c : Page.Call := .categories (.create { active := true })
  have called : .call c ∈
      (newCategory.page.handle newCategory.session (.categories .save) {}).commands :=
    List.mem_singleton.mpr rfl
  obtain ⟨spot, presses⟩ : ∃ spot, newCategory.Presses saveButton spot (.categories .save) :=
    exists_presses (by decide +kernel)
  have rests : newCategory.due = [] := rfl
  obtain ⟨-, duplicates⟩ := duplicates_unless_waiting rests called rfl 1 ⟨rfl, rfl, trivial⟩
  exact ⟨c, _, rests, called, rfl, ⟨rfl, rfl, trivial⟩, rfl,
    (duplicates rfl nofun rfl saveButton spot presses).1⟩

/-- Not every control keeps silent until its request is answered. -/
theorem not_silent_until_answered :
    ¬ ∀ (session : Session) (server : Server) (path : String) (steps : List Step) (t : Target),
      let tab := (opened session server path).after steps
      let once := (tab.step (.click t)).1
      once.sent.length = tab.sent.length + 1 → once.sent.getLast?.map Request.method = some .post →
        once.flights.length = tab.flights.length + 1 →
          (once.step (.click t)).1.sent.length = once.sent.length := by
  intro all
  have silent := all ⟨some [("access_token", "t")]⟩ {} "/categories"
    [.click { look := { tag := some "button", text := some "New category" } }] saveButton
  revert silent
  decide +kernel

end Clicks

end Tab

end GrantConsole.Console
