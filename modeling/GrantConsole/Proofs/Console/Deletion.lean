import GrantConsole.Proofs.Api.Call
import GrantConsole.Proofs.Console.Requests
import GrantConsole.Proofs.Console.Steps

/-!
# No deletion without its confirmation

A request that deletes is sent by one kind of step only: a click on the button that answers a
question yes, while the page asks about a record, and it is sent for that record. The page asks
about it since a click on the button of that record's row; whatever came in between has neither
closed the question nor opened another dialog. Loads, saves, answers that come late, the Escape key,
the backdrop and all other acts send no such request and put no such question.
-/

namespace GrantConsole.Console

open GrantConsole.Api GrantConsole.Markup GrantConsole.Screen GrantConsole.Url

namespace Tab

/-- The requests to delete that were sent, in order. -/
def deletions (tab : Tab) : List Request :=
  tab.sent.filter fun request => request.method == .delete

/-! ## Questions end, but none is put, without an act -/

/-- What the page asks about now it asked about before, and it is the same page. -/
def AsksNoMore (a b : Tab) : Prop :=
  ∀ id, b.page.asked? = some id → a.page.asked? = some id ∧ b.number = a.number

namespace AsksNoMore

theorem refl (tab : Tab) : AsksNoMore tab tab :=
  fun _ asks => ⟨asks, rfl⟩

theorem trans {a b c : Tab} (first : AsksNoMore a b) (second : AsksNoMore b c) : AsksNoMore a c := by
  intro id asks
  obtain ⟨asked, same⟩ := second id asks
  obtain ⟨before, alike⟩ := first id asked
  exact ⟨before, same.trans alike⟩

end AsksNoMore

section Questions

variable (tab : Tab)

theorem takeTurn_asks {t : Turn Page Page.Call}
    (asks : ∀ id, t.state.asked? = some id → tab.page.asked? = some id) :
    AsksNoMore tab (tab.takeTurn t) := by
  intro id asked
  rw [takeTurn_page] at asked
  exact ⟨asks id asked, by simp⟩

theorem settleCall_asks (page : Nat) (c : Page.Call) (outcome : Outcome c.Answer) :
    AsksNoMore tab (tab.settleCall page c outcome) := by
  intro id asked
  refine ⟨?_, by simp⟩
  rw [settleCall_page] at asked
  cases left : (tab.settling page c outcome).state with
  | none =>
    rw [left] at asked
    exact asked
  | some q =>
    rw [left, Option.getD_some] at asked
    unfold settling at left
    split at left
    · exact Page.asked?_settle left asked
    · have gone := (Page.settle_isSome_iff none outcome.session c outcome.result).mp
        (by rw [left]; rfl)
      obtain ⟨_, there, -⟩ := gone
      cases there

theorem send_asks (page : Nat) (c : Page.Call) : AsksNoMore tab (tab.send page c) := by
  rcases tab.send_cases page c with
    ⟨-, sent⟩ | ⟨request, -, ⟨r, server, -, sent⟩ | ⟨server, -, sent⟩⟩
  · rw [sent]
    exact tab.settleCall_asks page c _
  · rw [sent]
    exact settleCall_asks { tab with server, sent := tab.sent ++ [request] } page c
      (c.operation.settle tab.session r.outcome)
  · rw [sent]
    exact .refl tab

theorem goto_asks (location : Location) : AsksNoMore tab (tab.goto location) := by
  rcases tab.goto_cases location with stays | ⟨chrome, place, moves⟩ | ⟨chrome, opens⟩
  · rw [stays]
    exact .refl tab
  · rw [moves]
    exact fun id asks => ⟨by simpa using asks, rfl⟩
  · rw [opens]
    intro id asks
    simp at asks

theorem follow_asks (path : String) : AsksNoMore tab (tab.follow path) :=
  tab.goto_asks (tab.location.follow path)

theorem work_asks (due : Due) : AsksNoMore tab (tab.work due) := by
  cases due with
  | mount page =>
    simp only [work]
    split
    · exact tab.takeTurn_asks fun id asks => by simpa using asks
    · exact .refl tab
  | call page c => exact tab.send_asks page c
  | goto page path =>
    simp only [work]
    split
    · exact tab.follow_asks path
    · exact .refl tab
  | signedOut => exact tab.follow_asks signInPath
  | expiry =>
    simp only [work]
    split
    · exact follow_asks { tab with expired := false } signInPath
    · exact .refl tab

theorem run_asks : AsksNoMore tab tab.run :=
  tab.runFor_carries AsksNoMore AsksNoMore.refl AsksNoMore.trans
    (fun tab due rest _ => work_asks { tab with due := rest } due) workLimit

end Questions

/-! ## Requests to delete -/

def deletes (method : Method) : Bool :=
  method == .delete

theorem deletes_get : deletes .get = false :=
  rfl

/-- Nothing is deleted between two states. -/
theorem Spares.deletions {a b : Tab} (spares : Spares deletes a b) : b.deletions = a.deletions :=
  spares.sent

/-- A run that starts with one call only sends its request. -/
theorem run_deletions_of_call {tab : Tab} {page : Nat} {c : Page.Call}
    (alone : tab.due = [.call page c]) :
    tab.run.deletions =
      tab.deletions ++ (c.operation.request? tab.session).toList.filter (·.method == .delete) :=
  run_requests_of_call deletes_get alone

/-! ## Acts -/

section Acts

variable {tab : Tab}

/-- After an act the page asks about a record because the act asks, or because it did before. -/
theorem act_asks {a : Act} {entry : Entry} {id : String}
    (own : ∀ asked, a = .page asked → asked.kind = tab.page.kind)
    (asks : (tab.act a entry).page.asked? = some id) :
    (tab.act a entry).number = tab.number ∧
      ((∃ asked, a = .page asked ∧ asked.asks? = some id) ∨
        (∀ asked, a = .page asked → asked.asks? = none) ∧ tab.page.asked? = some id) := by
  cases a with
  | page a =>
    rw [act_page_eq] at asks ⊢
    obtain ⟨asked, same⟩ := run_asks _ id asks
    rw [takeTurn_page] at asked
    refine ⟨by rw [same, takeTurn_number], ?_⟩
    rcases Page.asked?_handle (own a rfl) asked with asked | ⟨none, asked⟩
    · exact .inl ⟨a, rfl, asked⟩
    · refine .inr ⟨fun _ same => ?_, asked⟩
      cases same
      exact none
  | signOut =>
    obtain ⟨asked, same⟩ := run_asks _ id asks
    exact ⟨same, .inr ⟨fun _ page => (by cases page), asked⟩⟩
  | dismiss toast => exact ⟨rfl, .inr ⟨fun _ page => (by cases page), asks⟩⟩

/-- An act sends at most one request to delete, and only the answer yes sends one: for the record
that the page asks about. -/
theorem act_deletions (rests : tab.due = []) (a : Act) (entry : Entry) :
    (tab.act a entry).deletions = tab.deletions ∨
      ∃ confirmed id request, a = .page confirmed ∧ confirmed.confirms = true ∧
        tab.page.asked? = some id ∧ tab.page.item? id = some request.url ∧
        (tab.act a entry).deletions = tab.deletions ++ [request] := by
  cases a with
  | page a =>
    rw [act_page_eq]
    by_cases demands : ∃ c, .call c ∈ (tab.page.handle tab.session a entry).commands ∧
        c.operation.method = .delete
    · obtain ⟨c, called, deleting⟩ := demands
      obtain ⟨confirms, alone, id, asked, kept⟩ := Page.call_delete called deleting
      have due : (tab.takeTurn (tab.page.handle tab.session a entry)).due =
          [.call tab.number c] := by
        rw [takeTurn_due, rests, alone]
        rfl
      have sent := run_deletions_of_call due
      generalize (tab.takeTurn (tab.page.handle tab.session a entry)).session = session at sent
      cases asks : c.operation.request? session with
      | none => exact .inl (by rw [sent, asks]; simp [deletions])
      | some request =>
        obtain ⟨method, url⟩ := Operation.request?_eq asks
        refine .inr ⟨a, id, request, rfl, confirms, asked, url ▸ kept, ?_⟩
        rw [sent, asks]
        simp [deletions, method, deleting]
    · have spares : Spares deletes tab (tab.takeTurn (tab.page.handle tab.session a entry)) :=
        takeTurn_spares (harmless_of_due rests) fun c called =>
          beq_false_of_ne fun deleting => demands ⟨c, called, deleting⟩
      exact .inl ((run_spares deletes_get spares.harmless).deletions.trans spares.deletions)
  | signOut =>
    have harmless :
        Harmless deletes ({ tab with session := tab.session.signOut }.push .signedOut) :=
      harmless_append (harmless_of_due rests) (by simp) rfl
    exact .inl (run_spares deletes_get harmless).deletions
  | dismiss toast => exact .inl rfl

theorem visit_asks (tab : Tab) (path : String) : AsksNoMore tab (tab.visit path) :=
  (tab.follow_asks path).trans (run_asks _)

theorem visit_deletions (rests : tab.due = []) (path : String) :
    (tab.visit path).deletions = tab.deletions := by
  have spares : Spares deletes tab (tab.follow path) := follow_spares (harmless_of_due rests) path
  exact (run_spares deletes_get spares.harmless).deletions.trans spares.deletions

theorem answer_asks {nth : Nat} {r : Reply} {after : Tab}
    (answered : tab.answer? nth r = some after) : AsksNoMore tab after := by
  obtain ⟨flight, -, rfl⟩ := Option.map_eq_some_iff.mp answered
  have settled := settleCall_asks { tab with flights := tab.flights.eraseIdx nth } flight.page
    flight.call (flight.call.operation.settle tab.session r.outcome)
  exact AsksNoMore.trans (fun id asks => settled id asks) (run_asks _)

theorem answer_deletions (rests : tab.due = []) {nth : Nat} {r : Reply} {after : Tab}
    (answered : tab.answer? nth r = some after) : after.deletions = tab.deletions := by
  obtain ⟨flight, -, rfl⟩ := Option.map_eq_some_iff.mp answered
  have harmless : Harmless deletes { tab with flights := tab.flights.eraseIdx nth } :=
    harmless_of_due rests
  have spares := settleCall_spares deletes_get harmless flight.page flight.call
    (flight.call.operation.settle tab.session r.outcome)
  exact (run_spares deletes_get spares.harmless).deletions.trans spares.deletions

/-- An act that is heard is one of the page's own. -/
theorem Hears.own {chain : List (Node Act)} {h : Happening} {a : Act} (heard : tab.Hears chain h a) :
    ∀ asked, a = .page asked → asked.kind = tab.page.kind := by
  intro asked same
  obtain ⟨-, n, -, c, -, offers⟩ := heard
  obtain ⟨own, -, offered⟩ := offers asked same
  exact offered.own

/-- What comes later in a step asks no question and answers none. -/
theorem Hears.plain {chain : List (Node Act)} {h : Happening} {a : Act} (heard : tab.Hears chain h a)
    (noClick : h.event ≠ .click) :
    ∀ asked, a = .page asked → asked.asks? = none ∧ asked.confirms = false := by
  intro asked same
  obtain ⟨-, n, -, c, -, offers⟩ := heard
  obtain ⟨own, -, offered⟩ := offers asked same
  constructor
  · cases asks : asked.asks? with
    | none => rfl
    | some id => exact absurd (offered.asks id asks).1 noClick
  · cases confirms : asked.confirms with
    | false => rfl
    | true => exact absurd (offered.confirms confirms).1 noClick

end Acts

/-! ## Steps -/

section Steps

variable {tab before after : Tab} {s : Step}

/-- An act that neither asks nor answers leaves the question or ends it, whatever page it is of. -/
theorem act_asksNoMore {a : Act} {entry : Entry}
    (plain : ∀ asked, a = .page asked → asked.asks? = none) : AsksNoMore tab (tab.act a entry) := by
  intro id asks
  by_cases own : ∀ asked, a = .page asked → asked.kind = tab.page.kind
  · obtain ⟨same, ⟨asked, isPage, asking⟩ | ⟨-, kept⟩⟩ := act_asks own asks
    · rw [plain asked isPage] at asking
      cases asking
    · exact ⟨kept, same⟩
  · simp only [Classical.not_forall] at own
    obtain ⟨other, rfl, differs⟩ := own
    rw [act_page_eq, Page.handle_of_kind_ne differs] at asks ⊢
    exact (tab.takeTurn_asks fun _ asked => asked).trans (run_asks _) id asks

theorem act_plain_deletions (rests : tab.due = []) {a : Act} {entry : Entry}
    (plain : ∀ asked, a = .page asked → asked.confirms = false) :
    (tab.act a entry).deletions = tab.deletions := by
  rcases act_deletions rests a entry with same | ⟨confirmed, id, request, rfl, confirms, -⟩
  · exact same
  · rw [plain confirmed rfl] at confirms
    cases confirms

theorem Later.asks (later : Later before after) : AsksNoMore before after := by
  induction later with
  | none => exact .refl _
  | visits later path ih => exact ih.trans (visit_asks _ path)
  | hears later heard noClick submitted ih =>
    exact ih.trans (act_asksNoMore fun asked same => (heard.plain noClick asked same).1)

theorem Later.deletions (later : Later before after) (rests : before.due = []) :
    after.deletions = before.deletions := by
  induction later with
  | none => rfl
  | visits later path ih => exact (visit_deletions (later.due rests) path).trans ih
  | hears later heard noClick submitted ih =>
    exact (act_plain_deletions (later.due rests)
      fun asked same => (heard.plain noClick asked same).2).trans ih

/-- A step clicks a button with a label, and the click is heard as an act of the page. -/
def Clicks (tab : Tab) (s : Step) (label : String) (a : Page.Act) : Prop :=
  ∃ spot ∈ spots tab.body, tab.clicked? s = some spot ∧
    heard { event := .click } (spot.chain.map Node.listeners) = [.page a] ∧
    ∃ n ∈ spot.chain, IsControl n ⟨"button", label, [.on .click (.page a)]⟩

/-- A step clicks the button that deletes in the row of a record. -/
def Asks (tab : Tab) (s : Step) (id : String) : Prop :=
  ∃ a, a.asks? = some id ∧ tab.Clicks s tab.page.deleteLabel a ∧ id ∈ tab.page.listed

/-- A step clicks the button that answers yes while the page asks about a record. -/
def Confirms (tab : Tab) (s : Step) (id : String) : Prop :=
  ∃ a, a.confirms = true ∧ tab.Clicks s tab.page.deleteLabel a ∧ tab.page.asked? = some id

theorem Hears.offers {spot : Spot Act} {h : Happening} {a : Page.Act}
    (heard : tab.Hears spot.chain h (.page a)) :
    ∃ n ∈ spot.chain, ∃ own, IsControl n (Control.map Act.page own) ∧ tab.page.Offers own h a := by
  obtain ⟨-, n, mem, c, is, offers⟩ := heard
  obtain ⟨own, rfl, offered⟩ := offers a rfl
  exact ⟨n, mem, own, is, offered⟩

/-- What is heard of a click on a button is what a step clicks. -/
theorem clicks_of_hears {spot : Spot Act} (mem : spot ∈ spots tab.body) {h : Happening}
    {a : Page.Act} {label : String} (hears : tab.Hears spot.chain h (.page a))
    (clicked : tab.clicked? s = some spot) (click : h.event = .click) {n : Node Act}
    (within_ : n ∈ spot.chain)
    (is : IsControl n (Control.map Act.page ⟨"button", label, [.on .click a]⟩)) :
    tab.Clicks s label a :=
  ⟨spot, mem, clicked, (heard_click rfl click _).trans hears.alone, n, within_, is⟩

/-- A click on a button is heard as the act that it brings about. -/
theorem Clicks.hears {label : String} {a : Page.Act} (clicks : tab.Clicks s label a) :
    ∃ spot, tab.clicked? s = some spot ∧
      ∀ h : Happening, h.event = .click → tab.Hears spot.chain h (.page a) := by
  obtain ⟨spot, mem, clicked, alone, -⟩ := clicks
  refine ⟨spot, clicked, fun h click => ?_⟩
  have same := (heard_click click (rfl : Happening.event { event := .click } = .click) _).trans alone
  rcases tab.heard_spot mem (List.suffix_refl _) h with silent | ⟨n, within_, c, b, is, one, offers⟩
  · rw [silent] at same
    cases same
  · rw [one] at same
    cases same
    exact ⟨one, n, within_, c, is, offers⟩

theorem Redressed.deletions (dressed : tab.Redressed before) :
    before.deletions = tab.deletions := by
  obtain ⟨strays, rfl⟩ := dressed
  rfl

theorem Redressed.asks (dressed : tab.Redressed before) : AsksNoMore tab before :=
  fun _ asks => ⟨dressed.page ▸ asks, dressed.number⟩

/-- A step sends at most one request to delete, and only a click on the answer yes sends one: for
the record that the page asks about, in the collection of the page. -/
theorem step_deletions (rests : tab.due = []) (s : Step) :
    (tab.step s).1.deletions = tab.deletions ∨
      ∃ id request, tab.Confirms s id ∧ tab.page.item? id = some request.url ∧
        (tab.step s).1.deletions = tab.deletions ++ [request] := by
  have does := does_step tab s
  generalize (tab.step s).1 = after at does ⊢
  cases does with
  | nothing => exact .inl rfl
  | visits path => exact .inl (visit_deletions rests path)
  | answers answered => exact .inl (answer_deletions rests answered)
  | waits ms => exact .inl rfl
  | keeps key value => cases value <;> exact .inl rfl
  | unheard dressed later =>
    exact .inl ((later.deletions (dressed.due.trans rests)).trans dressed.deletions)
  | @hears before _ spot h a dressed mem heard clicked later =>
    have quiet : before.due = [] := dressed.due.trans rests
    have rest := later.deletions (act_due quiet a h.entry)
    rcases act_deletions quiet a h.entry with
      same | ⟨confirmed, id, request, rfl, confirms, asked, kept, sent⟩
    · exact .inl (rest.trans (same.trans dressed.deletions))
    · obtain ⟨n, within_, own, is, offered⟩ := heard.offers
      obtain ⟨click, rfl, -⟩ := offered.confirms confirms
      rw [dressed.page] at asked kept
      refine .inr ⟨id, request, ⟨confirmed, confirms, ?_, asked⟩, kept, ?_⟩
      · exact clicks_of_hears mem heard (clicked click) click within_ is
      · rw [rest, sent, dressed.deletions]

/-- After a step the page asks about a record because the step clicks the button in its row, or
because it asked about it before, the page is the same, and the step clicks no such button. -/
theorem step_asks {id : String} (asks : (tab.step s).1.page.asked? = some id) :
    (tab.step s).1.number = tab.number ∧
      (tab.Asks s id ∨ (∀ other, ¬ tab.Asks s other) ∧ tab.page.asked? = some id) := by
  by_cases asking : ∃ other, tab.Asks s other
  · obtain ⟨other, a, asksOther, clicks, listed⟩ := asking
    obtain ⟨spot, clicked, hears⟩ := clicks.hears
    obtain ⟨before, h, dressed, click, later⟩ := clicked_fires clicked
    have acted : before.fire h spot.chain = before.act (.page a) h.entry := by
      rw [fire_eq, (hears h click).alone]
      rfl
    rw [acted] at later
    have own : ∀ asked, Act.page a = .page asked → asked.kind = before.page.kind :=
      dressed.page ▸ (hears h click).own
    obtain ⟨asked, same⟩ := later.asks id asks
    obtain ⟨alike, ⟨_, isPage, asksThis⟩ | ⟨none, -⟩⟩ := act_asks own asked
    · cases isPage
      cases asksOther.symm.trans asksThis
      exact ⟨same.trans (alike.trans dressed.number), .inl ⟨a, asksThis, clicks, listed⟩⟩
    · rw [none a rfl] at asksOther
      cases asksOther
  · suffices kept : AsksNoMore tab (tab.step s).1 by
      obtain ⟨asked, same⟩ := kept id asks
      exact ⟨same, .inr ⟨fun other asks => asking ⟨other, asks⟩, asked⟩⟩
    have does := does_step tab s
    generalize (tab.step s).1 = after at does ⊢
    cases does with
    | nothing => exact .refl tab
    | visits path => exact visit_asks tab path
    | answers answered => exact answer_asks answered
    | waits ms => exact .refl tab
    | keeps key value => cases value <;> exact .refl tab
    | unheard dressed later => exact dressed.asks.trans later.asks
    | @hears before _ spot h a dressed mem heard clicked later =>
      refine dressed.asks.trans (AsksNoMore.trans (fun id asks => ?_) later.asks)
      have own : ∀ asked, a = .page asked → asked.kind = before.page.kind :=
        dressed.page ▸ heard.own
      obtain ⟨same, ⟨asked, rfl, asksThis⟩ | ⟨-, kept⟩⟩ := act_asks own asks
      · obtain ⟨n, within_, own, is, offered⟩ := heard.offers
        obtain ⟨click, rfl, listed⟩ := offered.asks id asksThis
        exact absurd ⟨id, asked, asksThis, clicks_of_hears mem heard (clicked click) click within_ is,
          listed⟩ asking
      · exact ⟨kept, same⟩

end Steps

/-! ## Runs -/

/-- In a run the page asks about a record since a step that clicked the button in its row: the page
is the same, the question has been open ever since, and no such button was clicked later. -/
structure AskedSince (start : Tab) (steps before : List Step) (ask : Step) (since : List Step)
    (id : String) : Prop where
  order : steps = before ++ ask :: since
  asks : (start.after before).Asks ask id
  open_ : ∀ part, part <+: since →
    (start.after (before ++ ask :: part)).page.asked? = some id ∧
      (start.after (before ++ ask :: part)).number = (start.after before).number
  latest : ∀ part s, part ++ [s] <+: since →
    ∀ other, ¬ (start.after (before ++ ask :: part)).Asks s other

/-- A step sends a request to delete the record that the page asks about. -/
structure DeletesConfirmed (tab : Tab) (s : Step) (id : String) (request : Request) : Prop where
  confirms : tab.Confirms s id
  target : tab.page.item? id = some request.url
  sends : (tab.step s).1.deletions = tab.deletions ++ [request]

/-- A signed-in operator who answers yes does send the request. -/
theorem confirms_deletes {tab : Tab} {s : Step} {id : String} (rests : tab.due = [])
    (signedIn : tab.session.isSignedIn = true) (confirms : tab.Confirms s id) :
    ∃ request, tab.DeletesConfirmed s id request := by
  have ⟨a, yes, clicks, asked⟩ := confirms
  obtain ⟨spot, clicked, hears⟩ := clicks.hears
  obtain ⟨before, h, ⟨strays, rfl⟩, click, later⟩ := clicked_fires clicked
  have heard := hears h click
  obtain ⟨c, turn, method, kept⟩ :=
    Page.handle_confirm (heard.own a rfl) yes asked tab.session h.entry
  obtain ⟨request, sends⟩ : ∃ request, c.operation.request? tab.session = some request := by
    unfold Operation.request?
    split
    · obtain ⟨token, there⟩ := Option.isSome_iff_exists.mp signedIn
      exact ⟨_, by rw [there]; rfl⟩
    · exact ⟨_, rfl⟩
  have acted : fire { tab with strays } h spot.chain = act { tab with strays } (.page a) h.entry := by
    rw [fire_eq, heard.alone]
    rfl
  have quiet : Tab.due { tab with strays } = [] := rests
  have started : act { tab with strays } (.page a) h.entry =
      (takeTurn { tab with strays } ⟨tab.page, tab.session, [.call c]⟩).run := by
    rw [act_page_eq, ← turn]
  have due : (takeTurn { tab with strays } ⟨tab.page, tab.session, [.call c]⟩).due =
      [.call tab.number c] := by
    rw [takeTurn_due, quiet]
    rfl
  refine ⟨request, confirms, (Operation.request?_eq sends).2 ▸ kept, ?_⟩
  rw [acted] at later
  rw [later.deletions (act_due quiet _ _), started, run_deletions_of_call due]
  show deletions _ ++ ((c.operation.request? tab.session).toList.filter _) = _
  rw [sends]
  simp [deletions, (Operation.request?_eq sends).1, method]

/-- What is deleted in a run, and why. -/
structure DeletesOnDemand (start : Tab) (steps : List Step) : Prop where
  /-- Every request to delete was sent by a step of its own that answered the question yes, and the
  question was put by the latest click on a button that deletes. -/
  each : ∀ i request, (start.after steps).deletions[i]? = some request →
    ∃ before s rest id, steps = before ++ s :: rest ∧
      (start.after before).deletions.length = i ∧
      (start.after before).DeletesConfirmed s id request ∧
      ∃ earlier ask since, AskedSince start before earlier ask since id
  /-- No other step sends one. -/
  others : ∀ before s rest, steps = before ++ s :: rest →
    (∀ id, ¬ (start.after before).Confirms s id) →
    (start.after (before ++ [s])).deletions = (start.after before).deletions
  /-- Each step that answers yes sends one, as long as the operator is signed in. -/
  heeded : ∀ before s rest id, steps = before ++ s :: rest →
    (start.after before).session.isSignedIn = true → (start.after before).Confirms s id →
    ∃ request, (start.after before).DeletesConfirmed s id request

theorem AskedSince.extend {start : Tab} {steps before since : List Step} {ask s : Step} {id : String}
    (since_ : AskedSince start steps before ask since id)
    (asks : (start.after (steps ++ [s])).page.asked? = some id)
    (same : (start.after (steps ++ [s])).number = (start.after steps).number)
    (latest : ∀ other, ¬ (start.after steps).Asks s other) :
    AskedSince start (steps ++ [s]) before ask (since ++ [s]) id := by
  obtain ⟨rfl, asked, open_, later⟩ := since_
  refine ⟨by simp, asked, fun part isPart => ?_, fun part t isPart => ?_⟩
  · rcases List.prefix_concat_iff.mp isPart with rfl | isPart
    · have there : before ++ ask :: (since ++ [s]) = before ++ ask :: since ++ [s] := by simp
      rw [there]
      exact ⟨asks, same.trans (open_ since (List.prefix_refl since)).2⟩
    · exact open_ part isPart
  · rcases List.prefix_concat_iff.mp isPart with whole | isPart
    · obtain ⟨rfl, last⟩ := List.append_inj' whole rfl
      cases last
      exact latest
    · exact later part t isPart

/-- Whenever a page asks about a record, an operator has clicked the button in its row. -/
theorem askedSince_of_asked {start : Tab} (quiet : start.page.asked? = none) (steps : List Step)
    {id : String} (asks : (start.after steps).page.asked? = some id) :
    ∃ before ask since, AskedSince start steps before ask since id := by
  obtain ⟨back, rfl⟩ : ∃ back : List Step, steps = back.reverse := ⟨steps.reverse, by simp⟩
  induction back with
  | nil =>
    rw [List.reverse_nil, after_nil, quiet] at asks
    cases asks
  | cons s back ih =>
    rw [List.reverse_cons] at asks ⊢
    have stepped := asks
    rw [after_concat] at stepped
    obtain ⟨same, asksNow | ⟨latest, asked⟩⟩ := step_asks stepped
    · refine ⟨back.reverse, s, [], by simp, asksNow, fun part isPart => ?_, fun part t isPart => ?_⟩
      · rw [List.prefix_nil.mp isPart]
        exact ⟨asks, by rw [after_concat, same]⟩
      · simp at isPart
    · obtain ⟨before, ask, since, since_⟩ := ih asked
      exact ⟨before, ask, since ++ [s], since_.extend asks (by rw [after_concat, same]) latest⟩

/-- A run that starts at rest, with no question and nothing deleted, deletes on demand only. -/
theorem deletesOnDemand {start : Tab} (rests : ∀ steps, (start.after steps).due = [])
    (quiet : start.page.asked? = none) (fresh : start.deletions = []) (steps : List Step) :
    DeletesOnDemand start steps where
  others := by
    rintro before s rest - unconfirmed
    rw [after_concat]
    rcases step_deletions (rests before) s with same | ⟨id, request, confirms, -⟩
    · exact same
    · exact absurd confirms (unconfirmed id)
  heeded before _ _ _ _ signedIn confirms := confirms_deletes (rests before) signedIn confirms
  each := by
    obtain ⟨back, rfl⟩ : ∃ back : List Step, steps = back.reverse := ⟨steps.reverse, by simp⟩
    induction back with
    | nil =>
      intro i request sent
      rw [List.reverse_nil, after_nil, fresh] at sent
      cases sent
    | cons s back ih =>
      intro i request sent
      rw [List.reverse_cons] at sent ⊢
      rw [after_concat] at sent
      have known : (start.after back.reverse).deletions[i]? = some request →
          ∃ before t rest id, back.reverse ++ [s] = before ++ t :: rest ∧
            (start.after before).deletions.length = i ∧
            (start.after before).DeletesConfirmed t id request ∧
            ∃ earlier ask since, AskedSince start before earlier ask since id := by
        intro before
        obtain ⟨before, t, rest, id, order, found⟩ := ih i request before
        exact ⟨before, t, rest ++ [s], id, by simp [order], found⟩
      rcases step_deletions (rests back.reverse) s with
        same | ⟨id, last, confirmed, target, sends⟩
      · exact known (same ▸ sent)
      · rw [sends, List.getElem?_append] at sent
        split at sent
        · exact known sent
        · rename_i beyond
          obtain ⟨within_, same⟩ := List.getElem?_eq_some_iff.mp sent
          have index : i - (start.after back.reverse).deletions.length = 0 :=
            Nat.lt_one_iff.mp within_
          simp only [index, List.getElem_cons_zero] at same
          subst same
          have ⟨_, _, _, asked⟩ := confirmed
          exact ⟨back.reverse, s, [], id, rfl, by omega, ⟨confirmed, target, sends⟩,
            askedSince_of_asked quiet back.reverse asked⟩

theorem opened_asked (session : Session) (server : Server) (path : String) :
    (opened session server path).page.asked? = none := by
  rw [opened_eq]
  cases asks : (launched session server path).run.page.asked? with
  | none => rfl
  | some id =>
    obtain ⟨asked, -⟩ := run_asks _ id asks
    rw [launched_page, Page.asked?_opened] at asked
    cases asked

theorem opened_deletions (session : Session) (server : Server) (path : String) :
    (opened session server path).deletions = [] := by
  have harmless : (launched session server path).Harmless deletes := fun page c mem => by
    simp at mem
  rw [opened_eq]
  exact (run_spares deletes_get harmless).deletions

/-- No run of the console deletes a record without the question whether to delete it, put by a click
in its row and answered yes while it was open. -/
theorem deletions_confirmed (session : Session) (server : Server) (path : String)
    (steps : List Step) : DeletesOnDemand (opened session server path) steps :=
  deletesOnDemand (after_due session server path) (opened_asked session server path)
    (opened_deletions session server path) steps

end Tab

end GrantConsole.Console
