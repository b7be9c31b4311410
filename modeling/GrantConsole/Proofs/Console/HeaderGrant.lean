import GrantConsole.Proofs.Console.Chrome

/-!
# The grant that the header names

The header takes the title of the selected grant when the path changes. An operator who selects a
grant in its row goes on to the expenses, and whoever is signed out goes to the sign-in page, where
there is no header: after both the header is right. A grant that was just made is selected as well,
but that leads nowhere. The header goes on naming the grant that was selected before, until the path
changes. So it does when another window writes what is kept of the selection.
-/

namespace GrantConsole

namespace Session

variable {s t : Session}

theorem selectedGrant?_congr (id : t.get? grantIdKey = s.get? grantIdKey)
    (title : t.get? grantTitleKey = s.get? grantTitleKey) :
    t.selectedGrant? = s.selectedGrant? := by
  unfold selectedGrant? getNonempty?
  rw [id, title]

/-- To take a token is not to select a grant. -/
theorem selectedGrant?_set_token (s : Session) (token : String) :
    (s.set tokenKey token).selectedGrant? = s.selectedGrant? := by
  refine selectedGrant?_congr ?_ ?_
  · exact (get?_set ..).trans (if_neg (by decide))
  · exact (get?_set ..).trans (if_neg (by decide))

end Session

/-- Acting on the grants page leaves the session as it is, or goes to the expenses. -/
theorem Screen.Grants.handle_selects (s : Screen.Grants) (session : Session)
    (act : Screen.Grants.Act) (entry : Screen.Entry) :
    (s.handle session act entry).session = session ∨
      (s.handle session act entry).commands = [.goto "/expenses"] := by
  fun_cases handle s session act entry
  case case2 => exact .inr rfl
  all_goals exact .inl (by simp)

namespace Console

open GrantConsole.Api GrantConsole.Markup GrantConsole.Screen GrantConsole.Url

section Operations

variable {α : Type}

theorem fail_selectedGrant? (session : Session) (e : Failure) :
    (Operation.fail session e : Outcome α).ended = true ∨
      (Operation.fail session e : Outcome α).session.selectedGrant? = session.selectedGrant? := by
  rcases fail_cases (α := α) session e with same | same
  · rw [same]
    exact .inl rfl
  · rw [same]
    exact .inr rfl

/-- An answer leaves the selection as it is, or it ends the session. -/
theorem settle_selectedGrant? (op : Operation α) (session : Session)
    (answer : Except Failure Response) :
    (op.settle session answer).ended = true ∨
      (op.settle session answer).session.selectedGrant? = session.selectedGrant? := by
  rcases settle_cases op session answer with ⟨e, same⟩ | ⟨a, same⟩
  · rw [same]
    exact fail_selectedGrant? session e
  · rw [same]
    right
    dsimp only
    cases hands : op.handsOut a with
    | none => rw [Operation.remember_of_handsOut_none hands]
    | some token =>
      rw [Operation.remember_of_handsOut_some hands]
      exact session.selectedGrant?_set_token token

end Operations

/-- Acting leaves the session as it is, or selects a grant and goes to the expenses. -/
theorem Page.handle_selects (p : Page) (session : Session) (act : Act) (entry : Entry) :
    (p.handle session act entry).session = session ∨
      p.kind = .grants ∧ (p.handle session act entry).commands = [.goto "/expenses"] := by
  fun_cases handle p session act entry
  case case2 s a =>
    refine (s.handle_selects session a entry).imp id fun goes => ⟨rfl, ?_⟩
    simp [Turn.map, goes]
  case case10 => exact .inl rfl
  all_goals
    rename_i s a
    exact .inl (s.handle_session a)

/-- The answer that a grant was made changes nothing else about the session. -/
theorem Page.Call.remember_of_made? {c : Page.Call} {a : c.Answer} {g : Grant}
    (made : c.made? (.ok a) = some g) (session : Session) :
    c.operation.remember a session = session := by
  cases c with
  | grants c =>
    cases c with
    | create draft => rfl
    | load | replace _ _ | delete _ => cases made
  | _ => cases made

namespace Tab

/-! ## Header and footer look at the session where the path changes -/

/-- What moves lead to that leave the path as it is. -/
abbrev LeadsHere : Tab → Tab → Prop :=
  Relation.ReflTransGen fun tab after =>
    Moves tab after ∧ after.location.path = tab.location.path

/-- Header and footer have looked at the session if the path has changed, and only then. -/
def Looked (tab after : Tab) : Prop :=
  after.chrome = if after.location.path = tab.location.path then tab.chrome
    else Chrome.look after.session after.location.path

section Looked

variable {tab after final : Tab}

theorem looked_of_same (chrome : after.chrome = tab.chrome)
    (location : after.location = tab.location) : Looked tab after := by
  rw [Looked, if_pos (congrArg Location.path location), chrome]

theorem looked_follow (tab : Tab) (path : String) : Looked tab (tab.follow path) := by
  rw [Looked, Tab.follow, goto_chrome, goto_session, goto_location]

theorem looked_takeTurn (tab : Tab) (t : Turn Page Page.Call) : Looked tab (tab.takeTurn t) :=
  looked_of_same (takeTurn_chrome ..) (takeTurn_location ..)

theorem send_chrome (tab : Tab) (page : Nat) (c : Page.Call) :
    (tab.send page c).chrome = tab.chrome ∧ (tab.send page c).location = tab.location := by
  rcases send_cases tab page c with
    ⟨-, sent⟩ | ⟨request, -, ⟨r, server, -, sent⟩ | ⟨server, -, sent⟩⟩
  · rw [sent]
    exact ⟨settleCall_chrome .., settleCall_location ..⟩
  · rw [sent]
    exact ⟨settleCall_chrome .., settleCall_location ..⟩
  · rw [sent]
    exact ⟨rfl, rfl⟩

theorem Looked.congr {before : Tab} (looked : Looked before after)
    (chrome : before.chrome = tab.chrome) (location : before.location = tab.location) :
    Looked tab after := by
  unfold Looked
  rw [← chrome, ← location]
  exact looked

theorem Works.looked {due : Due} (works : Works tab due after) : Looked tab after := by
  cases works with
  | mounts => exact looked_takeTurn tab _
  | calls page c => exact looked_of_same (send_chrome ..).1 (send_chrome ..).2
  | goes path => exact looked_follow tab path
  | signsOut => exact looked_follow tab signInPath
  | expires => exact (looked_follow { tab with expired := false } signInPath).congr rfl rfl
  | left own elsewhere => exact looked_of_same rfl rfl
  | seen => exact looked_of_same rfl rfl

theorem Moves.looked (moves : Moves tab after) : Looked tab after := by
  cases moves with
  | works next =>
    obtain ⟨due, rest, -, works⟩ := tab.works_of_next next
    exact works.looked.congr rfl rfl
  | acts rests offered entry => exact looked_takeTurn tab _
  | visits rests path => exact looked_follow tab path
  | answers rests held r => exact looked_of_same (settleCall_chrome ..) (settleCall_location ..)
  | keeps key value => cases value <;> exact looked_of_same rfl rfl
  | _ => exact looked_of_same rfl rfl

/-- Header and footer stay as they are while the path does. -/
theorem LeadsHere.chrome (leads : LeadsHere tab final) : final.chrome = tab.chrome := by
  induction leads with
  | refl => rfl
  | tail _ here ih => rw [here.1.looked, if_pos here.2, ih]

/-- On the sign-in page there are no header and no footer. -/
theorem Moves.away (moves : Moves tab after)
    (away : tab.chrome.visible = true → tab.location.path ≠ signInPath) :
    after.chrome.visible = true → after.location.path ≠ signInPath := by
  rw [moves.looked]
  split
  · rename_i same
    rw [same]
    exact away
  · simp [Chrome.look, showsChrome]

end Looked

/-! ## How the selection changes -/

/-- The title of the selected grant. -/
def grantTitle? (tab : Tab) : Option String :=
  tab.session.selectedGrant?.map SelectedGrant.title

/-- A selection is written that leads nowhere: a grant was just made, or another window writes. -/
inductive SelectsUnread (tab : Tab) : Tab → Prop
  | made {page : Nat} {c : Page.Call} {outcome : Outcome c.Answer} {after : Tab}
      (settles : tab.Settles page c outcome after) {g : Grant} {id : String}
      (made : c.made? outcome.result = some g) (own : g.id = some id) : SelectsUnread tab after
  | kept {key : String} (own : key = Session.grantIdKey ∨ key = Session.grantTitleKey)
      (value : Option String) : SelectsUnread tab (tab.keep key value)

/-- A grant was selected in its row: the page is to go to the expenses. -/
structure Choosing (tab : Tab) : Prop where
  page : tab.page.kind = .grants
  only : tab.due = [.goto tab.number "/expenses"]

/-- How the selection is not what it was: the way to another path is due, or nothing follows. -/
inductive Reselects (tab after : Tab) : Prop
  | parting (parting : ∃ due ∈ after.due, after.Parts due)
  | choosing (choosing : Choosing after)
  | unread (unread : SelectsUnread tab after)

section Selection

variable {tab after : Tab} {page : Nat} {c : Page.Call} {outcome : Outcome c.Answer}

theorem Settles.selectedGrant? (settles : tab.Settles page c outcome after) :
    outcome.ended = true ∨ outcome.session.selectedGrant? = tab.session.selectedGrant? := by
  cases settles with
  | unsent first unasked => exact fail_selectedGrant? ..
  | atOnce first asked taken => exact settle_selectedGrant? ..
  | answered rests held r => exact settle_selectedGrant? ..

theorem Settles.same_or_reselects (settles : tab.Settles page c outcome after) :
    after.session.selectedGrant? = tab.session.selectedGrant? ∨ Reselects tab after := by
  obtain ⟨taking, -, -, -, -, rfl⟩ := settles.settleCall
  rcases settles.selectedGrant? with ended | same
  · exact .inr (.parting (settleCall_parting taking page c ended))
  · rw [settleCall_session, settling, Page.settle_session]
    cases made : c.made? outcome.result with
    | none => exact .inl same
    | some g =>
      cases own : g.id with
      | none =>
        left
        simpa only [Option.elim_some, Grants.selectMade, own] using same
      | some id => exact .inr (.unread (.made settles made own))

/-- The grant that was just made is selected. -/
theorem Settles.session_of_made (settles : tab.Settles page c outcome after) {g : Grant}
    {id : String} (made : c.made? outcome.result = some g) (own : g.id = some id) :
    after.session = tab.session.selectGrant id g.title := by
  have settled : outcome.session = tab.session := by
    have failed {e : Failure}
        (same : outcome = Operation.fail tab.session e) : outcome.session = tab.session := by
      rw [same, Operation.fail_result, Page.Call.made?_error] at made
      cases made
    have answered {answer : Except Failure Response}
        (same : outcome = c.operation.settle tab.session answer) :
        outcome.session = tab.session := by
      rcases settle_cases c.operation tab.session answer with ⟨e, fails⟩ | ⟨a, succeeds⟩
      · exact failed (same.trans fails)
      · rw [same, succeeds] at made ⊢
        exact Page.Call.remember_of_made? made _
    cases settles with
    | unsent first unasked => exact failed rfl
    | atOnce first asked taken => exact answered rfl
    | answered rests held r => exact answered rfl
  obtain ⟨taking, -, -, -, -, rfl⟩ := settles.settleCall
  rw [settleCall_session, settling, Page.settle_session, made, settled]
  exact Session.selectMade_of_known _ own

theorem keep_selectedGrant? (tab : Tab) {key : String} (otherId : key ≠ Session.grantIdKey)
    (otherTitle : key ≠ Session.grantTitleKey) (value : Option String) :
    (tab.keep key value).session.selectedGrant? = tab.session.selectedGrant? := by
  cases value with
  | none =>
    refine Session.selectedGrant?_congr ?_ ?_
    · exact (Session.get?_remove ..).trans (if_neg otherId.symm)
    · exact (Session.get?_remove ..).trans (if_neg otherTitle.symm)
  | some value =>
    refine Session.selectedGrant?_congr ?_ ?_
    · exact (Session.get?_set ..).trans (if_neg otherId.symm)
    · exact (Session.get?_set ..).trans (if_neg otherTitle.symm)

theorem Moves.same_or_reselects (moves : Moves tab after) :
    after.session.selectedGrant? = tab.session.selectedGrant? ∨ Reselects tab after := by
  have same {other : Session} (eq : other = tab.session) :
      other.selectedGrant? = tab.session.selectedGrant? := by rw [eq]
  cases moves with
  | works next =>
    obtain ⟨due, rest, first, works⟩ := tab.works_of_next next
    cases works with
    | mounts => exact .inl (same ((takeTurn_session ..).trans (Page.mounted_session ..)))
    | calls page c =>
      rcases send_cases { tab with due := rest } page c with
        ⟨unasked, -⟩ | ⟨request, asked, ⟨r, server, taken, -⟩ | ⟨server, -, sent⟩⟩
      · exact (Settles.unsent first unasked).same_or_reselects
      · exact (Settles.atOnce first asked taken).same_or_reselects
      · exact .inl (same (by rw [sent]))
    | goes path => exact .inl (same (goto_session ..))
    | signsOut => exact .inl (same (goto_session ..))
    | expires => exact .inl (same (goto_session ..))
    | left own elsewhere => exact .inl rfl
    | seen => exact .inl rfl
  | @acts rests a offered entry =>
    rcases tab.page.handle_selects tab.session a entry with kept | ⟨grants, goes⟩
    · exact .inl (same ((takeTurn_session ..).trans kept))
    · refine .inr (.choosing ⟨?_, ?_⟩)
      · rw [takeTurn_page, Page.kind_handle, grants]
      · rw [takeTurn_due, rests, goes, takeTurn_number]
        rfl
  | signsOut rests =>
    exact .inr (.parting ⟨.signedOut, List.mem_append_right _ List.mem_cons_self, trivial⟩)
  | visits rests path => exact .inl (same (goto_session ..))
  | answers rests held r => exact (Settles.answered rests held r).same_or_reselects
  | keeps key value =>
    by_cases own : key = Session.grantIdKey ∨ key = Session.grantTitleKey
    · exact .inr (.unread (.kept own value))
    · obtain ⟨otherId, otherTitle⟩ := not_or.mp own
      exact .inl (keep_selectedGrant? tab otherId otherTitle value)
  | _ => exact .inl rfl

theorem Settles.chrome (settles : tab.Settles page c outcome after) :
    after.chrome = tab.chrome := by
  cases settles with
  | unsent first unasked => exact (send_chrome ..).1
  | atOnce first asked taken => exact (send_chrome ..).1
  | answered rests held r => exact settleCall_chrome ..

/-- Nobody looks at such a selection. -/
theorem SelectsUnread.chrome (unread : SelectsUnread tab after) : after.chrome = tab.chrome := by
  cases unread with
  | made settles made own => exact settles.chrome
  | kept own value => cases value <;> rfl

end Selection

/-! ## The way to another path -/

section Ways

variable {tab after : Tab}

/-- Other work than that which goes to the sign-in page leaves that due. -/
theorem work_parting {due : Due} (other : ¬ tab.Parts due)
    (parting : ∃ due ∈ tab.due, tab.Parts due) :
    ∃ parting ∈ (tab.work due).due, (tab.work due).Parts parting := by
  refine parting_mono ?_ (fun raised => ?_) parting
  · obtain ⟨-, -, -, new, grown, -⟩ := tab.work_adds due
    rw [grown]
    exact List.subset_append_left _ _
  · cases due with
    | mount page =>
      simp only [work]
      split
      · exact (takeTurn_expired ..).trans raised
      · exact raised
    | call page c =>
      rcases send_cases tab page c with
        ⟨-, sent⟩ | ⟨request, -, ⟨r, server, -, sent⟩ | ⟨server, -, sent⟩⟩
      · rw [work, sent, settleCall_expired, raised, Bool.or_true]
      · rw [work, sent, reply, settleCall_expired, raised, Bool.or_true]
      · rw [work, sent, raised]
    | goto page path =>
      simp only [work]
      split
      · exact (goto_expired ..).trans raised
      · exact raised
    | signedOut => exact absurd trivial other
    | expiry => exact absurd raised other

/-- Work that goes to the sign-in page leaves no header and no footer. -/
theorem work_hidden {due : Due} (parts : tab.Parts due)
    (away : tab.chrome.visible = true → tab.location.path ≠ signInPath) :
    (tab.work due).chrome.visible = false := by
  cases due with
  | signedOut =>
    rw [work]
    exact follow_signIn_hidden away
  | expiry =>
    have raised : tab.expired = true := parts
    rw [work, if_pos raised]
    exact @follow_signIn_hidden { tab with expired := false } away
  | mount page => cases parts
  | call page c => cases parts
  | goto page path => cases parts

/-- While something is due, the first piece of it is done, or page and work stay as they are. -/
theorem Moves.works_or_waits (moves : Moves tab after) (busy : tab.due ≠ []) :
    tab.next = some after ∨ after.due = tab.due ∧ after.expired = tab.expired ∧
      after.page = tab.page ∧ after.number = tab.number := by
  cases moves with
  | works next => exact .inl next
  | acts rests offered entry => exact absurd rests busy
  | signsOut rests => exact absurd rests busy
  | visits rests path => exact absurd rests busy
  | answers rests held r => exact absurd rests busy
  | keeps key value => cases value <;> exact .inr ⟨rfl, rfl, rfl, rfl⟩
  | _ => exact .inr ⟨rfl, rfl, rfl, rfl⟩

/-- Work that goes to the sign-in page stays due until there are no header and no footer. -/
theorem Moves.parting_or_hidden (moves : Moves tab after)
    (away : tab.chrome.visible = true → tab.location.path ≠ signInPath)
    (parting : ∃ due ∈ tab.due, tab.Parts due) :
    (∃ due ∈ after.due, after.Parts due) ∨ after.chrome.visible = false := by
  obtain ⟨leading, mem, leads⟩ := parting
  rcases moves.works_or_waits (List.ne_nil_of_mem mem) with next | ⟨same, expired, -, -⟩
  · obtain ⟨due, rest, first⟩ := List.exists_cons_of_ne_nil (List.ne_nil_of_mem mem)
    rw [next_eq_some tab first, Option.some.injEq] at next
    subst next
    by_cases parts : tab.Parts due
    · exact .inr (@work_hidden { tab with due := rest } due (parts.mono id) away)
    · left
      have other : ¬ Parts { tab with due := rest } due := fun leads => parts (leads.mono id)
      refine work_parting other ?_
      rcases List.mem_cons.mp (first ▸ mem) with rfl | mem
      · exact absurd leads parts
      · exact ⟨leading, mem, leads.mono id⟩
  · left
    refine parting_mono ?_ (fun raised => expired.trans raised) ⟨leading, mem, leads⟩
    rw [same]
    exact List.Subset.refl _

theorem follow_expenses (here : Location) : (here.follow "/expenses").path = "/expenses" := by
  have same : here.resolve "/expenses" = "/expenses" := rfl
  simp only [Location.follow, same]
  rw [if_neg (by decide)]
  decide

/-- A page that is to go to the expenses is still there, or the path has changed. -/
theorem Choosing.moves (choosing : Choosing tab) (placed : tab.Placed) (moves : Moves tab after) :
    Choosing after ∨ after.location.path ≠ tab.location.path := by
  have busy : tab.due ≠ [] := by
    rw [choosing.only]
    exact List.cons_ne_nil _ _
  rcases moves.works_or_waits busy with next | ⟨due, -, page, number⟩
  · right
    rw [next_eq_some tab choosing.only, Option.some.injEq] at next
    subst next
    simp only [work, if_true, Tab.follow, goto_location, follow_expenses]
    intro there
    have elsewhere := placed
    rw [Placed, choosing.page, ← there] at elsewhere
    revert elsewhere
    decide
  · exact .inl ⟨page ▸ choosing.page, by rw [due, number, choosing.only]⟩

end Ways

/-! ## In all runs -/

/-- Since the path last changed a selection was written that leads nowhere. -/
def SelectedSince (start tab : Tab) : Prop :=
  ∃ before after, Leads start before ∧ SelectsUnread before after ∧ LeadsHere after tab

/-- The header names the selected grant, or the way to another path is due, or a selection was
written that leads nowhere. -/
structure Titled (start tab : Tab) : Prop where
  away : tab.chrome.visible = true → tab.location.path ≠ signInPath
  titled : tab.chrome.visible = true → tab.chrome.grant = tab.grantTitle? ∨
    (∃ due ∈ tab.due, tab.Parts due) ∨ Choosing tab ∨ SelectedSince start tab

section Titled

variable {start tab after : Tab}

theorem Titled.moves (titled : Titled start tab) (leads : Leads start tab) (placed : tab.Placed)
    (moves : Moves tab after) : Titled start after where
  away := moves.away titled.away
  titled shown := by
    -- Where the path changes the header looks at the session; the rest is about moves that stay.
    by_cases here : after.location.path = tab.location.path
    · have chrome : after.chrome = tab.chrome := by rw [moves.looked, if_pos here]
      rw [chrome]
      rcases titled.titled (chrome ▸ shown) with same | parting | choosing | since
      · rcases moves.same_or_reselects with kept | parting | choosing | unread
        · left
          rw [same, grantTitle?, grantTitle?, kept]
        · exact .inr (.inl parting)
        · exact .inr (.inr (.inl choosing))
        · exact .inr (.inr (.inr ⟨tab, after, leads, unread, .refl⟩))
      · rcases moves.parting_or_hidden titled.away parting with still | hidden
        · exact .inr (.inl still)
        · exact absurd (hidden.symm.trans shown) Bool.false_ne_true
      · rcases choosing.moves placed moves with still | gone
        · exact .inr (.inr (.inl still))
        · exact absurd here gone
      · obtain ⟨before, written, earlier, unread, stays⟩ := since
        exact .inr (.inr (.inr ⟨before, written, earlier, unread, stays.tail ⟨moves, here⟩⟩))
    · left
      rw [moves.looked, if_neg here]
      rfl

theorem launched_titled (session : Session) (server : Server) (path : String) :
    Titled (launched session server path) (launched session server path) where
  away := by simp [launched, Chrome.look, showsChrome]
  titled _ := .inl rfl

theorem Leads.titled {session : Session} {server : Server} {path : String}
    (leads : Leads (launched session server path) tab) :
    Titled (launched session server path) tab := by
  induction leads with
  | refl => exact launched_titled session server path
  | tail leads moves ih =>
    exact ih.moves leads (Leads.placed leads (launched_placed session server path)) moves

end Titled

/-- What stands in an element, if its class is that of the place for the selected grant. -/
def grantName? (spot : Spot Act) : Option String :=
  (spot.chain.head?.filter fun n => n.attribute? "class" == some "nav-shell__grant").map
    Node.content

/-- What a document shows in the place for the selected grant. -/
def grantNames (nodes : List (Node Act)) : List String :=
  (spots nodes).filterMap grantName?

/-- The header names the grant that is selected, but for selections that lead nowhere. -/
structure HeaderNames (start final : Tab) : Prop where
  /-- At rest the header has the title of the selected grant, unless a grant was made or another
  window wrote since the path last changed. -/
  named : final.due = [] → final.header ≠ [] →
    grantNames final.header = [final.grantTitle?.getD "No grant selected"] ∨
      SelectedSince start final
  /-- Until the path changes the header stays what it was before such a selection. -/
  unread : ∀ before after, SelectsUnread before after → LeadsHere after final →
    final.header = before.header
  /-- The answer that a grant was made selects the grant. -/
  made : ∀ page c outcome after g id, final.Settles page c outcome after →
    c.made? outcome.result = some g → g.id = some id →
      after.session = final.session.selectGrant id g.title

section Header

variable {tab after : Tab}

theorem grantName?_eq (path : List Nat) (tag cls : String) (attributes : List Attribute)
    (listeners : List (Listener Act)) (children around : List (Node Act)) :
    grantName? ⟨path, .element tag (.cls cls :: attributes) listeners children :: around⟩ =
      if cls = "nav-shell__grant" then some (Node.contentAll children) else none := by
  have found : Node.attribute? "class" (.element tag (.cls cls :: attributes) listeners children) =
      some cls := rfl
  split
  · rename_i own
    subst own
    simp [grantName?, found, Node.content]
  · rename_i other
    simp [grantName?, found, other]

/-- There is one place for the selected grant in the header. -/
theorem grantNames_header (shown : tab.chrome.visible = true) :
    grantNames tab.header = [tab.chrome.grant.getD "No grant selected"] := by
  have link (href path : String) : linkClass href path ≠ "nav-shell__grant" := by
    unfold linkClass
    split <;> decide
  simp [grantNames, Tab.header, Chrome.header, shown, links, spots, spotsAmong, spotsOf, Node.box,
    Node.link, Node.button, grantName?_eq, link, Node.content, Node.contentAll]

end Header

/-- A server with one grant. -/
def coastServer : Server where
  replies := [some (.answer ⟨200, "\x7b\"data\":[\x7b\"id\":\"g\",\"title\":\"Coast\","
    ++ "\"funding_agency\":\"\",\"start_date\":\"\",\"end_date\":\"\",\"total_amount\":5,"
    ++ "\"status\":\"\"\x7d],\"count\":1\x7d"⟩)]

/-- What the console shows in the header, and the grant that is selected. -/
def headerAndGrant (tab : Tab) : Bool × Option String × Option String :=
  (tab.chrome.visible, tab.chrome.grant, tab.grantTitle?)

theorem grantNames_of_headerAndGrant {tab : Tab} {named selected : Option String}
    (same : tab.headerAndGrant = (true, named, selected)) :
    tab.header ≠ [] ∧ grantNames tab.header = [named.getD "No grant selected"] ∧
      tab.grantTitle? = selected := by
  obtain ⟨visible, rest⟩ := Prod.mk.inj same
  obtain ⟨rfl, selected⟩ := Prod.mk.inj rest
  refine ⟨?_, grantNames_header visible, selected⟩
  simp [Tab.header, Chrome.header, visible]

end Tab

end Console

end GrantConsole
