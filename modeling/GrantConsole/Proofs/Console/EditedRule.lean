import GrantConsole.Proofs.Console.FormWithheld
import GrantConsole.Proofs.Console.Repeats
import GrantConsole.Proofs.Console.RulePlaces

/-!
# From the list of rules to the editor

The button that edits a rule follows the path of the rules with the id of the rule after it. For an
id that names itself this opens the editor of that rule, which looks for the rule, shows it and
replaces it; for any other id it does not.
-/

namespace GrantConsole.Screen.RuleEditor

open GrantConsole.Api

/-- The editor of a rule while it looks for the rule. -/
def seeking (id : String) (session : Session) : RuleEditor :=
  { opened (some id) session with loading := true }

/-- The editor of a rule with the rule as it was found. -/
def editing (id : String) (rule : Rule) : RuleEditor :=
  { address := some id, draft := ⟨.load rule, []⟩ }

variable {id : String} {session : Session}

theorem mounted_opened {grant : SelectedGrant} (selected : session.selectedGrant? = some grant) :
    (opened (some id) session).mounted session =
      ⟨seeking id session, session, [.call (.locate grant.id id)]⟩ := by
  simp only [mounted, seeking, opened, selected]

/-- The listing of its grant has the rule, and the editor shows it as it is listed. -/
def Finds (id : String) (listing : GrantConsole.Page Rule) (rule : Rule) : Prop :=
  listing.items.find? (fun rule => rule.id == some id) = some rule

theorem settle_seeking {grant : String} {listing : GrantConsole.Page Rule} {rule : Rule}
    (finds : Finds id listing rule) (later : Session) :
    settle (some (seeking id session)) later (.locate grant id) (.ok listing) =
      ⟨some (editing id rule), later, []⟩ := by
  have located : locateRule (.ok listing) id = .ok rule := by
    rw [locateRule, finds]
  simp only [settle, settleLocate, located]
  rfl

/-- A rule that was found is saved under its id. -/
theorem calls_submit_editing {listing : GrantConsole.Page Rule} {rule : Rule}
    (finds : Finds id listing rule) (later : Session) (entry : Entry) :
    ((editing id rule).handle later .submit entry).calls = [.submit ⟨.update id, rule⟩] := by
  have own := List.find?_some (p := fun rule : Rule => rule.id == some id) finds
  have known : rule.id = some id := eq_of_beq own
  have mode : (RuleDraft.load rule).submitMode = .update id := by
    rw [RuleDraft.submitMode, RuleDraft.load, known]
  have begun : (RuleDraft.load rule).beginSubmit.2 = some ⟨.update id, rule⟩ := by
    rw [← mode]
    rfl
  simp only [handle, editing, begun]
  rfl

end GrantConsole.Screen.RuleEditor

namespace GrantConsole.Console

open GrantConsole.Api GrantConsole.Markup GrantConsole.Record GrantConsole.Screen GrantConsole.Url
  Place

namespace Tab

/-- What the button that edits a rule brings about: the console follows a path and comes to rest. -/
structure EditLeads (id : String) (tab gone after : Tab) : Prop where
  follows : Leads tab gone
  settles : Leads gone after
  location : gone.location = tab.location.follow ("/rules/" ++ id)
  place : Place.ofPath gone.location.path = .rule id ↔ NamesItself id
  opens : gone.OpensRule id ↔ NamesItself id
  /-- The editor looks for the rule among those of its grant. -/
  seeks : NamesItself id → ∀ grant, tab.session.isSignedIn = true →
    tab.session.selectedGrant? = some grant →
    ∃ sought, gone.next = some sought ∧
      sought.page = .ruleEditor (RuleEditor.seeking id tab.session) ∧
      sought.due = [.call gone.number (.ruleEditor (.locate grant.id id))]
  /-- It shows the rule that is listed with this id, and a save replaces it. -/
  finds : ∀ grant listing rule session, RuleEditor.Finds id listing rule →
    RuleEditor.settle (some (RuleEditor.seeking id tab.session)) session (.locate grant id)
        (.ok listing) = ⟨some (RuleEditor.editing id rule), session, []⟩ ∧
      ∀ entry, ((RuleEditor.editing id rule).handle session .submit entry).calls =
        [.submit ⟨.update id, rule⟩]
  /-- Nothing is changed at the server but this rule. -/
  changes : NamesItself id → ∀ final request later, LeadsEchoing gone.number id gone final →
    SendsOf gone.number final request later →
    request.method = .get ∨
      request.method = .put ∧ request.url = "/api/v1/rules/" ++ encode id

section Follows

variable {tab : Tab} {s : Rules} {id : String}

/-- The page of the rules gives way to the editor of the rule that the path leads to. -/
theorem follow_opens (rests : tab.due = []) (shown : tab.page = .rules s) (placed : tab.Placed)
    (names : NamesItself id) :
    ∃ chrome, tab.follow ("/rules/" ++ id) =
      { tab with
        location := tab.location.follow ("/rules/" ++ id), chrome
        page := .opened (.rule id) tab.session
        number := tab.number + 1
        strays := []
        due := [.mount (tab.number + 1)] } := by
  have place := (ofPath_follow_rules_iff tab.location id).mpr names
  have kind : (tab.follow ("/rules/" ++ id)).page.kind = .ruleEditor := by
    have there : (tab.follow ("/rules/" ++ id)).Placed := goto_placed placed _
    rw [there, follow, goto_location, place]
    rfl
  unfold follow at kind ⊢
  rcases tab.goto_cases (tab.location.follow ("/rules/" ++ id)) with
    stays | ⟨chrome, place, moves⟩ | ⟨chrome, opens⟩
  · rw [stays, shown] at kind
    cases kind
  · rw [moves, Page.kind_moved, shown] at kind
    cases kind
  · refine ⟨chrome, ?_⟩
    rw [opens, place, rests]
    rfl

/-- The editor of a rule is opened from the page of the rules exactly if the id names itself. -/
theorem follow_opensRule_iff (rests : tab.due = []) (shown : tab.page = .rules s)
    (placed : tab.Placed) (addressed : tab.Addressed) :
    (tab.follow ("/rules/" ++ id)).OpensRule id ↔ NamesItself id := by
  constructor
  · intro opens
    obtain ⟨session, page⟩ := opens.page
    have there : (tab.follow ("/rules/" ++ id)).Addressed := goto_addressed addressed _
    have place := there (.rule id) (by rw [page]; rfl)
    rw [follow, goto_location] at place
    exact (ofPath_follow_rules_iff ..).mp place.symm
  · intro names
    obtain ⟨chrome, opens⟩ := follow_opens rests shown placed names
    rw [opens]
    exact ⟨List.mem_singleton.mpr rfl, _, rfl⟩

/-- The editor that is opened looks for its rule. -/
theorem follow_seeks (rests : tab.due = []) (shown : tab.page = .rules s) (placed : tab.Placed)
    (names : NamesItself id) {grant : SelectedGrant} (signedIn : tab.session.isSignedIn = true)
    (selected : tab.session.selectedGrant? = some grant) :
    ∃ sought, (tab.follow ("/rules/" ++ id)).next = some sought ∧
      sought.page = .ruleEditor (RuleEditor.seeking id tab.session) ∧
      sought.due = [.call (tab.follow ("/rules/" ++ id)).number
        (.ruleEditor (.locate grant.id id))] := by
  obtain ⟨chrome, opens⟩ := follow_opens rests shown placed names
  have granted : tab.session.access = .granted := by
    rw [Session.access, signedIn]
    rfl
  have mounted : (Page.opened (.rule id) tab.session).mounted tab.session =
      ⟨.ruleEditor (RuleEditor.seeking id tab.session), tab.session,
        [.call (.ruleEditor (.locate grant.id id))]⟩ := by
    have load : (Page.opened (.rule id) tab.session).load tab.session =
        ((RuleEditor.opened (some id) tab.session).mounted tab.session).map .ruleEditor
          .ruleEditor := rfl
    rw [Page.mounted, granted, load, RuleEditor.mounted_opened selected]
    rfl
  rw [opens]
  refine ⟨_, next_eq_some _ rfl, ?_, ?_⟩
  · simp only [work, if_pos, takeTurn_page, mounted]
  · simp only [work, if_pos, takeTurn_due, mounted]
    rfl

/-- The editor that is opened on a rule changes nothing but this rule. -/
theorem OpensRule.method_of_sends {final later : Tab} {request : Request}
    (opens : tab.OpensRule id) (timely : tab.Timely) (placed : tab.Placed)
    (echoing : LeadsEchoing tab.number id tab final)
    (sends : SendsOf tab.number final request later) :
    request.method = .get ∨
      request.method = .put ∧ request.url = "/api/v1/rules/" ++ encode id := by
  have kept := LeadsEchoing.kept echoing (opens.kept timely) timely placed
  obtain ⟨c, mem, asked⟩ := sends.request?_eq
  exact method_of_targets (kept.calls ⟨_, c⟩ mem rfl) asked

end Follows

variable {session : Session} {server : Server} {path : String} {tab : Tab} {s : Rules}
  {id : String} {t : Target} {spot : Spot Act}

/-- A click on the button that edits a rule opens the editor of that rule exactly if the id of the
rule names itself. -/
theorem edit_opens_named_rule (leads : Leads (launched session server path) tab)
    (rests : tab.due = []) (shown : tab.page = .rules s)
    (presses : tab.Presses t spot (.rules (.edit id))) :
    ∃ gone, EditLeads id tab gone (tab.step (.click t)).1 := by
  have timely := leads.timely (launched_timely session server path)
  have placed := leads.placed (launched_placed session server path)
  have addressed := leads.addressed (launched_addressed session server path)
  let gone : Tab := tab.follow ("/rules/" ++ id)
  let acted : Tab := { tab with due := [.goto tab.number ("/rules/" ++ id)] }
  -- All that the click makes due is to follow the path.
  have turn : tab.takeTurn (tab.page.handle tab.session (.rules (.edit id)) {}) = acted := by
    have goes : tab.page.handle tab.session (.rules (.edit id)) {} =
        ⟨tab.page, tab.session, [.goto ("/rules/" ++ id)]⟩ := by
      rw [shown]
      rfl
    rw [goes]
    simp [takeTurn, commands, command, push, rests, acted]
  have next : acted.next = some gone := by
    have same : { acted with due := [] } = tab := by rw [← rests]
    rw [next_eq_some acted rfl, same, work, if_pos rfl]
  have silent : (Page.Act.rules (.edit id)).submits ≠ true := Bool.false_ne_true
  have acts := Moves.acts rests (fun submits => absurd submits silent) {}
  rw [turn] at acts
  have follows : Leads tab gone := .tail (.single acts) (.works next)
  have settles : Leads gone (tab.step (.click t)).1 := by
    have runs (fuel : Nat) : acted.runFor (fuel + 1) = gone.runFor fuel := by
      rw [runFor, next]
    rw [presses.step_eq, act_page_eq, turn, run, workLimit, runs]
    exact (leads_runFor gone _).tail (.dresses _ _)
  have location : gone.location = tab.location.follow ("/rules/" ++ id) :=
    goto_location tab _
  have opens : gone.OpensRule id ↔ NamesItself id :=
    follow_opensRule_iff rests shown placed addressed
  exact ⟨gone,
    { follows, settles, location, opens
      place := by rw [location, ofPath_follow_rules_iff]
      seeks := fun names grant => follow_seeks rests shown placed names
      finds := fun grant listing rule later finds =>
        ⟨RuleEditor.settle_seeking finds later, RuleEditor.calls_submit_editing finds later⟩
      changes := fun names _ _ _ echoing sends =>
        (opens.mpr names).method_of_sends (follows.timely timely) (follows.placed placed)
          echoing sends }⟩

/-- The page of the rules of a grant with one rule. -/
def oneRule (id : String) : Tab :=
  let listing := "\x7b\"data\":[\x7b\"id\":\"" ++ id ++
    "\",\"grant_id\":\"g\",\"name\":\"\",\"rule_type\":\"expense\",\"error_message\":\"\"\x7d]\x7d"
  opened ⟨some [("access_token", "t"), ("selected_grant_id", "g")]⟩
    ⟨[some (.answer ⟨200, listing⟩)], []⟩ "/rules"

def editButton : Target where
  look := { tag := some "button", text := some "Edit" }

/-- The kind of the page, and what a click on the first button that edits a rule is heard as. -/
def editHeard (tab : Tab) : Kind × Option (List Act × Option String × Bool) :=
  (tab.page.kind, (tab.clicked? (.click editButton)).map fun spot =>
    (heard { event := .click } (spot.chain.map Node.listeners), linkOf spot.chain,
      (formChain spot.chain).isNone))

/-- A rule whose id holds a percent sign, a blank and a letter beyond ASCII is edited. -/
theorem edit_opens_named_rule_percent :
    ∃ gone, Leads (oneRule "50% ü") gone ∧
      Leads gone ((oneRule "50% ü").step (.click editButton)).1 ∧ gone.OpensRule "50% ü" := by
  have heard : editHeard (oneRule "50% ü") =
      (.rules, some ([.page (.rules (.edit "50% ü"))], none, true)) := by decide +kernel
  obtain ⟨kind, pressed⟩ := Prod.mk.inj heard
  obtain ⟨s, shown⟩ : ∃ s, (oneRule "50% ü").page = .rules s := by
    generalize (oneRule "50% ü").page = p at kind
    cases p <;> cases kind
    exact ⟨_, rfl⟩
  obtain ⟨spot, presses⟩ := exists_presses pressed
  have names : NamesItself "50% ü" :=
    (ofPath_follow_rules_iff ⟨"/rules", ""⟩ "50% ü").mp (by decide +kernel)
  obtain ⟨gone, edit⟩ := edit_opens_named_rule (leads_after _ _ _ []) (after_due _ _ _ []) shown
    presses
  exact ⟨gone, edit.follows, edit.settles, edit.opens.mpr names⟩

/-- Not every id of a rule in the list leads to the editor of that rule. -/
theorem edit_leads_elsewhere :
    ¬ ∀ id, id ≠ "" → (editHeard (oneRule id)).2 = some ([.page (.rules (.edit id))], none, true) →
      Place.ofPath ((oneRule id).step (.click editButton)).1.location.path = .rule id := by
  intro all
  have named := all "a/b" (by decide)
  revert named
  decide +kernel

end Tab

end GrantConsole.Console
