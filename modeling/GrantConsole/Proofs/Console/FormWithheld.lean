import GrantConsole.Proofs.Console.Course
import GrantConsole.Proofs.Markup.Shell

/-!
# The form of an existing rule is withheld

The page of an existing rule that an operator mounts has no form until the listing of the selected
grant has come with a rule of its id. As long as it has none it asks for nothing but that listing;
what it submits first goes to that rule. Without a grant, or when the listing fails or lacks the
rule, the operator is told, and the page never has a form and never submits anything.
-/

namespace GrantConsole.Screen.RuleEditor

open GrantConsole.Markup

/-- Why an editor has no form: its rule is looked for, or there is none to edit. -/
inductive Bar
  | sought
  | missed

def Barred (s : RuleEditor) : Bar → Prop
  | .sought => s.loading = true
  | .missed => s.problem ≠ none

variable {s : RuleEditor} {bar : Bar}

theorem Barred.withheld (barred : s.Barred bar) : s.loading = true ∨ s.problem ≠ none := by
  cases bar with
  | sought => exact .inl barred
  | missed => exact .inr barred

theorem Barred.of_eq (barred : s.Barred bar) {t : RuleEditor} (loading : t.loading = s.loading)
    (problem : t.problem = s.problem) : t.Barred bar := by
  cases bar with
  | sought => exact loading.trans barred
  | missed => exact fun none => barred (problem.symm.trans none)

theorem Barred.lacks_view (barred : s.Barred bar) : s.view.lacks "form" = true := by
  have none : (!s.loading && s.problem.isNone) = false := by
    rcases barred.withheld with loading | problem
    · rw [loading]
      rfl
    · rw [Option.isNone_eq_false_iff.mpr (Option.isSome_iff_ne_none.mpr problem), Bool.and_false]
  simp [view, content, none, title, Node.box, Node.el, Node.link, Node.lacks, Node.lacksAmong]

end GrantConsole.Screen.RuleEditor

namespace GrantConsole.Screen

open GrantConsole.Api

/-- The listing has come, and it has a rule with an id. -/
def Lists (id : String) (result : Except Failure (Page Rule)) : Prop :=
  ∃ listing, result = .ok listing ∧ ∃ rule ∈ listing.items, rule.id = some id

variable {id : String} {result : Except Failure (Page Rule)}

theorem locateRule_of_lists (lists : Lists id result) :
    ∃ rule, locateRule result id = .ok rule ∧ rule.id = some id := by
  obtain ⟨listing, rfl, rule, mem, known⟩ := lists
  unfold locateRule
  dsimp only
  cases found : listing.items.find? fun rule => rule.id == some id with
  | none =>
    have other := List.find?_eq_none.mp found rule mem
    exact absurd (beq_iff_eq.mpr known) other
  | some first =>
    have same := List.find?_some found
    exact ⟨first, rfl, eq_of_beq same⟩

theorem locateRule_of_not_lists (lacks : ¬ Lists id result) :
    ∃ fault, locateRule result id = .error fault := by
  unfold locateRule
  split
  · exact ⟨_, rfl⟩
  · rename_i listing
    split
    · rename_i rule found
      have same := List.find?_some found
      exact absurd ⟨listing, rfl, rule, List.mem_of_find?_eq_some found, eq_of_beq same⟩ lacks
    · exact ⟨_, rfl⟩

end GrantConsole.Screen

namespace GrantConsole.Console

open GrantConsole.Api GrantConsole.Markup GrantConsole.Screen GrantConsole.Url

namespace Page

variable {s : RuleEditor} {session : Session}

/-- Where a token is kept, an editor is mounted as its screen says. -/
theorem mounted_ruleEditor (kept : ¬ session.LacksToken) :
    (ruleEditor s).mounted session = (s.mounted session).map ruleEditor .ruleEditor := by
  have access : session.access = .granted := by
    unfold Session.access Session.isSignedIn
    rw [if_pos]
    exact Option.isSome_iff_ne_none.mpr (mt session.token?_eq_none_iff.mp kept)
  unfold mounted
  rw [access]
  rfl

/-- Nothing that is done on the page of an editor without a form gives it one or makes calls. -/
theorem handle_barred {bar : RuleEditor.Bar} (barred : s.Barred bar) (session : Session) {a : Act}
    (offered : a.submits = true → ∃ c h, (ruleEditor s).Offers c h a) (entry : Entry) :
    ∃ t, ((ruleEditor s).handle session a entry).state = ruleEditor t ∧ t.Barred bar ∧
      ((ruleEditor s).handle session a entry).calls = [] := by
  by_cases own : a.kind = (ruleEditor s).kind
  · cases a <;> cases own
    rename_i a
    have edits : a ≠ .submit := by
      rintro rfl
      obtain ⟨c, h, offers⟩ := offered rfl
      obtain ⟨-, t, same, loaded, free⟩ := offers.submits rfl
      cases same
      rcases barred.withheld with loading | problem
      · cases loading.symm.trans loaded
      · exact problem free
    have edited := s.edited_handle session edits entry
    refine ⟨_, rfl, barred.of_eq edited.loading edited.problem, ?_⟩
    rw [handle, Turn.calls_map, s.calls_handle session edits entry, List.map_nil]
  · rw [handle_of_kind_ne own]
    exact ⟨s, rfl, barred, rfl⟩

end Page

namespace Tab

variable {tab after : Tab} {page : Nat} {grant id : String}

/-- An operator who is signed in mounts the page of an existing rule. -/
structure MountsRule (id : String) (tab mounted : Tab) : Prop where
  mount : tab.due.head? = some (.mount tab.number)
  place : Place.ofPath tab.location.path = .rule id
  signedIn : ¬ tab.session.LacksToken
  next : tab.next = some mounted

/-- A page shows no form and asks only for what it reads. -/
structure FormFree (page : Nat) (tab : Tab) : Prop where
  form : tab.number = page → tab.main.lacks "form" = true
  reads : ∀ request after, SendsOf page tab request after → request.method = .get

/-- A page has no form from now on. -/
def FormFreeEver (page : Nat) (tab : Tab) : Prop :=
  ∀ final, Leads tab final → FormFree page final

/-- What moves lead to as long as no call of a page is settled. -/
abbrev LeadsUnsettled (page : Nat) : Tab → Tab → Prop :=
  Relation.ReflTransGen fun tab after =>
    Moves tab after ∧ ∀ c outcome, ¬ tab.Settles page c outcome after

/-- What moves lead to as long as a page changes nothing at the server. -/
abbrev LeadsReading (page : Nat) : Tab → Tab → Prop :=
  Relation.ReflTransGen fun tab after =>
    Moves tab after ∧ ∀ request, SendsOf page tab request after → request.method = .get

/-- A page has no form and waits for the listing of a grant, in which it looks for a rule. -/
structure Seeks (grant id : String) (page : Nat) (tab : Tab) : Prop extends FormFree page tab where
  only : ∀ c outcome after, tab.Settles page c outcome after → c = .ruleEditor (.locate grant id)
  found : ∀ (outcome : Outcome (GrantConsole.Page Rule)) after,
    tab.Settles page (.ruleEditor (.locate grant id)) outcome after → Lists id outcome.result →
    tab.number = page → ∃ s rule, after.page = .ruleEditor s ∧ s.loading = false ∧
      s.draft.value = .load rule ∧ rule.id = some id
  missed : ∀ (outcome : Outcome (GrantConsole.Page Rule)) after,
    tab.Settles page (.ruleEditor (.locate grant id)) outcome after → ¬ Lists id outcome.result →
    (∃ text, after.toasts = tab.toasts.push .error text) ∧ FormFreeEver page after

/-- The form of a page that has been mounted is withheld until its rule is found. -/
structure FormWithheld (id : String) (tab mounted : Tab) : Prop where
  unselected : tab.session.selectedGrant? = none →
    (∃ text, mounted.toasts = tab.toasts.push .error text) ∧ FormFreeEver tab.number mounted
  seeks : ∀ grant, tab.session.selectedGrant? = some grant → ∀ before,
    LeadsUnsettled tab.number mounted before → Seeks grant.id id tab.number before
  first : ∀ before request after, LeadsReading tab.number mounted before →
    SendsOf tab.number before request after → request.method ≠ .get →
    request.method = .put ∧ request.url = "/api/v1/rules/" ++ Url.encode id

/-! ## Pages without a form -/

/-- A page has no form, for a reason, and calls for nothing but the listing of a grant. -/
structure Bare (bar : RuleEditor.Bar) (grant id : String) (page : Nat) (tab : Tab) : Prop where
  calls : ∀ f ∈ tab.calls, f.page = page → f.call = .ruleEditor (.locate grant id)
  state : tab.number = page → ∃ s, tab.page = .ruleEditor s ∧ s.Barred bar

section Bare

variable {bar : RuleEditor.Bar}


theorem Bare.formFree (bare : Bare bar grant id page tab) : FormFree page tab where
  form here := by
    obtain ⟨s, shown, barred⟩ := bare.state here
    have view : tab.page.view.lacks "form" = true := by
      rw [shown, Page.view, lacks_map, barred.lacks_view]
    rw [main, lacks_shownIn, plainMain, Node.box, Node.lacks, Node.lacksAmong, lacks_map, view]
    rfl
  reads request after sends := by
    obtain ⟨c, mem, asked⟩ := sends.request?_eq
    cases bare.calls _ mem rfl
    exact (Operation.request?_eq asked).1

theorem Bare.passes (bare : Bare bar grant id page tab) (passes : Passes page tab after) :
    Bare bar grant id page after where
  calls f mem own := bare.calls f (passes.calls f mem own) own
  state here := by
    obtain ⟨at_, same⟩ := passes.state here
    obtain ⟨s, shown, barred⟩ := bare.state at_
    rcases same with same | ⟨place, moved⟩
    · exact ⟨s, same.trans shown, barred⟩
    · rw [shown] at moved
      cases place <;> exact ⟨_, moved, barred.of_eq rfl rfl⟩

/-- Nothing that is done on a page without a form gives it one or submits anything. -/
theorem Bare.acts (bare : Bare bar grant id page tab) (here : tab.number = page) {a : Page.Act}
    (offered : a.submits = true → ∃ c h, tab.page.Offers c h a) (entry : Entry) :
    Bare bar grant id page (tab.takeTurn (tab.page.handle tab.session a entry)) := by
  obtain ⟨s, shown, barred⟩ := bare.state here
  have kept := Page.handle_barred barred tab.session (shown ▸ offered) entry
  rw [← shown] at kept
  obtain ⟨t, left, barred, silent⟩ := kept
  refine ⟨fun f mem own => ?_, fun _ => ⟨t, (takeTurn_page ..).trans left, barred⟩⟩
  refine bare.calls f ((mem_calls_takeTurn.mp mem).resolve_right fun made => ?_) own
  exact List.not_mem_nil (silent ▸ Turn.mem_calls.mpr made.2)

theorem Bare.unsettled (bare : Bare bar grant id page tab) (meets : Meets page tab after)
    (none : ∀ c outcome, ¬ tab.Settles page c outcome after) : Bare bar grant id page after := by
  cases meets with
  | passes passes => exact bare.passes passes
  | acts here offered entry same => exact same ▸ bare.acts here offered entry
  | settles settles => exact absurd settles (none _ _)

/-! ## The listing comes -/

theorem Settles.number {c : Page.Call} {outcome : Outcome c.Answer}
    (settles : tab.Settles page c outcome after) : after.number = tab.number := by
  obtain ⟨taking, -, same, -, -, rfl⟩ := settles.settleCall
  rw [settleCall_number, same]

/-- No calls are added when the answer to a call of a rule editor is taken in. -/
theorem Settles.calls_subset {c : RuleEditor.Call}
    {outcome : Outcome (Page.Call.ruleEditor c).Answer}
    (settles : tab.Settles page (.ruleEditor c) outcome after) :
    ∀ f ∈ after.calls, f ∈ tab.calls := by
  have silent (taking : Tab) (outcome : Outcome (Page.Call.ruleEditor c).Answer) :
      (taking.settling page (.ruleEditor c) outcome).calls = [] := by
    unfold settling
    simp only [Page.settle, Turn.calls_map, RuleEditor.calls_settle, List.map_nil]
  have sends {rest : List Due} (first : tab.due = .call page (.ruleEditor c) :: rest) :
      ∀ f ∈ ({ tab with due := rest }.send page (.ruleEditor c)).calls, f ∈ tab.calls := by
    intro f mem
    rcases mem_calls_send mem with old | rfl | ⟨-, taking, outcome, made⟩
    · exact mem_calls_of_rest first old
    · exact mem_calls_of_first first
    · exact absurd (silent taking outcome) made
  cases settles with
  | unsent first unasked => exact sends first
  | atOnce first asked taken => exact sends first
  | answered rests held r =>
    intro f mem
    have old := (mem_calls_settleCall mem).resolve_right fun made => made.2 (silent _ _)
    exact mem_calls_iff.mpr ((mem_calls_iff.mp old).imp_right List.mem_of_mem_eraseIdx)

/-- The editor at hand takes in what came of its lookup. -/
theorem Settles.located {outcome : Outcome (GrantConsole.Page Rule)}
    (settles : tab.Settles page (.ruleEditor (.locate grant id)) outcome after)
    (here : tab.number = page) {s : RuleEditor} (shown : tab.page = .ruleEditor s) :
    ∃ t, (RuleEditor.settleLocate (some s) outcome.session id outcome.result).state = some t ∧
      after.page = .ruleEditor t := by
  have there : ∃ t, (RuleEditor.settleLocate (some s) outcome.session id outcome.result).state =
      some t := by
    unfold RuleEditor.settleLocate
    split <;> exact ⟨_, rfl⟩
  obtain ⟨t, left⟩ := there
  refine ⟨t, left, ?_⟩
  rw [settles.takesTurn.page, settling, if_pos here.symm, shown]
  simp only [Page.settle, RuleEditor.settle, Turn.map_state, left, Option.map_some,
    Option.getD_some]

/-- A lookup that finds nothing is told, wherever the operator is. -/
theorem Settles.unlisted {outcome : Outcome (GrantConsole.Page Rule)}
    (settles : tab.Settles page (.ruleEditor (.locate grant id)) outcome after)
    (lacks : ¬ Lists id outcome.result) : ∃ text, after.toasts = tab.toasts.push .error text := by
  obtain ⟨fault, located⟩ := locateRule_of_not_lists lacks
  refine ⟨fault.message, ?_⟩
  rw [settles.takesTurn.toasts, settling]
  simp only [Page.settle, RuleEditor.settle, RuleEditor.settleLocate, located]
  rfl

/-- There is no form on a page whose lookup finds nothing, and none where it had found nothing
before. -/
theorem Bare.settles (bare : Bare bar grant id page tab)
    {outcome : Outcome (GrantConsole.Page Rule)}
    (settles : tab.Settles page (.ruleEditor (.locate grant id)) outcome after)
    (lacks : bar = .sought → ¬ Lists id outcome.result) : Bare .missed grant id page after where
  calls f mem own := bare.calls f (settles.calls_subset f mem) own
  state here := by
    rw [settles.number] at here
    obtain ⟨s, shown, barred⟩ := bare.state here
    obtain ⟨t, left, now⟩ := settles.located here shown
    refine ⟨t, now, ?_⟩
    unfold RuleEditor.settleLocate at left
    cases located : locateRule outcome.result id with
    | error fault =>
      rw [located] at left
      cases left
      exact Option.some_ne_none _
    | ok rule =>
      rw [located] at left
      cases left
      cases bar with
      | missed => exact barred
      | sought =>
        obtain ⟨fault, failed⟩ := locateRule_of_not_lists (lacks rfl)
        cases located.symm.trans failed

theorem Bare.ever (bare : Bare .missed grant id page tab) (mounted : Mounted page tab) :
    FormFreeEver page tab := by
  intro final leads
  suffices still : Bare .missed grant id page final from still.formFree
  induction leads with
  | refl => exact bare
  | tail before moves ih =>
    have mounted := Leads.mounted before mounted
    cases moves.meets mounted with
    | passes passes => exact ih.passes passes
    | acts here offered entry same => exact same ▸ ih.acts here offered entry
    | settles settles =>
      cases ih.calls _ settles.mem_calls rfl
      exact ih.settles settles nofun

theorem Bare.seeks (bare : Bare .sought grant id page tab) (mounted : Mounted page tab) :
    Seeks grant id page tab where
  toFormFree := bare.formFree
  only c outcome after settles := by
    cases bare.calls _ settles.mem_calls rfl
    rfl
  found outcome after settles lists here := by
    obtain ⟨s, shown, -⟩ := bare.state here
    obtain ⟨t, left, now⟩ := settles.located here shown
    obtain ⟨rule, located, known⟩ := locateRule_of_lists lists
    unfold RuleEditor.settleLocate at left
    rw [located] at left
    cases left
    exact ⟨_, rule, now, rfl, rfl, known⟩
  missed outcome after settles lacks :=
    ⟨settles.unlisted lacks,
      (bare.settles settles fun _ => lacks).ever (settles.moves.mounted mounted)⟩

theorem LeadsUnsettled.bare (leads : LeadsUnsettled page tab after)
    (bare : Bare bar grant id page tab) (mounted : Mounted page tab) :
    Bare bar grant id page after ∧ Mounted page after := by
  induction leads with
  | refl => exact ⟨bare, mounted⟩
  | tail _ moves ih =>
    exact ⟨ih.1.unsettled (moves.1.meets ih.2) moves.2, moves.1.mounted ih.2⟩

end Bare

/-! ## The page is mounted -/

section Mounts

/-- The page that is mounted is an editor with the id in its address. -/
theorem MountsRule.editor (mounts : MountsRule id tab after) (placed : tab.Placed)
    (addressed : tab.Addressed) : ∃ s, tab.page = .ruleEditor s ∧ s.address = some id := by
  have kind := placed
  unfold Placed at kind
  rw [mounts.place] at kind
  unfold Addressed at addressed
  rw [mounts.place] at addressed
  generalize tab.page = p at kind addressed
  cases p <;> cases kind
  rename_i s
  refine ⟨s, rfl, ?_⟩
  have here := addressed _ rfl
  cases address : s.address with
  | none => rw [address] at here; cases here
  | some other => rw [address] at here; cases here; rfl

/-- The page is mounted: nothing else was due for it, and it takes its turn. -/
theorem MountsRule.takesTurn (mounts : MountsRule id tab after) (timely : tab.Timely) :
    ∃ rest, tab.due = .mount tab.number :: rest ∧ .mount tab.number ∉ rest ∧
      after = { tab with due := rest }.takeTurn (tab.page.mounted tab.session) := by
  obtain ⟨rest, first⟩ : ∃ rest, tab.due = .mount tab.number :: rest :=
    List.head?_eq_some_iff.mp mounts.mount
  have next := next_eq_some tab first
  rw [mounts.next, Option.some.injEq] at next
  exact ⟨rest, first, fun again => (timely.first first rfl).2 again rfl,
    by rw [next, work, if_pos rfl]⟩

theorem MountsRule.mounted (mounts : MountsRule id tab after) (timely : tab.Timely) :
    Mounted tab.number after := by
  obtain ⟨rest, -, none, rfl⟩ := mounts.takesTurn timely
  have left : Mounted tab.number { tab with due := rest } := ⟨Nat.le_refl _, none⟩
  exact takeTurn_mounted left _

/-- The page that is mounted has made the calls of its turn and no others. -/
theorem MountsRule.mem_calls (mounts : MountsRule id tab after) (timely : tab.Timely)
    {s : RuleEditor} (shown : tab.page = .ruleEditor s) :
    after.page = .ruleEditor (s.mounted tab.session).state ∧
      ∀ f ∈ after.calls, f.page = tab.number → ∃ c, f.call = .ruleEditor c ∧
        .call c ∈ (s.mounted tab.session).commands := by
  obtain ⟨rest, first, -, rfl⟩ := mounts.takesTurn timely
  rw [shown, Page.mounted_ruleEditor mounts.signedIn]
  refine ⟨takeTurn_page .., fun f mem own => ?_⟩
  rcases mem_calls_takeTurn.mp mem with old | ⟨-, called⟩
  · have silent := timely.no_calls (first ▸ List.mem_cons_self)
    exact absurd own (silent f (mem_calls_of_rest first old))
  · obtain ⟨c, called, same⟩ := (Turn.call_mem_map ..).mp called
    exact ⟨c, same.symm, called⟩

/-- Without a grant the page says so and has no form. -/
theorem MountsRule.unselected (mounts : MountsRule id tab after) (timely : tab.Timely)
    {s : RuleEditor} (shown : tab.page = .ruleEditor s) (address : s.address = some id)
    (none : tab.session.selectedGrant? = none) :
    (∃ text, after.toasts = tab.toasts.push .error text) ∧
      Bare .missed "" id tab.number after := by
  have turn : s.mounted tab.session =
      ⟨{ s with problem := some "No grant selected." }, tab.session,
        [failure "Select a grant before editing its rules.", .goto "/grants"]⟩ := by
    unfold RuleEditor.mounted
    rw [address, none]
  obtain ⟨page, calls⟩ := mounts.mem_calls timely shown
  rw [turn] at page calls
  constructor
  · obtain ⟨rest, -, -, rfl⟩ := mounts.takesTurn timely
    refine ⟨"Select a grant before editing its rules.", ?_⟩
    rw [shown, Page.mounted_ruleEditor mounts.signedIn, turn, takeTurn, commands_toasts]
    rfl
  · refine ⟨fun f mem own => ?_, fun _ => ⟨_, page, Option.some_ne_none _⟩⟩
    obtain ⟨c, -, called⟩ := calls f mem own
    simp [Screen.failure] at called

/-- With a grant the page looks for its rule and has no form. -/
theorem MountsRule.selected (mounts : MountsRule id tab after) (timely : tab.Timely)
    {s : RuleEditor} (shown : tab.page = .ruleEditor s) (address : s.address = some id)
    {grant : SelectedGrant} (some_ : tab.session.selectedGrant? = some grant) :
    Bare .sought grant.id id tab.number after := by
  have turn : s.mounted tab.session =
      ⟨{ s with loading := true }, tab.session, [.call (.locate grant.id id)]⟩ := by
    unfold RuleEditor.mounted
    rw [address, some_]
  obtain ⟨page, calls⟩ := mounts.mem_calls timely shown
  rw [turn] at page calls
  refine ⟨fun f mem own => ?_, fun _ => ⟨_, page, rfl⟩⟩
  obtain ⟨c, same, called⟩ := calls f mem own
  cases List.mem_singleton.mp called
  exact same

theorem MountsRule.kept (mounts : MountsRule id tab after) (timely : tab.Timely)
    {s : RuleEditor} (shown : tab.page = .ruleEditor s) (address : s.address = some id) :
    Kept tab.number id after := by
  obtain ⟨on, made⟩ := RuleEditor.on_mounted address tab.session
  obtain ⟨page, calls⟩ := mounts.mem_calls timely shown
  obtain ⟨past, done⟩ := mounts.mounted timely
  refine ⟨past, fun f mem own => ?_,
    fun _ => .inr ⟨fun mem => absurd mem done, fun _ => ⟨_, page, on⟩⟩⟩
  obtain ⟨c, same, called⟩ := calls f mem own
  rw [same]
  exact made c (Turn.mem_calls.mpr called)

/-- No call of the page waits for its reply. -/
theorem MountsRule.silent (mounts : MountsRule id tab after) (timely : tab.Timely) :
    ∀ f ∈ after.flights, f.page ≠ tab.number := by
  obtain ⟨rest, first, -, rfl⟩ := mounts.takesTurn timely
  intro f mem
  rw [takeTurn_flights] at mem
  exact timely.no_calls (first ▸ List.mem_cons_self) f (mem_calls_iff.mpr (.inr mem))

end Mounts

/-! ## The first change -/

section Reading

/-- The request of a submit changes something at the server. -/
theorem method_of_submits {submission : Submission} {session : Session} {request : Request}
    (asked : (Page.Call.ruleEditor (.submit submission)).operation.request? session =
      some request) : request.method ≠ .get := by
  rw [(Operation.request?_eq asked).1]
  obtain ⟨mode, rule⟩ := submission
  cases mode <;> nofun

/-- None of the submits of a page waits for its reply. -/
def NoneSubmitted (page : Nat) (tab : Tab) : Prop :=
  ∀ submission, ⟨page, .ruleEditor (.submit submission)⟩ ∉ tab.flights

variable (reading : ∀ request, SendsOf page tab request after → request.method = .get)

include reading

theorem NoneSubmitted.moves (none : NoneSubmitted page tab) (moves : Moves tab after) :
    NoneSubmitted page after := by
  intro submission mem
  rcases moves.mem_flights mem with old | ⟨request, sends, asked⟩
  · exact none submission old
  · exact method_of_submits asked (reading request sends)

/-- As long as no submit is sent, none is answered. -/
theorem NoneSubmitted.echoes (none : NoneSubmitted page tab) : Echoes page id tab after := by
  intro here c outcome settles
  unfold Page.Call.Echoed
  split
  · rename_i submission
    intro rule came
    cases settles with
    | unsent first unasked => cases came
    | @atOnce rest request r server first asked taken =>
      have next := next_eq_some tab first
      have sent := send_sent { tab with due := rest } page (.ruleEditor (.submit submission))
      rw [asked] at sent
      exact absurd (reading request ⟨⟨_, _, first⟩, next, sent⟩) (method_of_submits asked)
    | answered rests held r => exact absurd (List.mem_of_getElem? held) (none submission)
  · trivial

omit reading

theorem LeadsReading.echoing (leads : LeadsReading page tab after)
    (none : NoneSubmitted page tab) : LeadsEchoing page id tab after := by
  suffices both : LeadsEchoing page id tab after ∧ NoneSubmitted page after from both.1
  induction leads with
  | refl => exact ⟨.refl, none⟩
  | tail _ moves ih =>
    obtain ⟨moves, reading⟩ := moves
    exact ⟨ih.1.tail ⟨moves, ih.2.echoes reading⟩, ih.2.moves reading moves⟩

end Reading

/-- In all runs of the console the form of an existing rule that an operator mounts is withheld
until its rule is found in the listing of the selected grant. -/
theorem form_withheld {session : Session} {server : Server} {path : String}
    (leads : Leads (launched session server path) tab) (mounts : MountsRule id tab after) :
    FormWithheld id tab after := by
  have timely := leads.timely (launched_timely session server path)
  have placed := leads.placed (launched_placed session server path)
  obtain ⟨s, shown, address⟩ :=
    mounts.editor placed (leads.addressed (launched_addressed session server path))
  have mounted := mounts.mounted timely
  refine ⟨fun none => ?_, fun grant some_ before unsettled => ?_,
    fun before request final reading sends changes => ?_⟩
  · obtain ⟨told, bare⟩ := mounts.unselected timely shown address none
    exact ⟨told, bare.ever mounted⟩
  · obtain ⟨bare, mounted⟩ :=
      LeadsUnsettled.bare unsettled (mounts.selected timely shown address some_) mounted
    exact bare.seeks mounted
  · have none : NoneSubmitted tab.number after := fun submission mem =>
      mounts.silent timely _ mem rfl
    have next : Moves tab after := .works mounts.next
    have kept := LeadsEchoing.kept (LeadsReading.echoing reading none)
      (mounts.kept timely shown address) (next.timely timely) (next.placed placed)
    obtain ⟨c, mem, asked⟩ := sends.request?_eq
    exact (method_of_targets (kept.calls ⟨_, c⟩ mem rfl) asked).resolve_left changes

/-- A rule is opened while the server cannot be reached. -/
theorem form_withheld_offline :
    ∃ session server tab mounted after, Leads (launched session server "/rules/r") tab ∧
      MountsRule "r" tab mounted ∧ Leads mounted after ∧
      (∃ text, after.toasts = mounted.toasts.push .error text) ∧
      FormFreeEver tab.number after := by
  let session : Session := ⟨some [("access_token", "t"), ("selected_grant_id", "g")]⟩
  let server : Server := ⟨[some (.broken "offline")], []⟩
  let start : Tab := launched session server "/rules/r"
  have place : Place.ofPath start.location.path = .rule "r" := by decide
  have shown : start.page = .opened (.rule "r") session := by rw [launched_page, ← place]; rfl
  have signedIn : ¬ session.LacksToken := by
    rw [← session.token?_eq_none_iff]
    decide
  -- The page is mounted and looks for the rule.
  let looks : Page.Call := .ruleEditor (.locate "g" "r")
  let looking : Tab := { start with
    due := [.call 0 looks]
    page := .ruleEditor { (RuleEditor.opened (some "r") session) with loading := true } }
  have next : start.next = some looking := by
    have same : { start with due := [] } =
        { start with due := [], page := .opened (.rule "r") session } := by rw [← shown]
    rw [next_eq_some _ (launched_due ..), same]
    rfl
  have mounts : MountsRule "r" start looking := ⟨rfl, place, signedIn, next⟩
  -- The request breaks off.
  have settles : looking.Settles 0 looks
      (looks.operation.settle session (Reply.outcome (.broken "offline")))
      ({ looking with due := [] }.send 0 looks) := .atOnce rfl rfl rfl
  have withheld : FormWithheld "r" start looking := form_withheld .refl mounts
  have seeks := withheld.seeks ⟨"g", ""⟩ rfl looking .refl
  obtain ⟨told, ever⟩ := seeks.missed _ _ settles nofun
  exact ⟨session, server, start, looking, _, .refl, mounts, .single settles.moves, told, ever⟩

end Tab

end GrantConsole.Console
