import GrantConsole.Proofs.Console.Access
import GrantConsole.Proofs.Console.Failures
import GrantConsole.Proofs.Domain.RoundTrip
import GrantConsole.Proofs.Draft.Target

/-!
# The page of an existing rule

A page that is opened on a rule is of that rule as long as it is at hand, wherever its address is
moved to: either its form is withheld, or its draft is of that rule. So it makes no rule and changes
no other, as long as the rules that come back for its submits keep their id.
-/

namespace GrantConsole.Screen.RuleEditor

open GrantConsole.Api

/-- The call looks for the rule with an id, or submits it under its id. -/
def Call.Targets (id : String) : Call → Prop
  | .locate _ sought => sought = id
  | .submit submission => submission.mode = .update id

/-- The form is withheld, or the draft is of the rule with an id. -/
structure On (id : String) (s : RuleEditor) : Prop where
  shown : s.loading = false → s.problem = none → s.draft.value.Aimed id

variable {s : RuleEditor} {id : String}

theorem On.withheld (withheld : s.loading = true ∨ s.problem ≠ none) : s.On id := by
  refine ⟨fun loaded free => ?_⟩
  rcases withheld with loading | problem
  · cases loading.symm.trans loaded
  · exact absurd free problem

/-- The mount of the page of a rule looks for that rule, or says why there is none. -/
theorem on_mounted (address : s.address = some id) (session : Session) :
    (s.mounted session).state.On id ∧ ∀ c ∈ (s.mounted session).calls, c.Targets id := by
  unfold mounted
  rw [address]
  dsimp only
  cases session.selectedGrant? with
  | none => exact ⟨.withheld (.inr nofun), fun c mem => by simp [Turn.calls, failure] at mem⟩
  | some grant =>
    refine ⟨.withheld (.inl rfl), fun c mem => ?_⟩
    cases List.mem_singleton.mp mem
    rfl

theorem On.edited {t : RuleEditor} (on : s.On id) (edited : s.Edited t) : t.On id := by
  refine ⟨fun loaded free => ?_⟩
  have aimed := on.shown (edited.loading ▸ loaded) (edited.problem ▸ free)
  rcases edited.draft with same | ⟨action, isEdit, same⟩
  · rw [same]
    exact aimed
  · rw [same]
    exact aimed.act_edit isEdit

/-- What is done in the form keeps its rule; a submit is offered only where the form is shown. -/
theorem On.handle (on : s.On id) (session : Session) {act : Act}
    (shown : act = .submit → s.loading = false ∧ s.problem = none) (entry : Entry) :
    (s.handle session act entry).state.On id ∧
      ∀ c ∈ (s.handle session act entry).calls, c.Targets id := by
  by_cases submitting : act = .submit
  · subst submitting
    obtain ⟨loaded, free⟩ := shown rfl
    have aimed := on.shown loaded free
    simp only [RuleEditor.handle]
    split
    · rename_i submission begun
      refine ⟨⟨fun _ _ => aimed.beginSubmit⟩, fun c mem => ?_⟩
      cases List.mem_singleton.mp mem
      exact aimed.snapshot begun
    · exact ⟨⟨fun _ _ => aimed.beginSubmit⟩, fun c mem => by simp [Turn.calls] at mem⟩
  · rw [s.calls_handle session submitting entry]
    exact ⟨on.edited (s.edited_handle session submitting entry), fun c mem => by cases mem⟩

/-- The rule that was looked for is the one that is found. -/
theorem on_located (s : RuleEditor) (session : Session) (grant id : String)
    (result : Except Failure (Page Rule)) :
    ∃ t, (settle (some s) session (.locate grant id) result).state = some t ∧ t.On id := by
  simp only [settle, settleLocate]
  cases located : locateRule result id with
  | error fault => exact ⟨_, rfl, .withheld (.inr (Option.some_ne_none _))⟩
  | ok rule =>
    refine ⟨_, rfl, ⟨fun _ _ => RuleDraft.aimed_load ?_⟩⟩
    unfold locateRule at located
    split at located
    · cases located
    · split at located
      · rename_i found
        cases located
        have same := List.find?_some found
        exact eq_of_beq same
      · cases located

/-- What comes back for a submit keeps the rule, if it keeps the id. -/
theorem On.settle_submit (on : s.On id) (session : Session) (submission : Submission)
    {result : Except Failure Rule} (echo : ∀ rule, result = .ok rule → rule.id = some id) :
    ∃ t, (settle (some s) session (.submit submission) result).state = some t ∧ t.On id :=
  ⟨_, rfl, ⟨fun loaded free =>
    (on.shown loaded free).finishSubmit fun rule came _ => echo rule came⟩⟩

end GrantConsole.Screen.RuleEditor

namespace GrantConsole.Console

open GrantConsole.Api GrantConsole.Markup GrantConsole.Record GrantConsole.Screen GrantConsole.Url

namespace Page

/-- The call is one of a rule editor and has the rule with an id as its target. -/
def Call.Targets (id : String) : Call → Prop
  | ruleEditor c => c.Targets id
  | _ => False

/-- If a rule has come back for a submit, it has an id. -/
def Call.Echoed (id : String) : (c : Call) → Except Failure c.Answer → Prop
  | ruleEditor (.submit _), result => ∀ rule, result = .ok rule → rule.id = some id
  | _, _ => True

/-- The page is an editor of the rule with an id. -/
def On (id : String) (p : Page) : Prop :=
  ∃ s, p = ruleEditor s ∧ s.On id

variable {p : Page} {id : String} {session : Session}

theorem On.kind (on : p.On id) : p.kind = .ruleEditor := by
  obtain ⟨s, rfl, -⟩ := on
  rfl

theorem On.moved (on : p.On id) (place : Place) : (p.moved place).On id := by
  obtain ⟨s, rfl, on⟩ := on
  cases place <;> exact ⟨_, rfl, ⟨on.shown⟩⟩

theorem On.handle (on : p.On id) (session : Session) {act : Act}
    (offered : act.submits = true → ∃ c h, p.Offers c h act) (entry : Entry) :
    (p.handle session act entry).state.On id ∧
      ∀ c, .call c ∈ (p.handle session act entry).commands → c.Targets id := by
  by_cases own : act.kind = p.kind
  · obtain ⟨s, rfl, on⟩ := on
    cases act <;> cases own
    rename_i act
    have shown : act = .submit → s.loading = false ∧ s.problem = none := by
      rintro rfl
      obtain ⟨c, h, offers⟩ := offered rfl
      obtain ⟨-, _, same, ready⟩ := offers.submits rfl
      cases same
      exact ready
    obtain ⟨after, made⟩ := on.handle session shown entry
    refine ⟨⟨_, rfl, after⟩, fun c called => ?_⟩
    simp only [Page.handle, Turn.call_mem_map] at called
    obtain ⟨d, called, rfl⟩ := called
    exact made d (Turn.mem_calls.mpr called)
  · rw [handle_of_kind_ne own]
    exact ⟨on, fun c called => by cases called⟩

/-- The answer to a call that has the rule as its target keeps the rule and makes no call. -/
theorem On.settle (on : p.On id) {c : Call} (targets : c.Targets id) (session : Session)
    {result : Except Failure c.Answer} (echoed : c.Echoed id result) :
    ∃ q, (Page.settle (some p) session c result).state = some q ∧ q.On id := by
  obtain ⟨s, rfl, on⟩ := on
  cases c with
  | ruleEditor c =>
    have after : ∃ t, (RuleEditor.settle (some s) session c result).state = some t ∧ t.On id := by
      cases c with
      | locate grant sought =>
        cases targets
        exact s.on_located session grant _ result
      | submit submission => exact on.settle_submit session submission echoed
    obtain ⟨t, left, on⟩ := after
    exact ⟨ruleEditor t, by simp only [Page.settle, Turn.map_state, left, Option.map_some],
      t, rfl, on⟩
  | _ => cases targets

end Page

namespace Tab

/-- The page of the rule with an id has been opened and is to be mounted. -/
structure OpensRule (id : String) (tab : Tab) : Prop where
  mount : .mount tab.number ∈ tab.due
  page : ∃ session, tab.page = .opened (.rule id) session

/-- If a rule comes back for a submit of a page that is at hand, it has an id. -/
def Echoes (page : Nat) (id : String) (tab after : Tab) : Prop :=
  tab.number = page → ∀ (c : Page.Call) (outcome : Outcome c.Answer),
    tab.Settles page c outcome after → c.Echoed id outcome.result

/-- What moves lead to as long as the rules that come back for the submits of a page have an id. -/
abbrev LeadsEchoing (page : Nat) (id : String) : Tab → Tab → Prop :=
  Relation.ReflTransGen fun tab after => Moves tab after ∧ Echoes page id tab after

/-- The request of a call that a page has made is sent. -/
structure SendsOf (page : Nat) (tab : Tab) (request : Request) (after : Tab) : Prop where
  call : ∃ c rest, tab.due = .call page c :: rest
  next : tab.next = some after
  sent : after.sent = tab.sent ++ [request]

/-- The page at hand is to be mounted as the page of a rule, or is on that rule. -/
structure AtHand (page : Nat) (id : String) (tab : Tab) : Prop where
  unmounted : .mount page ∈ tab.due → ∃ s, tab.page = .ruleEditor s ∧ s.address = some id
  mounted : .mount page ∉ tab.due → tab.page.On id

/-- All calls of a page have a rule as their target, and the page is of that rule, has been left or
gives way to the sign-in page. -/
structure Kept (page : Nat) (id : String) (tab : Tab) : Prop where
  past : page ≤ tab.number
  calls : ∀ f ∈ tab.calls, f.page = page → f.call.Targets id
  stage : tab.number = page → Homeward page tab ∨ AtHand page id tab

section Kept

variable {tab after : Tab} {page : Nat} {id : String} {due : Due} {rest : List Due}

theorem AtHand.kind (at_ : AtHand page id tab) : tab.page.kind = .ruleEditor := by
  by_cases mounts : .mount page ∈ tab.due
  · obtain ⟨s, same, -⟩ := at_.unmounted mounts
    rw [same]
    rfl
  · exact (at_.mounted mounts).kind

theorem Homeward.kept (home : Homeward page tab) : Kept page id tab where
  past := home.way.elim (fun leaving => Nat.le_of_eq leaving.here.symm)
    fun arrived => Nat.le_of_lt arrived.past
  calls f mem own := absurd own (home.silent f mem)
  stage _ := .inl home

/-- A page that has been left makes no more calls. -/
theorem Kept.leaves (kept : Kept page id tab) (past : page < after.number)
    (calls : ∀ f ∈ after.calls, f.page = page → f ∈ tab.calls) : Kept page id after where
  past := Nat.le_of_lt past
  calls f mem own := kept.calls f (calls f mem own) own
  stage here := absurd here.symm (Nat.ne_of_lt past)

theorem Kept.same (kept : Kept page id tab) (same : SameCourse tab after) : Kept page id after where
  past := same.number ▸ kept.past
  calls := same.calls ▸ kept.calls
  stage here := (kept.stage (same.number ▸ here)).imp (fun home => home.same same) fun at_ =>
    ⟨same.due ▸ same.page ▸ at_.unmounted, same.due ▸ same.page ▸ at_.mounted⟩

/-- With nothing due, a page at hand is on its rule. -/
theorem Kept.on_of_rests (kept : Kept page id tab) (rests : tab.due = [])
    (here : tab.number = page) : tab.page.On id := by
  rcases kept.stage here with home | at_
  · exact absurd here (Nat.ne_of_gt (home.arrived rests).past)
  · exact at_.mounted (by rw [rests]; nofun)

theorem goto_kept (kept : Kept page id tab)
    (free : tab.number = page → .mount page ∉ tab.due ∧ tab.page.On id) (location : Location) :
    Kept page id (tab.goto location) := by
  rcases tab.goto_cases location with stays | ⟨chrome, place, moves⟩ | ⟨chrome, opens⟩
  · rw [stays]
    exact kept
  · rw [moves]
    exact ⟨kept.past, kept.calls, fun here =>
      .inr ⟨fun mem => absurd mem (free here).1, fun _ => (free here).2.moved place⟩⟩
  · have calls := tab.goto_calls location
    rw [opens] at calls ⊢
    exact kept.leaves (Nat.lt_succ_of_le kept.past) fun f mem _ => calls ▸ mem

/-- No calls are made when the answer to a call is taken in that has a rule as its target. -/
theorem calls_settling {c : Page.Call} (targets : c.Targets id) (outcome : Outcome c.Answer) :
    (tab.settling page c outcome).calls = [] := by
  cases c with
  | ruleEditor c =>
    unfold settling
    simp only [Page.settle, Turn.calls_map, RuleEditor.calls_settle, List.map_nil]
  | _ => cases targets

theorem mem_calls_settleCall {c : Page.Call} {outcome : Outcome c.Answer} {f : Flight}
    (mem : f ∈ (tab.settleCall page c outcome).calls) :
    f ∈ tab.calls ∨ f.page = page ∧ (tab.settling page c outcome).calls ≠ [] := by
  rcases List.mem_append.mp ((settleCall_calls page c outcome).mem_iff.mpr mem) with old | made
  · exact .inl old
  · obtain ⟨c, called, rfl⟩ := List.mem_map.mp made
    exact .inr ⟨rfl, List.ne_nil_of_mem called⟩

theorem mem_calls_send {c : Page.Call} {f : Flight} (mem : f ∈ (tab.send page c).calls) :
    f ∈ tab.calls ∨ f = ⟨page, c⟩ ∨
      f.page = page ∧ ∃ (taking : Tab) (outcome : Outcome c.Answer),
        (taking.settling page c outcome).calls ≠ [] := by
  rcases tab.send_cases page c with
    ⟨-, sent⟩ | ⟨request, -, ⟨r, server, -, sent⟩ | ⟨server, -, sent⟩⟩
  · rw [sent] at mem
    exact (mem_calls_settleCall mem).imp_right fun made => .inr ⟨made.1, _, _, made.2⟩
  · rw [sent] at mem
    exact (mem_calls_settleCall mem).imp_right fun made => .inr ⟨made.1, _, _, made.2⟩
  · rw [sent] at mem
    rcases mem_calls_iff.mp mem with due | waits
    · exact .inl (mem_calls_iff.mpr (.inl due))
    · rcases List.mem_append.mp waits with old | new
      · exact .inl (mem_calls_iff.mpr (.inr old))
      · exact .inr (.inl (List.mem_singleton.mp new))

/-- A page takes in what came of one of its calls. -/
theorem settleCall_kept (kept : Kept page id tab)
    (free : tab.number = page → .mount page ∉ tab.due ∧ tab.page.On id) {c : Page.Call}
    (targets : c.Targets id) {outcome : Outcome c.Answer}
    (echoed : tab.number = page → c.Echoed id outcome.result) :
    Kept page id (tab.settleCall page c outcome) where
  past := (tab.settleCall_number page c outcome).symm ▸ kept.past
  calls f mem own := by
    rcases mem_calls_settleCall mem with old | ⟨-, made⟩
    · exact kept.calls f old own
    · exact absurd (calls_settling targets outcome) made
  stage here := by
    rw [settleCall_number] at here
    obtain ⟨mounted, on⟩ := free here
    obtain ⟨q, left, after⟩ := on.settle targets outcome.session (echoed here)
    refine .inr ⟨fun mem => ?_, fun _ => ?_⟩
    · rcases mem_settleCall_due mem with old | same | ⟨c, same⟩ | ⟨path, same⟩
      · exact absurd old mounted
      all_goals cases same
    · rw [settleCall_page, settling, if_pos here.symm, left, Option.getD_some]
      exact after

/-- A call of a page is sent. -/
theorem send_kept {c : Page.Call} (first : tab.due = .call page c :: rest)
    (kept : Kept page id { tab with due := rest })
    (free : tab.number = page → .mount page ∉ rest ∧ tab.page.On id) (targets : c.Targets id)
    (echo : Echoes page id tab ({ tab with due := rest }.send page c)) :
    Kept page id ({ tab with due := rest }.send page c) := by
  rcases send_cases { tab with due := rest } page c with
    ⟨unasked, sent⟩ | ⟨request, asked, ⟨r, server, taken, sent⟩ | ⟨server, -, sent⟩⟩
  · have settles : tab.Settles page c _ ({ tab with due := rest }.send page c) :=
      .unsent first unasked
    rw [sent] at settles echo ⊢
    exact settleCall_kept kept free targets fun here => echo here c _ settles
  · have settles : tab.Settles page c _ ({ tab with due := rest }.send page c) :=
      .atOnce first asked taken
    rw [sent] at settles echo ⊢
    let taking : Tab := { tab with due := rest, server, sent := tab.sent ++ [request] }
    have taken : Kept page id taking := kept.same ⟨rfl, rfl, rfl, rfl, rfl⟩
    exact settleCall_kept taken free targets fun here => echo here c _ settles
  · rw [sent]
    refine ⟨kept.past, fun f mem own => ?_, fun here => .inr ?_⟩
    · rcases mem_calls_iff.mp mem with due | waits
      · exact kept.calls f (mem_calls_iff.mpr (.inl due)) own
      · rcases List.mem_append.mp waits with old | new
        · exact kept.calls f (mem_calls_iff.mpr (.inr old)) own
        · cases List.mem_singleton.mp new
          exact targets
    · obtain ⟨mounted, on⟩ := free here
      exact ⟨fun mem => absurd mem mounted, fun _ => on⟩

theorem AtHand.dropFirst (at_ : AtHand page id tab) (first : tab.due = due :: rest)
    (other : due ≠ .mount page) : AtHand page id { tab with due := rest } where
  unmounted mem := at_.unmounted (first ▸ List.mem_cons_of_mem _ mem)
  mounted none := at_.mounted fun mem =>
    (List.mem_cons.mp (first ▸ mem)).elim (fun same => other same.symm) none

theorem Kept.dropFirst (kept : Kept page id tab) (first : tab.due = due :: rest)
    (at_ : tab.number = page → AtHand page id { tab with due := rest }) :
    Kept page id { tab with due := rest } where
  past := kept.past
  calls f mem := kept.calls f (mem_calls_of_rest first mem)
  stage here := .inr (at_ here)

/-- The page of a rule is mounted: it looks for the rule, or gives way to the sign-in page. -/
theorem AtHand.mounts (at_ : AtHand tab.number id tab) (kept : Kept tab.number id tab)
    (timely : tab.Timely) (placed : tab.Placed) (first : tab.due = .mount tab.number :: rest) :
    Kept tab.number id ({ tab with due := rest }.takeTurn (tab.page.mounted tab.session)) := by
  have none : .mount tab.number ∉ rest := fun again => (timely.first first rfl).2 again rfl
  have alike := at_.kind
  by_cases lacks : tab.session.LacksToken
  · rw [Page.mounted_of_lacksToken (alike ▸ by decide) lacks]
    exact (homeward_of_mount timely placed first (alike ▸ nofun)).kept
  · obtain ⟨s, shown, address⟩ := at_.unmounted (first ▸ List.mem_cons_self)
    have turn : tab.page.mounted tab.session =
        (s.mounted tab.session).map Page.ruleEditor Page.Call.ruleEditor := by
      have access : tab.session.access = .granted := by
        unfold Session.access Session.isSignedIn
        rw [if_pos]
        exact Option.isSome_iff_ne_none.mpr (mt (tab.session.token?_eq_none_iff).mp lacks)
      unfold Page.mounted
      rw [shown, access]
      rfl
    obtain ⟨on, made⟩ := RuleEditor.on_mounted address tab.session
    refine ⟨Nat.le_of_eq (takeTurn_number { tab with due := rest } _).symm, fun f mem own => ?_,
      fun _ => .inr ⟨fun mem => ?_, fun _ => ?_⟩⟩
    · rcases mem_calls_takeTurn.mp mem with old | ⟨-, called⟩
      · exact kept.calls f (mem_calls_of_rest first old) own
      · rw [turn, Turn.call_mem_map] at called
        obtain ⟨c, called, same⟩ := called
        rw [← same]
        exact made c (Turn.mem_calls.mpr called)
    · rw [takeTurn_due] at mem
      rcases List.mem_append.mp mem with old | new
      · exact absurd old none
      · rcases mem_dueOf new with ⟨c, same⟩ | ⟨path, same⟩ <;> cases same
    · rw [takeTurn_page, turn]
      exact ⟨_, rfl, on⟩

/-- What a call of an earlier page does leaves the page at hand on its rule. -/
theorem Kept.aside {other : Nat} (kept : Kept page id tab) (at_ : AtHand page id tab)
    (aside : Aside other tab after) (different : other ≠ page) : Kept page id after where
  past := aside.number ▸ kept.past
  calls f mem own := by
    refine kept.calls f (mem_calls_iff.mpr ?_) own
    rcases mem_calls_iff.mp mem with due | waits
    · rcases aside.added _ due with old | ends | new
      · exact .inl old
      · cases ends
      · exact absurd ((Option.some.inj new).symm.trans own) different
    · rcases aside.flights f waits with old | new
      · exact .inr old
      · exact absurd (new.symm.trans own) different
  stage _ := by
    refine .inr ⟨fun mem => ?_, fun none => ?_⟩
    · rcases aside.added _ mem with old | ends | new
      · exact aside.same ▸ at_.unmounted old
      · cases ends
      · exact absurd (Option.some.inj new).symm different
    · exact aside.same ▸ at_.mounted fun old => none (aside.kept _ old)

/-- Work that is done while the page of a rule is at hand. -/
theorem AtHand.works (at_ : AtHand tab.number id tab) (kept : Kept tab.number id tab)
    (timely : tab.Timely) (placed : tab.Placed) (first : tab.due = due :: rest)
    (works : Works { tab with due := rest } due after) (echo : Echoes tab.number id tab after) :
    Kept tab.number id after := by
  have left (other : due ≠ .mount tab.number) : Kept tab.number id { tab with due := rest } :=
    kept.dropFirst first fun _ => at_.dropFirst first other
  -- Going to the sign-in page from a rule opens another page.
  have leaves (expired : Bool) (other : due ≠ .mount tab.number) :
      Kept tab.number id ({ tab with due := rest, expired }.follow signInPath) := by
    have calls := @goto_calls { tab with due := rest, expired }
      (tab.location.follow signInPath)
    obtain ⟨chrome, opens⟩ := @follow_signIn_of_away { tab with due := rest, expired } placed
      (show tab.page.kind ≠ .signIn from at_.kind ▸ nofun)
    unfold follow at opens ⊢
    rw [opens] at calls ⊢
    exact (left other).leaves (Nat.lt_succ_self _) fun f mem _ => calls ▸ mem
  cases works with
  | mounts => exact at_.mounts kept timely placed first
  | calls other c =>
    obtain ⟨-, mounted⟩ := timely.first first rfl
    by_cases own : other = tab.number
    · subst own
      have none : .mount tab.number ∉ rest := fun again => mounted again rfl
      have on : tab.page.On id := (at_.dropFirst first nofun).mounted none
      have targets : c.Targets id :=
        kept.calls ⟨_, c⟩ (mem_calls_of_first first) rfl
      exact send_kept first (left nofun) (fun _ => ⟨none, on⟩) targets echo
    · have aside := @send_aside { tab with due := rest } other own c
      exact (left nofun).aside (at_.dropFirst first nofun) aside own
  | goes path =>
    have none : .mount tab.number ∉ rest := fun again => (timely.first first rfl).2 again rfl
    exact goto_kept (left nofun) (fun _ => ⟨none, (at_.dropFirst first nofun).mounted none⟩) _
  | signsOut => exact leaves tab.expired nofun
  | expires => exact leaves false nofun
  | left own elsewhere =>
    refine left fun same => elsewhere ?_
    rw [same] at own
    exact (Option.some.inj own).symm
  | seen => exact left nofun

/-- Work that is done when the page has been left. -/
theorem Kept.works_past (kept : Kept page id tab) (past : page < tab.number)
    (first : tab.due = due :: rest) (works : Works { tab with due := rest } due after) :
    Kept page id after := by
  have among {f : Flight} : f ∈ Tab.calls { tab with due := rest } → f ∈ tab.calls :=
    mem_calls_of_rest first
  refine kept.leaves (Nat.lt_of_lt_of_le past works.number_le) fun f mem own => ?_
  cases works with
  | mounts =>
    rcases mem_calls_takeTurn.mp mem with old | ⟨here, -⟩
    · exact among old
    · exact absurd (here.symm.trans own) (Nat.ne_of_gt past)
  | calls other c =>
    have call : ⟨other, c⟩ ∈ tab.calls := mem_calls_of_first first
    rcases mem_calls_send mem with old | rfl | ⟨same, taking, outcome, made⟩
    · exact among old
    · exact call
    · exact absurd (calls_settling (kept.calls _ call (same.symm.trans own)) outcome) made
  | goes path => exact among (@goto_calls { tab with due := rest } _ ▸ mem)
  | signsOut => exact among (@goto_calls { tab with due := rest } _ ▸ mem)
  | expires =>
    exact among (@goto_calls { tab with due := rest, expired := false } _ ▸ mem)
  | left own elsewhere => exact among mem
  | seen => exact among mem

/-- The page of a rule takes in an act that it offers. -/
theorem acts_kept (kept : Kept page id tab) (rests : tab.due = []) {a : Page.Act}
    (offered : a.submits = true → ∃ c h, tab.page.Offers c h a) (entry : Entry) :
    Kept page id (tab.takeTurn (tab.page.handle tab.session a entry)) := by
  by_cases here : tab.number = page
  · obtain ⟨on, made⟩ := (kept.on_of_rests rests here).handle tab.session offered entry
    refine ⟨(tab.takeTurn_number _).symm ▸ kept.past, fun f mem own => ?_,
      fun _ => .inr ⟨fun mem => ?_, fun _ => ?_⟩⟩
    · rcases mem_calls_takeTurn.mp mem with old | ⟨-, called⟩
      · exact kept.calls f old own
      · exact made f.call called
    · rw [takeTurn_due, rests] at mem
      rcases mem_dueOf mem with ⟨c, same⟩ | ⟨path, same⟩ <;> cases same
    · rw [takeTurn_page]
      exact on
  · have past : page < tab.number := Nat.lt_of_le_of_ne kept.past (Ne.symm here)
    refine kept.leaves ((tab.takeTurn_number _).symm ▸ past) fun f mem own => ?_
    exact (mem_calls_takeTurn.mp mem).resolve_right fun made => here (made.1.symm.trans own)

/-- The reply to a call that has waited for it is taken in. -/
theorem answers_kept (kept : Kept page id tab) (rests : tab.due = []) {nth : Nat} {flight : Flight}
    (held : tab.flights[nth]? = some flight) (r : Reply)
    (echo : Echoes page id tab
      ({ tab with flights := tab.flights.eraseIdx nth }.reply flight.page flight.call r)) :
    Kept page id
      ({ tab with flights := tab.flights.eraseIdx nth }.reply flight.page flight.call r) := by
  obtain ⟨maker, c⟩ := flight
  let taking : Tab := { tab with flights := tab.flights.eraseIdx nth }
  have still : taking.due = [] := rests
  have none : .mount page ∉ taking.due := by rw [still]; nofun
  have on (here : tab.number = page) : tab.page.On id := kept.on_of_rests rests here
  have left : Kept page id taking := by
    refine ⟨kept.past, fun f mem own => kept.calls f ?_ own, fun here => .inr ?_⟩
    · exact mem_calls_iff.mpr ((mem_calls_iff.mp mem).imp_right List.mem_of_mem_eraseIdx)
    · exact ⟨fun mem => absurd mem none, fun _ => on here⟩
  by_cases own : maker = page
  · subst own
    have targets := kept.calls ⟨maker, c⟩ (mem_calls_iff.mpr (.inr (List.mem_of_getElem? held))) rfl
    exact settleCall_kept left (fun here => ⟨none, on here⟩) targets fun here =>
      echo here c _ (.answered rests held r)
  · by_cases here : tab.number = page
    · have elsewhere : maker ≠ taking.number := fun same => own (same.trans here)
      exact left.aside ⟨fun mem => absurd mem none, fun _ => on here⟩
        (settleCall_aside elsewhere c _) own
    · have past : page < tab.number := Nat.lt_of_le_of_ne kept.past (Ne.symm here)
      refine left.leaves ((settleCall_number ..).symm ▸ past) fun f mem own' => ?_
      exact (mem_calls_settleCall mem).resolve_right fun made => own (made.1.symm.trans own')

theorem Moves.kept (moves : Moves tab after) (kept : Kept page id tab) (timely : tab.Timely)
    (placed : tab.Placed) (echo : Echoes page id tab after) : Kept page id after := by
  cases moves with
  | works next =>
    obtain ⟨due, rest, first, works⟩ := tab.works_of_next next
    by_cases here : tab.number = page
    · subst here
      rcases kept.stage rfl with home | at_
      · exact (home.works first works).kept
      · exact at_.works kept timely placed first works echo
    · exact kept.works_past (Nat.lt_of_le_of_ne kept.past (Ne.symm here)) first works
  | acts rests offered entry => exact acts_kept kept rests offered entry
  | signsOut rests =>
    refine ⟨kept.past, fun f mem => kept.calls f ?_, fun here => .inr ⟨fun mem => ?_, fun _ => ?_⟩⟩
    · refine mem_calls_iff.mpr ((mem_calls_iff.mp mem).imp_left fun due => ?_)
      exact (List.mem_append.mp due).resolve_right (by simp)
    · simp [push, rests] at mem
    · exact kept.on_of_rests rests here
  | visits rests path =>
    exact goto_kept kept (fun here => ⟨by simp [rests], kept.on_of_rests rests here⟩) _
  | answers rests held r => exact answers_kept kept rests held r echo
  | dismisses id => exact kept.same ⟨rfl, rfl, rfl, rfl, rfl⟩
  | waits ms => exact kept.same ⟨rfl, rfl, rfl, rfl, rfl⟩
  | keeps key value => cases value <;> exact kept.same ⟨rfl, rfl, rfl, rfl, rfl⟩
  | dresses strays => exact kept.same ⟨rfl, rfl, rfl, rfl, rfl⟩

/-- The page of a rule has made no calls when it is opened. -/
theorem OpensRule.kept (opens : OpensRule id tab) (timely : tab.Timely) :
    Kept tab.number id tab where
  past := Nat.le_refl _
  calls f mem own := absurd own (timely.no_calls opens.mount f mem)
  stage _ := by
    obtain ⟨session, shown⟩ := opens.page
    exact .inr ⟨fun _ => ⟨_, shown, rfl⟩, fun unmounted => absurd opens.mount unmounted⟩

theorem LeadsEchoing.leads (leads : LeadsEchoing page id tab after) : Leads tab after := by
  induction leads with
  | refl => exact .refl
  | tail _ moves ih => exact ih.tail moves.1

theorem LeadsEchoing.kept (leads : LeadsEchoing page id tab after) (kept : Kept page id tab)
    (timely : tab.Timely) (placed : tab.Placed) : Kept page id after := by
  induction leads with
  | refl => exact kept
  | tail before moves ih =>
    have before := LeadsEchoing.leads before
    exact moves.1.kept ih (before.timely timely) (before.placed placed) moves.2

theorem SendsOf.request?_eq {request : Request} (sends : SendsOf page tab request after) :
    ∃ c, ⟨page, c⟩ ∈ tab.calls ∧ c.operation.request? tab.session = some request := by
  obtain ⟨c, rest, first⟩ := sends.call
  refine ⟨c, mem_calls_of_first first, ?_⟩
  have next := next_eq_some tab first
  rw [sends.next, Option.some.injEq] at next
  have sent := sends.sent
  rw [next, work, send_sent, List.append_cancel_left_eq] at sent
  exact Option.toList_eq_singleton_iff.mp sent

/-- The requests of calls with a rule as their target read, or change that rule. -/
theorem method_of_targets {c : Page.Call} (targets : c.Targets id) {session : Session}
    {request : Request} (asked : c.operation.request? session = some request) :
    request.method = .get ∨
      request.method = .put ∧ request.url = "/api/v1/rules/" ++ Url.encode id := by
  obtain ⟨method, url⟩ := Operation.request?_eq asked
  rw [method, url]
  cases c with
  | ruleEditor c =>
    cases c with
    | locate grant sought => exact .inl rfl
    | submit submission =>
      obtain ⟨mode, rule⟩ := submission
      cases targets
      exact .inr ⟨rfl, rfl⟩
  | _ => cases targets

end Kept

/-- Where no submit of a page is without an answer, none is answered with another rule. -/
theorem echoes_of_no_submits {tab : Tab} {page : Nat} {id : String}
    (none : ∀ c, ⟨page, c⟩ ∈ tab.calls → c.submits = false) (after : Tab) :
    Echoes page id tab after := by
  intro here c outcome settles
  have reads := none c settles.mem_calls
  unfold Page.Call.Echoed
  split
  · cases reads
  · trivial

/-- An existing rule is changed under its id and never made anew, as long as the rules that come back
for its changes keep the id: in the editor, and on the page that is opened on the rule. -/
theorem existing_rule_kept (id : String) :
    (∀ rule : Rule, rule.id = some id → ∀ actions,
      RuleDraft.Targets id ((RuleDraft.load rule).run actions).events) ∧
    ∀ session server path tab final request after,
      Leads (launched session server path) tab → OpensRule id tab →
      LeadsEchoing tab.number id tab final → SendsOf tab.number final request after →
      request.method = .get ∨
        request.method = .put ∧ request.url = "/api/v1/rules/" ++ Url.encode id := by
  refine ⟨fun rule known actions => RuleDraft.targets_run known actions, ?_⟩
  intro session server path tab final request after leads opens echoing sends
  have timely := leads.timely (launched_timely session server path)
  have placed := leads.placed (launched_placed session server path)
  have kept := LeadsEchoing.kept echoing (opens.kept timely) timely placed
  obtain ⟨c, mem, asked⟩ := sends.request?_eq
  exact method_of_targets (kept.calls ⟨_, c⟩ mem rfl) asked

/-- A rule is opened, found in the listing of its grant, and saved. -/
theorem existing_rule_kept_saved :
    let rule : Rule := { id := some "r", grant := "g" }
    RuleDraft.Targets "r" ((RuleDraft.load rule).run
      [.beginSubmit, .finishSubmit (.ok rule), .beginSubmit]).events ∧
    ∃ session server tab final request after,
      Leads (launched session server "/rules/r") tab ∧ OpensRule "r" tab ∧
      LeadsEchoing tab.number "r" tab final ∧ SendsOf tab.number final request after ∧
      request.method = .put ∧ request.url = "/api/v1/rules/" ++ Url.encode "r" := by
  intro rule
  obtain ⟨drafts, pages⟩ := existing_rule_kept "r"
  refine ⟨drafts rule rfl _, ?_⟩
  let listing : GrantConsole.Page Rule := ⟨[rule], 1⟩
  let body : String := (Shaped.shape.write listing).compact
  let session : Session := ⟨some [("access_token", "t"), ("selected_grant_id", "g")]⟩
  let server : Server := ⟨[some (.answer ⟨200, body⟩)], []⟩
  let start : Tab := launched session server "/rules/r"
  have shown : start.page = .opened (.rule "r") session := by
    have place : Place.ofPath (Location.ofLink "/rules/r").path = .rule "r" := by decide
    rw [launched_page, place]
  -- The page is mounted and looks for the rule.
  let looks : Page.Call := .ruleEditor (.locate "g" "r")
  let looking : Tab := { start with
    due := [.call 0 looks]
    page := .ruleEditor { (RuleEditor.opened (some "r") session) with loading := true } }
  have mounts : start.next = some looking := by
    have same : { start with due := [] } =
        { start with due := [], page := .opened (.rule "r") session } := by rw [← shown]
    rw [next_eq_some _ (launched_due ..), same]
    rfl
  -- The listing comes back at once.
  have readable : looks.operation.readAnswer body = .ok listing :=
    (Faithful.rule.page (by decide)).roundTrips listing
  let found : Tab := { looking with
    due := [], server := ⟨[], []⟩
    sent := [⟨.get, looks.operation.url, some "t", .empty⟩]
    page := .ruleEditor { address := some "r", draft := ⟨.load rule, []⟩ } }
  have finds : looking.next = some found := by
    have settled :
        looks.operation.settle session (.ok ⟨200, body⟩) = ⟨.ok listing, session, false⟩ :=
      Operation.settle_of_readable rfl readable
    let taking : Tab := { found with page := looking.page }
    show some (taking.settleCall 0 looks (looks.operation.settle session (.ok ⟨200, body⟩))) = _
    rw [settled]
    rfl
  -- The form is submitted.
  have offered : found.page.Offers ⟨"", "", []⟩ { event := .submit } (.ruleEditor .submit) :=
    ⟨rfl, nofun, nofun, fun _ => ⟨rfl, _, rfl, rfl, rfl⟩⟩
  let final : Tab := found.takeTurn (found.page.handle session (.ruleEditor .submit) {})
  have saves : Moves found final := .acts rfl (fun _ => ⟨_, _, offered⟩) {}
  have echoing : LeadsEchoing 0 "r" start final := by
    refine .tail (.tail (.single ⟨.works mounts, ?_⟩) ⟨.works finds, ?_⟩) ⟨saves, ?_⟩
    · have silent : start.calls = [] := rfl
      exact echoes_of_no_submits (fun c mem => by rw [silent] at mem; cases mem) _
    · refine echoes_of_no_submits (fun c mem => ?_) _
      cases List.mem_singleton.mp mem
      rfl
    · have silent : found.calls = [] := rfl
      exact echoes_of_no_submits (fun c mem => by rw [silent] at mem; cases mem) _
  let request : Request :=
    ⟨.put, "/api/v1/rules/" ++ Url.encode "r", some "t", .json (Shaped.shape.write rule)⟩
  have sends : SendsOf 0 final request _ := ⟨⟨_, _, rfl⟩, next_eq_some final rfl, send_sent ..⟩
  have opens : OpensRule "r" start := ⟨List.mem_singleton.mpr rfl, session, shown⟩
  have put := pages session server "/rules/r" start final request _ .refl opens echoing sends
  have put := put.resolve_left nofun
  exact ⟨session, server, start, final, request, _, .refl, opens, echoing, sends, put⟩

end Tab

end GrantConsole.Console
