import GrantConsole.Proofs.Console.Refusals

/-!
# After a sign-out

From a sign-out to the next sign-in no token is kept, and the console stays on pages that keep
nothing. One thing is kept nevertheless: the grants page selects a grant that was just made, even if
the page is gone and the operator has signed out since the grant was sent. So what is found of a
grant then belongs to an answer that was still to come.
-/

namespace GrantConsole

open GrantConsole.Api GrantConsole.Screen

namespace Session

/-- The keys of the token and of the selected grant. -/
def signedInKeys : List String :=
  [tokenKey, grantIdKey, grantTitleKey]

/-- No token is kept, and of a grant no more than what some grants say. -/
structure Forgets (late : Grant → Prop) (s : Session) : Prop where
  token : s.get? tokenKey = none
  id : ∀ id, s.get? grantIdKey = some id → ∃ g, late g ∧ g.id = some id
  title : ∀ title, s.get? grantTitleKey = some title → ∃ g, late g ∧ g.title = title

section Forgets

variable {late : Grant → Prop} {s : Session}

theorem signOut_get? (s : Session) : ∀ key ∈ signedInKeys, s.signOut.get? key = none := by
  intro key own
  rw [get?_signOut, if_pos (by simpa [signedInKeys] using own)]

theorem forgets_of_none (none : ∀ key ∈ signedInKeys, s.get? key = none) : s.Forgets late where
  token := none _ (by simp [signedInKeys])
  id id kept := by
    rw [none _ (by simp [signedInKeys])] at kept
    cases kept
  title title kept := by
    rw [none _ (by simp [signedInKeys])] at kept
    cases kept

theorem forgets_signOut (late : Grant → Prop) (s : Session) : s.signOut.Forgets late :=
  forgets_of_none s.signOut_get?

theorem Forgets.none (forgets : s.Forgets late) (no : ∀ g, ¬ late g) :
    ∀ key ∈ signedInKeys, s.get? key = none := by
  intro key own
  simp only [signedInKeys, List.mem_cons, List.not_mem_nil, or_false] at own
  rcases own with rfl | rfl | rfl
  · exact forgets.token
  · refine Option.eq_none_iff_forall_ne_some.mpr fun id kept => ?_
    obtain ⟨g, made, -⟩ := forgets.id id kept
    exact no g made
  · refine Option.eq_none_iff_forall_ne_some.mpr fun title kept => ?_
    obtain ⟨g, made, -⟩ := forgets.title title kept
    exact no g made

/-- What takes keys away or leaves these alone forgets as well. -/
theorem Forgets.of_le (forgets : s.Forgets late) {t : Session}
    (le : ∀ key ∈ signedInKeys, ∀ value, t.get? key = some value → s.get? key = some value) :
    t.Forgets late where
  token := by
    refine Option.eq_none_iff_forall_ne_some.mpr fun token kept => ?_
    have before := le _ (by simp [signedInKeys]) token kept
    rw [forgets.token] at before
    cases before
  id id kept := forgets.id id (le _ (by simp [signedInKeys]) id kept)
  title title kept := forgets.title title (le _ (by simp [signedInKeys]) title kept)

theorem Forgets.remove (forgets : s.Forgets late) (key : String) : (s.remove key).Forgets late := by
  refine forgets.of_le fun other _ value kept => ?_
  rw [get?_remove] at kept
  split at kept
  · cases kept
  · exact kept

theorem Forgets.set (forgets : s.Forgets late) {key : String} (other : key ∉ signedInKeys)
    (value : String) : (s.set key value).Forgets late := by
  refine forgets.of_le fun own mem value kept => ?_
  have apart : own ≠ key := fun same => other (same ▸ mem)
  rwa [get?_set, if_neg apart] at kept

theorem selectMade_of_known (s : Session) {g : Grant} {id : String} (known : g.id = some id) :
    Grants.selectMade s (.ok g) = s.selectGrant id g.title := by
  simp only [Grants.selectMade, known]

theorem Forgets.selectMade (forgets : s.Forgets late) {g : Grant} (made : late g) :
    (Grants.selectMade s (.ok g)).Forgets late := by
  cases known : g.id with
  | none =>
    have same : Grants.selectMade s (.ok g) = s := by simp only [Grants.selectMade, known]
    rwa [same]
  | some id =>
    rw [s.selectMade_of_known known]
    constructor
    · rw [get?_selectGrant, if_neg (by decide), if_neg (by decide)]
      exact forgets.token
    · intro other kept
      rw [get?_selectGrant, if_neg (by decide), if_pos rfl] at kept
      obtain ⟨-, -, rfl⟩ := Option.map_eq_some_iff.mp kept
      exact ⟨g, made, known⟩
    · intro other kept
      rw [get?_selectGrant, if_pos rfl] at kept
      obtain ⟨-, -, rfl⟩ := Option.map_eq_some_iff.mp kept
      exact ⟨g, made, rfl⟩

end Forgets

end Session

end GrantConsole

namespace GrantConsole.Console

open GrantConsole.Api GrantConsole.Screen GrantConsole.Url

section Operations

variable {α : Type} {late : Grant → Prop} {session : Session}

/-- A failure ends the session or leaves it. -/
theorem fail_cases (session : Session) (e : Failure) :
    (Operation.fail session e : Outcome α) = ⟨.error e, session.signOut, true⟩ ∨
      (Operation.fail session e : Outcome α) = ⟨.error e, session, false⟩ := by
  unfold Operation.fail
  split
  · exact .inl rfl
  · exact .inr rfl

/-- An answer is a failure, or a success that is remembered. -/
theorem settle_cases (op : Operation α) (session : Session) (answer : Except Failure Response) :
    (∃ e, op.settle session answer = Operation.fail session e) ∨
      ∃ a, op.settle session answer = ⟨.ok a, op.remember a session, false⟩ := by
  unfold Operation.settle
  split
  · exact .inl ⟨_, rfl⟩
  · split
    · split
      · exact .inr ⟨_, rfl⟩
      · exact .inl ⟨_, rfl⟩
    · exact .inl ⟨_, rfl⟩

/-- What ends a session forgets what it kept. -/
theorem settle_of_ended {op : Operation α} {answer : Except Failure Response}
    (ended : (op.settle session answer).ended = true) :
    ∃ e, op.settle session answer = ⟨.error e, session.signOut, true⟩ := by
  rcases settle_cases op session answer with ⟨e, same⟩ | ⟨a, same⟩
  · rcases fail_cases (α := α) session e with ends | stays
    · exact ⟨e, same.trans ends⟩
    · rw [same, stays] at ended
      cases ended
  · rw [same] at ended
    cases ended

theorem forgets_fail (forgets : session.Forgets late) (e : Failure) :
    (Operation.fail session e : Outcome α).session.Forgets late := by
  rcases fail_cases (α := α) session e with same | same
  · rw [same]
    exact Session.forgets_signOut late session
  · rw [same]
    exact forgets

theorem handsOut_of_not_isSignIn {op : Operation α} (other : ¬ op.IsSignIn) (a : α) :
    op.handsOut a = none := by
  cases op with
  | signIn email password => exact absurd (.intro email password) other
  | _ => rfl

/-- An answer that hands out no token leaves what is forgotten. -/
theorem forgets_settle (op : Operation α) (forgets : session.Forgets late)
    (answer : Except Failure Response)
    (none : ∀ a, (op.settle session answer).result = .ok a → op.handsOut a = none) :
    (op.settle session answer).session.Forgets late := by
  rcases settle_cases op session answer with ⟨e, same⟩ | ⟨a, same⟩
  · rw [same]
    exact forgets_fail forgets e
  · rw [same]
    dsimp only
    rw [Operation.remember_of_handsOut_none (none a (same ▸ rfl))]
    exact forgets

end Operations

namespace Page

theorem Call.isSignIn {c : Call} (free : c.operation.IsSignIn) : ∃ d, c = .signIn d := by
  rw [← Operation.needsToken_eq_false_iff] at free
  cases c with
  | signIn d => exact ⟨d, rfl⟩
  | overview c => cases free
  | grants c | expenses c | approvals c | categories c | roles c | users c | rules c =>
    cases c <;> cases free
  | ruleEditor c =>
    cases c with
    | locate _ _ => cases free
    | submit submission =>
      simp only [Call.operation, RuleEditor.Call.operation, Submission.operation] at free
      split at free <;> cases free

/-- The grant that the answer to a call says was made. -/
def Call.made? : (c : Call) → Except Failure c.Answer → Option Grant
  | .grants (.create _), .ok g => some g
  | _, _ => none

theorem Call.made?_error (c : Call) (e : Failure) : c.made? (.error e) = none := by
  cases c with
  | grants c => cases c <;> rfl
  | _ => rfl

/-- Only the answer to a call that makes a grant says that one was made. -/
theorem Call.made?_settle {c : Call} {session : Session} {r : Reply} {g : Grant}
    (made : c.made? (c.operation.settle session r.outcome).result = some g) :
    ∃ grant body, c = .grants (.create grant) ∧
      (Operation.create grant).readAnswer body = .ok g := by
  cases c with
  | grants c =>
    cases c with
    | create grant =>
      cases result : ((Operation.create grant).settle session r.outcome).result with
      | ok other =>
        obtain ⟨response, -, -, readable⟩ := (Operation.settle_eq_ok_iff ..).mp result
        have same : (Call.grants (.create grant)).made? (.ok other) = some g := result ▸ made
        cases same
        exact ⟨grant, response.body, rfl, readable⟩
      | error e =>
        have none : (Call.grants (.create grant)).made? (.error e) = some g := result ▸ made
        cases none
    | load | replace _ _ | delete _ => cases made
  | _ => cases made

/-- The session changes with an answer only where it says that a grant was made. -/
theorem settle_session (page : Option Page) (session : Session) (c : Call)
    (result : Except Failure c.Answer) :
    (settle page session c result).session =
      (c.made? result).elim session fun g => Grants.selectMade session (.ok g) := by
  cases c with
  | grants c =>
    have kept (state : Option Grants) (id text : String) (result : Except Failure Unit) :
        (Grants.rows.settleDelete (C := Grants.Call) id text state session result).session =
          session := Rows.settleDelete_takesIn.session
    have saved (state : Option Grants) (text : String) (now : Session)
        (result : Except Failure Grant) :
        (Grants.rows.settleSave Grants.reload text state now result).session = now :=
      (Rows.settleSave_takesIn fun _ => rfl).session
    cases c with
    | load => rfl
    | create grant =>
      cases result with
      | ok g => exact saved _ _ _ _
      | error e => exact saved _ _ _ _
    | replace id grant => exact saved _ _ _ _
    | delete id => exact kept _ _ _ _
  | signIn c => exact (SignIn.settle_takesIn _ result).session
  | overview c => exact (Overview.settle_takesIn _ result).session
  | expenses c => exact (Expenses.settle_takesIn _ c result).session
  | approvals c => exact (Approvals.settle_takesIn _ c result).session
  | categories c => exact (Categories.settle_takesIn _ c result).session
  | roles c => exact (Roles.settle_takesIn _ c result).session
  | users c => exact (Users.settle_takesIn _ c result).session
  | rules c => exact (Rules.settle_takesIn _ c result).session
  | ruleEditor c => exact (RuleEditor.settle_takesIn _ c result).session

/-- A page that is not for signed-in operators leaves the session to them. -/
theorem handle_session_of_unguarded {p : Page} (open_ : p.kind ∉ Kind.guarded) (session : Session)
    (act : Act) (entry : Entry) : (p.handle session act entry).session = session := by
  cases p with
  | signIn s => cases act <;> first | exact s.handle_session _ | rfl
  | missing => rfl
  | _ => exact absurd (by simp [kind, Kind.guarded]) open_

end Page

namespace Tab

/-- The session ends: the operator signs out, or a call fails in a way that ends it. -/
inductive SignsOut (tab : Tab) : Tab → Prop
  | button (rests : tab.due = []) :
      SignsOut tab ({ tab with session := tab.session.signOut }.push .signedOut)
  | ends {page : Nat} {c : Page.Call} {outcome : Outcome c.Answer} {after : Tab}
      (settles : tab.Settles page c outcome after) (ended : outcome.ended = true) :
      SignsOut tab after

/-- The move is no sign-in that succeeds, and in it no other window sets what a session keeps. -/
structure Undisturbed (tab after : Tab) : Prop where
  signsIn : ∀ page d (outcome : Outcome Token) token,
    tab.Settles page (.signIn d) outcome after → outcome.result ≠ .ok token
  elsewhere : ∀ key ∈ Session.signedInKeys, ∀ value, after ≠ tab.keep key (some value)

/-- What moves lead to before the next sign-in. -/
abbrev LeadsSignedOut : Tab → Tab → Prop :=
  Relation.ReflTransGen fun tab after => Moves tab after ∧ Undisturbed tab after

/-- A grant of which an answer to a call that waited says that it was made. -/
def MadeLate (out : Tab) (g : Grant) : Prop :=
  ∃ page grant body, ⟨page, .grants (.create grant)⟩ ∈ out.flights ∧
    (Operation.create grant).readAnswer body = .ok g

/-- Between a sign-out and the next sign-in. -/
structure KeptSince (out later : Tab) : Prop where
  /-- The sign-out itself takes away all that a session keeps. -/
  cleared : ∀ key ∈ Session.signedInKeys, out.session.get? key = none
  /-- No token is kept, and of a grant only what an answer to a call from before says. -/
  forgets : later.session.Forgets out.MadeLate
  /-- So nothing is kept if no grant was on its way to the server. -/
  clean : (∀ page grant, ⟨page, .grants (.create grant)⟩ ∉ out.flights) →
    ∀ key ∈ Session.signedInKeys, later.session.get? key = none
  /-- The answer that a grant was made leaves it behind, if anything can be kept. -/
  leaves : ∀ page grant (outcome : Outcome Grant) after g id,
    later.Settles page (.grants (.create grant)) outcome after → outcome.result = .ok g →
      g.id = some id → outcome.session.entries ≠ none →
        after.session.get? Session.grantIdKey = some id ∧
          after.session.get? Session.grantTitleKey = some g.title

/-- The work leads to the sign-in page, or to a page that finds no token and goes there. -/
def LeadsHome (tab : Tab) : Due → Prop
  | .mount page => page = tab.number
  | .call _ _ => False
  | .goto page path => page = tab.number ∧ path = signInPath
  | .signedOut => True
  | .expiry => tab.expired = true

/-- The page at hand is not for signed-in operators, or work is due that leads away from it. -/
def WayHome (tab : Tab) : Prop :=
  tab.page.kind ∉ Kind.guarded ∨ ∃ due ∈ tab.due, tab.LeadsHome due

/-- The console after a sign-out. -/
structure SignedOut (out tab : Tab) : Prop where
  session : tab.session.Forgets out.MadeLate
  /-- Nothing was sent since but what asks for a token. -/
  flights : ∀ f ∈ tab.flights, f ∈ out.flights ∨ ∃ d, f.call = .signIn d
  way : tab.WayHome

section WayHome

variable {out tab after : Tab} {due : Due} {rest : List Due}

/-- A way home stays one while the same page is at hand and the work on it is still due. -/
theorem WayHome.mono (way : tab.WayHome) (alike : after.page.kind = tab.page.kind)
    (number : after.number = tab.number) (expired : tab.expired = true → after.expired = true)
    (due : ∀ due ∈ tab.due, tab.LeadsHome due → due ∈ after.due) : after.WayHome := by
  refine way.imp (fun free => alike ▸ free) fun ⟨home, mem, leads⟩ => ⟨home, due home mem leads, ?_⟩
  cases home with
  | mount page => exact leads.trans number.symm
  | call page c => exact leads
  | goto page path => exact ⟨leads.1.trans number.symm, leads.2⟩
  | signedOut => trivial
  | expiry => exact expired leads

/-- The way home is not lost by other work. -/
theorem WayHome.others (way : tab.WayHome) (first : tab.due = due :: rest)
    (other : ¬ tab.LeadsHome due) : WayHome { tab with due := rest } := by
  refine way.mono rfl rfl id fun home mem leads => ?_
  rcases List.mem_cons.mp (first ▸ mem) with rfl | mem
  · exact absurd leads other
  · exact mem

/-- Another page has still to be mounted, and will find no token. -/
theorem WayHome.goto (way : tab.WayHome) (location : Location) : (tab.goto location).WayHome := by
  rcases tab.goto_cases location with same | ⟨chrome, place, same⟩ | ⟨chrome, same⟩
  · rwa [same]
  · rw [same]
    exact way.mono (Page.kind_moved ..) rfl id fun _ mem _ => mem
  · rw [same]
    exact .inr ⟨_, List.mem_append_right _ (List.mem_singleton.mpr rfl), rfl⟩

theorem wayHome_follow_signIn (placed : tab.Placed) : (tab.follow signInPath).WayHome := by
  have there : (tab.follow signInPath).Placed := goto_placed placed _
  left
  rw [there, follow, follow_signInPath, goto_location, Place.ofPath_root]
  decide

/-- An answer leaves the page at hand what it is and adds to the work. -/
theorem WayHome.settleCall (way : tab.WayHome) (page : Nat) (c : Page.Call)
    (outcome : Outcome c.Answer) : (tab.settleCall page c outcome).WayHome := by
  refine way.mono (settleCall_kind ..) (settleCall_number ..) (fun raised => ?_) fun _ mem _ => ?_
  · rw [settleCall_expired, raised, Bool.or_true]
  · rw [settleCall_due, List.append_assoc]
    exact List.mem_append_left _ mem

/-- A guarded page that is mounted finds no token and goes to the sign-in page. -/
theorem WayHome.mounts (lacks : tab.session.LacksToken) :
    (tab.takeTurn (tab.page.mounted tab.session)).WayHome := by
  by_cases guarded : tab.page.kind ∈ Kind.guarded
  · rw [Page.mounted_of_lacksToken guarded lacks]
    refine .inr ⟨.goto tab.number signInPath, ?_, ?_⟩
    · rw [takeTurn_due]
      exact List.mem_append_right _ (List.mem_singleton.mpr rfl)
    · exact ⟨(takeTurn_number ..).symm, rfl⟩
  · left
    rwa [takeTurn_page, Page.kind_mounted]

end WayHome

section SignedOut

variable {out tab after : Tab} {page : Nat} {due : Due} {rest : List Due}

/-- What leaves page and work as they are leaves the console signed out. -/
theorem SignedOut.idle (signedOut : SignedOut out tab)
    (session : after.session.Forgets out.MadeLate)
    (flights : ∀ f ∈ after.flights, f ∈ tab.flights) (page : after.page = tab.page)
    (number : after.number = tab.number) (expired : after.expired = tab.expired)
    (due : after.due = tab.due) : SignedOut out after where
  session := session
  flights f mem := signedOut.flights f (flights f mem)
  way := signedOut.way.mono (page ▸ rfl) number (fun raised => expired.trans raised)
    fun _ mem _ => due ▸ mem

theorem SignedOut.goto (signedOut : SignedOut out tab) (location : Location) :
    SignedOut out (tab.goto location) :=
  ⟨goto_session tab _ ▸ signedOut.session, goto_flights tab _ ▸ signedOut.flights,
    signedOut.way.goto location⟩

/-- Whoever goes to the sign-in page is signed out there. -/
theorem signedOut_follow (session : tab.session.Forgets out.MadeLate)
    (flights : ∀ f ∈ tab.flights, f ∈ out.flights ∨ ∃ d, f.call = .signIn d)
    (placed : tab.Placed) : SignedOut out (tab.follow signInPath) where
  session := by
    rw [follow, goto_session]
    exact session
  flights := by
    rw [follow, goto_flights]
    exact flights
  way := wayHome_follow_signIn placed

theorem SignedOut.settleCall (signedOut : SignedOut out tab) (page : Nat) (c : Page.Call)
    {outcome : Outcome c.Answer} (forgets : outcome.session.Forgets out.MadeLate)
    (made : ∀ g, c.made? outcome.result = some g → out.MadeLate g) :
    SignedOut out (tab.settleCall page c outcome) where
  session := by
    rw [settleCall_session, settling, Page.settle_session]
    cases late : c.made? outcome.result with
    | none => exact forgets
    | some g => exact forgets.selectMade (made g late)
  flights := by
    rw [settleCall_flights]
    exact signedOut.flights
  way := signedOut.way.settleCall page c outcome

/-- What comes of a call that is no sign-in leaves what is forgotten. -/
theorem Settles.forgets {late : Grant → Prop} {c : Page.Call} {r : Reply}
    (settles : tab.Settles page c (c.operation.settle tab.session r.outcome) after)
    (undisturbed : Undisturbed tab after) (forgets : tab.session.Forgets late) :
    (c.operation.settle tab.session r.outcome).session.Forgets late := by
  refine forgets_settle c.operation forgets _ fun a result => ?_
  by_cases free : c.operation.IsSignIn
  · obtain ⟨d, rfl⟩ := Page.Call.isSignIn free
    exact absurd result (undisturbed.signsIn page d _ a settles)
  · exact handsOut_of_not_isSignIn free a

/-- A call that is made signed out fails at once, or asks for a token. -/
theorem SignedOut.calls {c : Page.Call} (signedOut : SignedOut out tab)
    (first : tab.due = .call page c :: rest)
    (undisturbed : Undisturbed tab ({ tab with due := rest }.send page c)) :
    SignedOut out ({ tab with due := rest }.send page c) := by
  have left : SignedOut out { tab with due := rest } :=
    ⟨signedOut.session, signedOut.flights, signedOut.way.others first id⟩
  have lacks : tab.session.LacksToken := .inl signedOut.session.token
  -- Only a sign-in has a request without a token.
  have asks {request : Request} (asked : c.operation.request? tab.session = some request) :
      ∃ d, c = .signIn d := by
    refine Page.Call.isSignIn (not_not.mp fun needs => ?_)
    rw [Operation.request?_eq_none needs lacks] at asked
    cases asked
  rcases send_cases { tab with due := rest } page c with
    ⟨-, sent⟩ | ⟨request, asked, ⟨r, server, taken, sent⟩ | ⟨server, -, sent⟩⟩
  · rw [sent]
    refine left.settleCall page c (forgets_fail signedOut.session _) fun g made => ?_
    rw [Operation.fail_result, Page.Call.made?_error] at made
    cases made
  · have settles := Settles.atOnce first asked taken
    have forgets := settles.forgets undisturbed signedOut.session
    obtain ⟨d, rfl⟩ := asks asked
    rw [sent]
    have waiting : SignedOut out
        { tab with due := rest, server, sent := tab.sent ++ [request] } :=
      left.idle left.session (fun _ => id) rfl rfl rfl rfl
    exact waiting.settleCall page (.signIn d) forgets nofun
  · obtain ⟨d, rfl⟩ := asks asked
    rw [sent]
    refine ⟨left.session, fun f mem => ?_, left.way.mono rfl rfl id fun _ mem _ => mem⟩
    rcases List.mem_append.mp mem with old | new
    · exact left.flights f old
    · exact .inr ⟨d, congrArg Flight.call (List.mem_singleton.mp new)⟩

theorem SignedOut.work (signedOut : SignedOut out tab) (placed : tab.Placed)
    (first : tab.due = due :: rest)
    (undisturbed : Undisturbed tab ({ tab with due := rest }.work due)) :
    SignedOut out ({ tab with due := rest }.work due) := by
  have others (other : ¬ tab.LeadsHome due) : SignedOut out { tab with due := rest } :=
    ⟨signedOut.session, signedOut.flights, signedOut.way.others first other⟩
  cases due with
  | mount page =>
    simp only [Tab.work]
    split
    · refine ⟨?_, ?_, @WayHome.mounts { tab with due := rest } (.inl signedOut.session.token)⟩
      · rw [takeTurn_session, Page.mounted_session]
        exact signedOut.session
      · rw [takeTurn_flights]
        exact signedOut.flights
    · rename_i left
      exact others left
  | call page c => exact signedOut.calls first undisturbed
  | goto page path =>
    simp only [Tab.work]
    split
    · by_cases homeward : path = signInPath
      · subst homeward
        exact @signedOut_follow out { tab with due := rest } signedOut.session signedOut.flights
          placed
      · exact (others fun leads => homeward leads.2).goto _
    · rename_i left
      exact others fun leads => left leads.1
  | signedOut =>
    simp only [Tab.work]
    exact @signedOut_follow out { tab with due := rest } signedOut.session signedOut.flights placed
  | expiry =>
    simp only [Tab.work]
    split
    · exact @signedOut_follow out { tab with due := rest, expired := false } signedOut.session
        signedOut.flights placed
    · rename_i seen
      exact others seen

theorem SignedOut.moves (signedOut : SignedOut out tab) (placed : tab.Placed)
    (moves : Moves tab after) (undisturbed : Undisturbed tab after) : SignedOut out after := by
  -- At rest there is no page at hand that could select a grant.
  have free (rests : tab.due = []) : tab.page.kind ∉ Kind.guarded :=
    signedOut.way.resolve_right fun ⟨due, mem, _⟩ => nomatch rests ▸ mem
  cases moves with
  | works next =>
    cases first : tab.due with
    | nil => rw [(next_eq_none_iff tab).mpr first] at next; cases next
    | cons due rest =>
      rw [next_eq_some tab first] at next
      cases next
      exact signedOut.work placed first undisturbed
  | acts rests offered entry =>
    refine ⟨?_, ?_, .inl ?_⟩
    · rw [takeTurn_session, Page.handle_session_of_unguarded (free rests)]
      exact signedOut.session
    · rw [takeTurn_flights]
      exact signedOut.flights
    · rw [takeTurn_page, Page.kind_handle]
      exact free rests
  | signsOut rests =>
    exact ⟨Session.forgets_signOut _ _, signedOut.flights,
      .inr ⟨.signedOut, List.mem_append_right _ (List.mem_singleton.mpr rfl), trivial⟩⟩
  | visits rests path => exact signedOut.goto _
  | @answers rests nth flight held r =>
    obtain ⟨page, c⟩ := flight
    have settles := Settles.answered rests held r
    have waiting : SignedOut out { tab with flights := tab.flights.eraseIdx nth } :=
      signedOut.idle signedOut.session (fun _ => List.mem_of_mem_eraseIdx) rfl rfl rfl rfl
    refine waiting.settleCall page c (settles.forgets undisturbed signedOut.session)
      fun g made => ?_
    obtain ⟨grant, body, rfl, readable⟩ := Page.Call.made?_settle made
    rcases signedOut.flights _ (List.mem_of_getElem? held) with before | ⟨d, other⟩
    · exact ⟨page, grant, body, before, readable⟩
    · cases other
  | dismisses toast =>
    exact signedOut.idle signedOut.session (fun _ => id) rfl rfl rfl rfl
  | waits ms =>
    exact signedOut.idle signedOut.session (fun _ => id) rfl rfl rfl rfl
  | keeps key value =>
    cases value with
    | none =>
      exact signedOut.idle (signedOut.session.remove key) (fun _ => id) rfl rfl rfl rfl
    | some value =>
      have other : key ∉ Session.signedInKeys := fun own =>
        undisturbed.elsewhere key own value rfl
      exact signedOut.idle (signedOut.session.set other value) (fun _ => id) rfl rfl rfl rfl
  | dresses strays =>
    exact signedOut.idle signedOut.session (fun _ => id) rfl rfl rfl rfl

theorem LeadsSignedOut.leads (since : LeadsSignedOut tab after) : Leads tab after := by
  induction since with
  | refl => exact .refl
  | tail _ moves ih => exact ih.tail moves.1

theorem LeadsSignedOut.signedOut (since : LeadsSignedOut tab after) (signedOut : SignedOut out tab)
    (placed : tab.Placed) : SignedOut out after := by
  induction since with
  | refl => exact signedOut
  | tail before moves ih =>
    exact ih.moves ((LeadsSignedOut.leads before).placed placed) moves.1 moves.2

end SignedOut

section Signing

variable {tab out later after : Tab} {page : Nat}

theorem Settles.outcome_of_ended {c : Page.Call} {outcome : Outcome c.Answer}
    (settles : tab.Settles page c outcome after) (ended : outcome.ended = true) :
    ∃ e, outcome = ⟨.error e, tab.session.signOut, true⟩ := by
  cases settles with
  | unsent first unasked => exact ⟨_, rfl⟩
  | atOnce first asked taken => exact settle_of_ended ended
  | answered rests held r => exact settle_of_ended ended

theorem SignsOut.moves (signsOut : SignsOut tab out) : Moves tab out := by
  cases signsOut with
  | button rests => exact .signsOut rests
  | ends settles ended => exact settles.moves

theorem SignsOut.cleared (signsOut : SignsOut tab out) :
    ∀ key ∈ Session.signedInKeys, out.session.get? key = none := by
  cases signsOut with
  | button rests => exact tab.session.signOut_get?
  | ends settles ended =>
    obtain ⟨e, rfl⟩ := settles.outcome_of_ended ended
    rw [settles.takesTurn.session, settling, Page.settle_session, Page.Call.made?_error]
    exact tab.session.signOut_get?

theorem SignsOut.way (signsOut : SignsOut tab out) : out.WayHome := by
  cases signsOut with
  | button rests =>
    exact .inr ⟨.signedOut, List.mem_append_right _ (List.mem_singleton.mpr rfl), trivial⟩
  | ends settles ended =>
    obtain ⟨taking, -, -, -, -, rfl⟩ := settles.settleCall
    refine .inr ⟨.expiry, ?_, ?_⟩
    · rw [settleCall_due, expiryOf, if_pos ended]
      simp
    · show (taking.settleCall _ _ _).expired = true
      rw [settleCall_expired, ended, Bool.true_or]

theorem SignsOut.signedOut (signsOut : SignsOut tab out) : SignedOut out out :=
  ⟨Session.forgets_of_none signsOut.cleared, fun _ => .inl, signsOut.way⟩

/-- The answer that a grant was made leaves it behind, whatever the session. -/
theorem Settles.selects {c : Page.Call} {outcome : Outcome c.Answer} {g : Grant} {id : String}
    (settles : tab.Settles page c outcome after) (made : c.made? outcome.result = some g)
    (known : g.id = some id) (kept : outcome.session.entries ≠ none) :
    after.session.get? Session.grantIdKey = some id ∧
      after.session.get? Session.grantTitleKey = some g.title := by
  obtain ⟨entries, present⟩ := Option.ne_none_iff_exists'.mp kept
  have selected : after.session = outcome.session.selectGrant id g.title := by
    rw [settles.takesTurn.session, settling, Page.settle_session, made, Option.elim_some,
      Session.selectMade_of_known _ known]
  rw [selected, Session.get?_selectGrant, Session.get?_selectGrant, present]
  exact ⟨by rw [if_neg (by decide), if_pos rfl]; rfl, by rw [if_pos rfl]; rfl⟩

end Signing

/-- In all runs, from a sign-out to the next sign-in no token is kept, and of a grant only what the
answers to calls that waited at the sign-out leave behind; these answers do leave it behind. -/
theorem signOut_keeps_late_grants {session : Session} {server : Server} {path : String}
    {tab out later : Tab} (leads : Leads (launched session server path) tab)
    (signsOut : SignsOut tab out) (since : LeadsSignedOut out later) : KeptSince out later := by
  have placed : out.Placed :=
    Leads.placed (leads.tail signsOut.moves) (launched_placed session server path)
  have signedOut := LeadsSignedOut.signedOut since signsOut.signedOut placed
  refine ⟨signsOut.cleared, signedOut.session, fun no => ?_,
    fun page grant outcome after g id settles made known kept =>
      settles.selects (made ▸ rfl) known kept⟩
  refine signedOut.session.none fun g ⟨page, grant, body, mem, _⟩ => ?_
  exact no page grant mem

/-! ## A grant that is made too late -/

section Late

variable {tab after : Tab}

theorem undisturbed_of_calls (none : ∀ f ∈ tab.calls, ∀ d, f.call ≠ .signIn d)
    (changes : after.due ≠ tab.due ∨ after.flights ≠ tab.flights) : Undisturbed tab after where
  signsIn page d outcome token settles := absurd rfl (none _ settles.mem_calls d)
  elsewhere key own value := by
    rintro rfl
    exact changes.elim (absurd rfl) (absurd rfl)

/-- An operator who signs out comes to rest on the sign-in page, with all calls still waiting. -/
theorem leads_signIn (placed : tab.Placed) (rests : tab.due = []) (away : tab.page.kind ≠ .signIn)
    (none : ∀ f ∈ tab.flights, ∀ d, f.call ≠ .signIn d) :
    ∃ home : Tab,
      LeadsSignedOut ({ tab with session := tab.session.signOut }.push .signedOut) home ∧
      home.due = [] ∧ home.flights = tab.flights ∧ home.session = tab.session.signOut := by
  let out : Tab := { tab with session := tab.session.signOut }.push .signedOut
  let left : Tab := { tab with session := tab.session.signOut, due := [] }
  have due : out.due = [.signedOut] := by
    show tab.due ++ [.signedOut] = _
    rw [rests, List.nil_append]
  have quiet : ∀ f ∈ out.calls, ∀ d, f.call ≠ .signIn d := by
    intro f mem
    rw [calls, due] at mem
    exact none f mem
  obtain ⟨chrome, gone⟩ := @follow_signIn_of_away left placed away
  let page : Page := .opened .signIn tab.session.signOut
  let home : Tab :=
    { left with location := ⟨"/", ""⟩, chrome, page, number := tab.number + 1, strays := [] }
  have first : out.next = some (home.push (.mount home.number)) := by
    rw [next_eq_some out due]
    exact congrArg some gone
  have mounted : home.work (.mount home.number) = home := by
    rw [work, if_pos rfl]
    exact congrArg home.takeTurn (Page.mounted_of_signIn (p := page) rfl _)
  have second : (home.push (.mount home.number)).next = some home :=
    (next_eq_some (home.push (.mount home.number)) rfl).trans (congrArg some mounted)
  refine ⟨home, .tail (.single ⟨.works first, ?_⟩) ⟨.works second, ?_⟩, rfl, rfl, rfl⟩
  · refine undisturbed_of_calls quiet (.inl fun same => ?_)
    rw [due] at same
    cases same
  · refine undisturbed_of_calls none (.inl fun same => ?_)
    cases same

end Late

/-- An operator who makes a grant. -/
def makesGrant : List Step :=
  [.click { look := { tag := some "button", text := some "New grant" } },
    .input { look := { label := some "Total amount" } } "5",
    .click { look := { tag := some "button", text := some "Save" } }]

/-- A server without grants that is late with the answer to the first one that is made. -/
def grantlessServer : Server where
  replies := [some (.answer ⟨200, "\x7b\"data\":[],\"count\":0\x7d"⟩), none]

/-- The answer that the grant was made. -/
def grantMade : Reply :=
  .answer ⟨200, "\x7b\"id\":\"g\",\"title\":\"Coast\",\"funding_agency\":\"\",\"start_date\":\"\","
    ++ "\"end_date\":\"\",\"total_amount\":5,\"status\":\"\"\x7d"⟩

/-- The operator signs out while the grant is on its way; the answer comes to the sign-in page. -/
theorem leads_late_grant :
    ∃ tab out later, Leads (launched ⟨some [("access_token", "t")]⟩ grantlessServer "/grants") tab ∧
      SignsOut tab out ∧ LeadsSignedOut out later ∧
      later.session.get? Session.grantIdKey = some "g" := by
  let session : Session := ⟨some [("access_token", "t")]⟩
  let tab := (opened session grantlessServer "/grants").after makesGrant
  have leads := leads_after session grantlessServer "/grants" makesGrant
  have rests := after_due session grantlessServer "/grants" makesGrant
  have placed := Leads.placed leads (launched_placed session grantlessServer "/grants")
  have away : tab.page.kind ≠ .signIn := by decide +kernel
  have waits : (tab.flights.map fun f =>
      let outcome := f.call.operation.settle tab.session.signOut grantMade.outcome
      ((f.call.made? outcome.result).bind Grant.id, outcome.session.entries.isSome)) =
      [(some "g", true)] := by decide +kernel
  obtain ⟨⟨page, c⟩, flights, told⟩ := List.map_eq_singleton_iff.mp waits
  obtain ⟨known, kept⟩ := Prod.mk.inj told
  obtain ⟨g, made, known⟩ := Option.bind_eq_some_iff.mp known
  have none : ∀ f ∈ tab.flights, ∀ d, f.call ≠ .signIn d := by
    rw [flights]
    rintro f mem d same
    obtain rfl := List.mem_singleton.mp mem
    cases same
    cases made
  obtain ⟨home, since, quiet, waiting, signedOut⟩ := leads_signIn placed rests away none
  have held : home.flights[0]? = some ⟨page, c⟩ := by rw [waiting, flights]; rfl
  have settles := Settles.answered quiet held grantMade
  rw [← signedOut] at made kept
  have selected := (settles.selects made known (Option.ne_none_iff_isSome.mpr kept)).1
  have taken : home.flights.eraseIdx 0 ≠ home.flights := by
    rw [waiting, flights]
    nofun
  refine ⟨tab, _, _, leads, .button rests, since.tail ⟨settles.moves, ?_⟩, selected⟩
  refine undisturbed_of_calls (fun f mem => ?_) (.inr ?_)
  · rw [calls, quiet] at mem
    exact none f (waiting ▸ mem)
  · rw [reply, settleCall_flights]
    exact taken

/-- After the sign-out the grant that was made is found in the session. -/
theorem signOut_keeps_late_grants_made :
    ∃ tab out later, Leads (launched ⟨some [("access_token", "t")]⟩ grantlessServer "/grants") tab ∧
      SignsOut tab out ∧ KeptSince out later ∧
      later.session.get? Session.grantIdKey = some "g" := by
  obtain ⟨tab, out, later, leads, signsOut, since, kept⟩ := leads_late_grant
  exact ⟨tab, out, later, leads, signsOut, signOut_keeps_late_grants leads signsOut since, kept⟩

/-- A sign-out does not see to it that nothing is kept until the next sign-in. -/
theorem signOut_leaves_grant :
    ¬ ∀ (session : Session) (server : Server) (path : String) (tab out later : Tab),
      Leads (launched session server path) tab → SignsOut tab out → LeadsSignedOut out later →
        ∀ key ∈ Session.signedInKeys, later.session.get? key = none := by
  intro all
  obtain ⟨tab, out, later, leads, signsOut, since, kept⟩ := leads_late_grant
  have none := all _ _ _ tab out later leads signsOut since Session.grantIdKey
    (by simp [Session.signedInKeys])
  rw [kept] at none
  cases none

end Tab

end GrantConsole.Console
