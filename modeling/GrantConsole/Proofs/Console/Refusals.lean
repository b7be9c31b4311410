import GrantConsole.Proofs.Console.Access
import GrantConsole.Proofs.Console.Failures
import GrantConsole.Proofs.Screen.Sessions
import GrantConsole.Proofs.Session.Entries

/-!
# Refusals

A call that is refused with the status 401 ends the session: token and grant are forgotten, and the
console goes to the sign-in page. It is not asked with which token the call was made, so that an
answer to a call of an earlier session ends the session of today. Nothing else takes away what is
kept but a call that is made without a token, the operator who signs out, and other windows.
-/

namespace GrantConsole

namespace Session

/-- Under every key something is still kept. -/
def Keeps (before after : Session) : Prop :=
  ∀ key, before.get? key ≠ none → after.get? key ≠ none

variable {s t u : Session}

theorem Keeps.refl (s : Session) : s.Keeps s := fun _ => id

theorem Keeps.trans (first : s.Keeps t) (second : t.Keeps u) : s.Keeps u :=
  fun key kept => second key (first key kept)

theorem keeps_set (s : Session) (key value : String) : s.Keeps (s.set key value) := by
  intro other kept
  rw [get?_set]
  split
  · obtain ⟨_ | entries⟩ := s
    · exact absurd rfl kept
    · exact Option.some_ne_none value
  · exact kept

theorem keeps_selectGrant (s : Session) (id title : String) : s.Keeps (s.selectGrant id title) :=
  (s.keeps_set _ _).trans (keeps_set _ _ _)

theorem keeps_of_selectsAtMost (selects : Screen.SelectsAtMost s t) : s.Keeps t := by
  rcases selects with rfl | ⟨id, title, rfl⟩
  · exact .refl _
  · exact s.keeps_selectGrant id title

end Session

end GrantConsole

namespace GrantConsole.Console

open GrantConsole.Api GrantConsole.Screen GrantConsole.Url

/-- The server does not accept the token of the request. -/
def Reply.Refuses : Reply → Prop
  | .answer response => response.status = 401
  | .broken _ => False

section Operations

variable {α : Type} (op : Operation α) (session : Session) {r : Reply}

theorem settle_of_refuses (refuses : r.Refuses) :
    ∃ e, op.settle session r.outcome = ⟨.error e, session.signOut, true⟩ := by
  cases r with
  | broken why => exact refuses.elim
  | answer response =>
    obtain ⟨status, body⟩ := response
    cases refuses
    exact ⟨.ofStatus 401 body, rfl⟩

/-- Any other reply leaves what is kept, or adds to it. -/
theorem keeps_settle (other : ¬ r.Refuses) :
    session.Keeps (op.settle session r.outcome).session := by
  cases r with
  | broken why => exact .refl session
  | answer response =>
    simp only [Reply.outcome, Operation.settle]
    split
    · split
      · rename_i a read
        cases op with
        | signIn email password => exact session.keeps_set _ _
        | _ => exact .refl session
      · exact .refl session
    · have other : response.status ≠ 401 := other
      simp [Operation.fail, Failure.ofStatus, Failure.endsSession, other]
      exact .refl session

end Operations

namespace Page

theorem mounted_session (p : Page) (session : Session) : (p.mounted session).session = session := by
  fun_cases mounted p session
  · cases p with
    | expenses s => exact s.reload_session
    | roles s => exact s.reload_session
    | rules s => exact s.reload_session
    | overview s => exact s.reload_session
    | ruleEditor s => exact s.mounted_session
    | _ => rfl
  · rfl
  · rfl

theorem handle_session (p : Page) (session : Session) (act : Act) (entry : Entry) :
    SelectsAtMost session (p.handle session act entry).session := by
  fun_cases handle p session act entry
  case case2 s a => exact s.handle_session a
  case case10 => exact .inl rfl
  all_goals
    rename_i s a
    exact .inl (s.handle_session a)

/-- A turn that takes in an answer only selects a grant that was just made. -/
theorem settle_takesIn (page : Option Page) (session : Session) (c : Call)
    (result : Except Failure c.Answer) :
    ∃ after, SelectsAtMost session after ∧ (∀ e, result = .error e → after = session) ∧
      (settle page session c result).TakesIn after result := by
  have kept {t : Turn (Option Page) Call} (takesIn : t.TakesIn session result) :
      ∃ after, SelectsAtMost session after ∧ (∀ e, result = .error e → after = session) ∧
        t.TakesIn after result := ⟨session, .inl rfl, fun _ _ => rfl, takesIn⟩
  cases c with
  | signIn c => exact kept ((SignIn.settle_takesIn _ result).map _ _)
  | grants c =>
    obtain ⟨after, selects, failed, takesIn⟩ := Grants.settle_takesIn _ c result
    exact ⟨after, selects, failed, takesIn.map _ _⟩
  | overview c => exact kept ((Overview.settle_takesIn _ result).map _ _)
  | expenses c => exact kept ((Expenses.settle_takesIn _ c result).map _ _)
  | approvals c => exact kept ((Approvals.settle_takesIn _ c result).map _ _)
  | categories c => exact kept ((Categories.settle_takesIn _ c result).map _ _)
  | roles c => exact kept ((Roles.settle_takesIn _ c result).map _ _)
  | users c => exact kept ((Users.settle_takesIn _ c result).map _ _)
  | rules c => exact kept ((Rules.settle_takesIn _ c result).map _ _)
  | ruleEditor c => exact kept ((RuleEditor.settle_takesIn _ c result).map _ _)

end Page

namespace Tab

/-- What takes something away from what is kept. -/
inductive Clears (tab : Tab) : Tab → Prop
  /-- A call is made without a token. -/
  | unsent {page : Nat} {c : Page.Call} {rest : List Due} (first : tab.due = .call page c :: rest)
      (unasked : c.operation.request? tab.session = none) :
      Clears tab ({ tab with due := rest }.send page c)
  /-- A call is refused, at once or after a wait. -/
  | refused {page : Nat} {c : Page.Call} {r : Reply} {after : Tab} (refuses : r.Refuses)
      (settles : tab.Settles page c (c.operation.settle tab.session r.outcome) after) :
      Clears tab after
  | signsOut (rests : tab.due = []) :
      Clears tab ({ tab with session := tab.session.signOut }.push .signedOut)
  /-- Another window takes a key away. -/
  | removes (key : String) : Clears tab (tab.keep key none)

section Clearing

variable {tab after : Tab} {page : Nat} {c : Page.Call}

/-- What is kept after an answer is what the call left, or more. -/
theorem keeps_settleCall (tab : Tab) (page : Nat) (c : Page.Call) (outcome : Outcome c.Answer) :
    outcome.session.Keeps (tab.settleCall page c outcome).session := by
  obtain ⟨after, selects, -, takesIn⟩ := Page.settle_takesIn
    (if page = tab.number then some tab.page else none) outcome.session c outcome.result
  rw [settleCall_session, settling, takesIn.session]
  exact Session.keeps_of_selectsAtMost selects

theorem Settles.keeps_or_clears {r : Reply}
    (settles : tab.Settles page c (c.operation.settle tab.session r.outcome) after) :
    tab.session.Keeps after.session ∨ Clears tab after := by
  by_cases refuses : r.Refuses
  · exact .inr (.refused refuses settles)
  · obtain ⟨taking, -, -, -, -, rfl⟩ := settles.settleCall
    have settled := keeps_settle c.operation tab.session refuses
    exact .inl (settled.trans (keeps_settleCall taking page c _))

/-- Every move but those that clear keeps something under every key. -/
theorem Moves.keeps_or_clears (moves : Moves tab after) :
    tab.session.Keeps after.session ∨ Clears tab after := by
  have same {other : Session} (eq : other = tab.session) : tab.session.Keeps other :=
    eq ▸ .refl _
  cases moves with
  | works next =>
    obtain ⟨due, rest, first, works⟩ := tab.works_of_next next
    cases works with
    | mounts => exact .inl (same ((takeTurn_session ..).trans (Page.mounted_session ..)))
    | calls page c =>
      rcases send_cases { tab with due := rest } page c with
        ⟨unasked, -⟩ | ⟨request, asked, ⟨r, server, taken, -⟩ | ⟨server, -, sent⟩⟩
      · exact .inr (.unsent first unasked)
      · exact (Settles.atOnce first asked taken).keeps_or_clears
      · exact .inl (same (by rw [sent]))
    | goes path => exact .inl (same (goto_session ..))
    | signsOut => exact .inl (same (goto_session ..))
    | expires => exact .inl (same (goto_session ..))
    | left own elsewhere => exact .inl (.refl _)
    | seen => exact .inl (.refl _)
  | acts rests offered entry =>
    rw [takeTurn_session]
    exact .inl (Session.keeps_of_selectsAtMost (Page.handle_session ..))
  | signsOut rests => exact .inr (.signsOut rests)
  | visits rests path => exact .inl (same (goto_session ..))
  | answers rests held r => exact (Settles.answered rests held r).keeps_or_clears
  | dismisses id => exact .inl (.refl _)
  | waits ms => exact .inl (.refl _)
  | keeps key value =>
    cases value with
    | none => exact .inr (.removes key)
    | some value => exact .inl (tab.session.keeps_set key value)
  | dresses strays => exact .inl (.refl _)

end Clearing

/-! ## Refused calls -/

/-- The console after the end of a session: the way to the sign-in page is due, or it is there. -/
structure Ending (session : Session) (tab : Tab) : Prop where
  session : tab.session = session
  placed : tab.Placed
  way : tab.due = [.expiry] ∧ tab.expired = true ∨
    tab.location = ⟨"/", ""⟩ ∧ ∀ due ∈ tab.due, due = .mount tab.number

section Ending

variable {tab : Tab} {session : Session}

theorem ending_follow (tab : Tab) (kept : tab.session = session) (placed : tab.Placed)
    (rests : tab.due = []) : Ending session (tab.follow signInPath) := by
  rw [follow, follow_signInPath]
  refine ⟨(goto_session ..).trans kept, goto_placed placed _, .inr ⟨goto_location .., ?_⟩⟩
  rcases tab.goto_cases ⟨"/", ""⟩ with same | ⟨_, _, same⟩ | ⟨_, same⟩
  all_goals
    rw [same]
    simp [rests]

theorem Ending.work (ending : Ending session tab) {due : Due} {rest : List Due}
    (first : tab.due = due :: rest) : Ending session ({ tab with due := rest }.work due) := by
  rcases ending.way with ⟨only, raised⟩ | ⟨home, mounts⟩
  · obtain ⟨rfl, rfl⟩ := List.cons.inj (first.symm.trans only)
    simp only [Tab.work, raised, if_true]
    exact ending_follow { tab with due := [], expired := false } ending.session ending.placed rfl
  · obtain rfl := mounts due (first ▸ List.mem_cons_self)
    have signIn : tab.page.kind = .signIn := by
      rw [ending.placed, home, Place.ofPath_root]
      rfl
    simp only [Tab.work, if_true, Page.mounted_of_signIn signIn]
    exact ⟨ending.session, ending.placed,
      .inr ⟨home, fun due mem => mounts due (first ▸ List.mem_cons_of_mem _ mem)⟩⟩

theorem Ending.runFor (ending : Ending session tab) (fuel : Nat) :
    Ending session (tab.runFor fuel) := by
  refine tab.runFor_carries (fun a b => Ending session a → Ending session b) (fun _ => id)
    (fun first second => second ∘ first) (fun tab due rest first ending => ?_) fuel ending
  exact ending.work first

/-- When nothing is due any more, the sign-in page is at hand. -/
theorem Ending.arrived (ending : Ending session tab) (rests : tab.due = []) :
    tab.session = session ∧ tab.location = ⟨"/", ""⟩ ∧ tab.page.kind = .signIn := by
  rcases ending.way with ⟨only, -⟩ | ⟨home, -⟩
  · rw [rests] at only
    cases only
  · refine ⟨ending.session, home, ?_⟩
    rw [ending.placed, home, Place.ofPath_root]
    rfl

/-- A refusal signs out, whatever the token of the refused request and the one that is kept. -/
theorem ending_reply (tab : Tab) (rests : tab.due = []) (placed : tab.Placed) (page : Nat)
    (c : Page.Call) {r : Reply} (refuses : r.Refuses) :
    Ending tab.session.signOut (tab.reply page c r) := by
  obtain ⟨e, refused⟩ := settle_of_refuses c.operation tab.session refuses
  obtain ⟨after, -, failed, takesIn⟩ := Page.settle_takesIn
    (if page = tab.number then some tab.page else none) tab.session.signOut c (.error e)
  obtain rfl := failed e rfl
  unfold reply
  rw [refused]
  have told : (tab.settling page c ⟨.error e, tab.session.signOut, true⟩).commands.filterMap
      (dueOf page) = [] := by
    refine List.filterMap_eq_nil_iff.mpr fun command mem => ?_
    obtain ⟨kind, text, rfl⟩ := takesIn.failed e rfl command mem
    rfl
  refine ⟨(settleCall_session ..).trans takesIn.session, settleCall_placed placed page c _,
    .inl ⟨?_, ?_⟩⟩
  · rw [settleCall_due, told, rests]
    rfl
  · rw [settleCall_expired]
    rfl

end Ending

/-- In all runs a call that is refused ends the session, whether the token that is kept is the one
that the call was made with or one of a later session. Nothing else takes away what is kept but a
call without a token, the operator who signs out, and other windows. -/
theorem refusals_end_any_session {session : Session} {server : Server} {path : String} {tab : Tab}
    (leads : Leads (launched session server path) tab) :
    (tab.due = [] → ∀ nth flight r, tab.flights[nth]? = some flight → r.Refuses →
      ∃ after, tab.answer? nth r = some after ∧ after.session = tab.session.signOut ∧
        after.location = ⟨"/", ""⟩ ∧ after.page.kind = .signIn) ∧
    ∀ after, Moves tab after → tab.session.Keeps after.session ∨ Clears tab after := by
  refine ⟨fun rests nth flight r held refuses => ?_, fun after moves => moves.keeps_or_clears⟩
  have answered : tab.answer? nth r = some
      ({ tab with flights := tab.flights.eraseIdx nth }.reply flight.page flight.call r).run := by
    rw [answer?, held]
    rfl
  have ending : Ending tab.session.signOut
      ({ tab with flights := tab.flights.eraseIdx nth }.reply flight.page flight.call r) :=
    ending_reply { tab with flights := tab.flights.eraseIdx nth } rests
      (leads.placed (launched_placed session server path)) flight.page flight.call refuses
  have arrived := (ending.runFor workLimit).arrived (answer_due rests answered :)
  exact ⟨_, answered, arrived⟩

/-- An operator who signs out and in again. -/
def signsInAgain : List Step :=
  [.click { look := { tag := some "button", text := some "Sign out" } },
    .input { look := { placeholder := some "you@example.com" } } "a@b.c",
    .input { look := { placeholder := some "Password" } } "secret",
    .click { look := { tag := some "button", text := some "Sign In" } }]

/-- A server that is late with the first answer and then hands out a token. -/
def lateServer : Server where
  replies := [none,
    some (.answer ⟨200, "\x7b\"access_token\":\"new\",\"token_type\":\"bearer\"\x7d"⟩)]

/-- A call of the session before is refused in a later one. -/
theorem refusals_end_any_session_late :
    ∃ tab after, Leads (launched ⟨some [("access_token", "old")]⟩ lateServer "/grants") tab ∧
      tab.due = [] ∧ tab.sent.map Request.bearer = [some "old", none, some "new"] ∧
      tab.session.token? = some "new" ∧ tab.answer? 0 (.answer ⟨401, ""⟩) = some after ∧
      after.session.token? = none ∧ after.location = ⟨"/", ""⟩ := by
  let session : Session := ⟨some [("access_token", "old")]⟩
  have leads := leads_after session lateServer "/grants" signsInAgain
  have rests := after_due session lateServer "/grants" signsInAgain
  have waits : (((opened session lateServer "/grants").after signsInAgain).flights[0]?).isSome := by
    decide +kernel
  obtain ⟨flight, held⟩ := Option.isSome_iff_exists.mp waits
  obtain ⟨after, answered, ended, home, -⟩ :=
    (refusals_end_any_session leads).1 rests 0 flight (.answer ⟨401, ""⟩) held rfl
  refine ⟨_, after, leads, rests, by decide +kernel, by decide +kernel, answered, ?_, home⟩
  rw [ended]
  decide +kernel

/-- A later session is not spared: the request that was sent as the console was opened carried
another token, and its refusal ends the session. -/
theorem not_spared_from_late_refusal :
    ¬ ∀ (session : Session) (server : Server) (path : String) (steps : List Step)
      (token now body : String),
      let start := opened session server path
      let tab := start.after steps
      start.flights.length = 1 → start.sent.map Request.bearer = [some token] →
        (∀ s ∈ steps, ∀ r nth, s ≠ .reply r nth) → tab.session.token? = some now → now ≠ token →
          (tab.step (.reply (.answer ⟨401, body⟩) 0)).1.session = tab.session := by
  intro all
  have spared := all ⟨some [("access_token", "old")]⟩ lateServer "/grants" signsInAgain "old" "new"
    "" (by decide +kernel) (by decide +kernel) (by simp [signsInAgain]) (by decide +kernel) (by decide)
  revert spared
  decide +kernel

end Tab

end GrantConsole.Console
