import GrantConsole.Proofs.Console.Events
import GrantConsole.Proofs.Console.Repeats
import GrantConsole.Proofs.Console.SignedOut
import GrantConsole.Proofs.Url.Segments

/-!
# Header and footer follow the session

Header and footer look at the session only when the path changes. They are right nevertheless, for
what ends a session also goes to the sign-in page: a sign-out, a refusal and a call without a token
each leave work due that leads there. One answer does not: that of a sign-in whose page has been
left, for the page that is gone goes nowhere. If it hands out an empty token, nobody is signed in
any more and header and footer stay until the path changes.
-/

namespace GrantConsole.Url

theorem Location.follow_path_ne_empty {here : Location} (rooted : here.path ≠ "") (path : String) :
    (here.follow path).path ≠ "" := by
  unfold follow
  dsimp only
  split
  · exact rooted
  · exact normalPath_ne_empty _

end GrantConsole.Url

namespace GrantConsole.Session

variable {s t : Session}

theorem isSignedIn_iff :
    s.isSignedIn = true ↔ ∃ token, token ≠ "" ∧ s.get? tokenKey = some token := by
  unfold isSignedIn token? getNonempty?
  cases s.get? tokenKey <;> simp

theorem isSignedIn_congr (same : t.get? tokenKey = s.get? tokenKey) :
    t.isSignedIn = s.isSignedIn := by
  unfold isSignedIn token? getNonempty?
  rw [same]

/-- To select a grant is not to sign in or out. -/
theorem isSignedIn_of_selectsAtMost (selects : Screen.SelectsAtMost s t) :
    t.isSignedIn = s.isSignedIn := by
  rcases selects with rfl | ⟨id, title, rfl⟩
  · rfl
  · refine isSignedIn_congr ?_
    rw [get?_selectGrant, if_neg (by decide), if_neg (by decide)]

/-- Whoever takes a token over another one stays signed in, unless the token is empty. -/
theorem isSignedIn_set (signedIn : s.isSignedIn = true) {token : String} (some : token ≠ "") :
    (s.set tokenKey token).isSignedIn = true := by
  obtain ⟨_, -, before⟩ := isSignedIn_iff.mp signedIn
  refine isSignedIn_iff.mpr ⟨token, some, ?_⟩
  rw [get?_set, if_pos rfl]
  cases kept : s.entries with
  | none => simp [get?, kept] at before
  | some entries => rfl

theorem not_isSignedIn_set_empty (s : Session) : (s.set tokenKey "").isSignedIn = false := by
  refine Bool.eq_false_iff.mpr fun signedIn => ?_
  obtain ⟨token, nonempty, found⟩ := isSignedIn_iff.mp signedIn
  rw [get?_set, if_pos rfl] at found
  obtain ⟨-, -, rfl⟩ := Option.map_eq_some_iff.mp found
  exact nonempty rfl

end GrantConsole.Session

namespace GrantConsole.Console

open GrantConsole.Api GrantConsole.Markup GrantConsole.Screen GrantConsole.Url

section Operations

variable {α : Type} {session : Session}

theorem fail_signedIn (signedIn : session.isSignedIn = true) (e : Failure) :
    (Operation.fail session e : Outcome α).ended = true ∨
      (Operation.fail session e : Outcome α).session.isSignedIn = true := by
  rcases fail_cases (α := α) session e with same | same
  · rw [same]
    exact .inl rfl
  · rw [same]
    exact .inr signedIn

/-- An answer leaves the operator signed in, or it ends the session, or it hands out an empty
token. -/
theorem settle_signedIn (op : Operation α) (signedIn : session.isSignedIn = true)
    (answer : Except Failure Response) :
    (op.settle session answer).ended = true ∨
      (op.settle session answer).session.isSignedIn = true ∨
        ∃ a, (op.settle session answer).result = .ok a ∧ op.handsOut a = some "" := by
  rcases settle_cases op session answer with ⟨e, same⟩ | ⟨a, same⟩
  · rw [same]
    exact (fail_signedIn signedIn e).imp_right .inl
  · rw [same]
    dsimp only
    right
    cases hands : op.handsOut a with
    | none =>
      rw [Operation.remember_of_handsOut_none hands]
      exact .inl signedIn
    | some token =>
      by_cases empty : token = ""
      · exact .inr ⟨a, rfl, empty ▸ hands⟩
      · rw [Operation.remember_of_handsOut_some hands]
        exact .inl (Session.isSignedIn_set signedIn empty)

end Operations

namespace Place

theorem ofSegments_eq_signIn {segments : List String} (home : ofSegments segments = signIn) :
    segments = [] := by
  unfold ofSegments at home
  split at home
  any_goals cases home
  · rfl
  · split at home <;> cases home

/-- Only the root is the place where one signs in. -/
theorem eq_root_of_ofPath {path : String} (home : ofPath path = signIn) (rooted : path ≠ "") :
    path = signInPath := by
  have none := ofSegments_eq_signIn home
  unfold segments at none
  dsimp only at none
  rw [List.map_eq_nil_iff] at none
  split at none
  · rename_i before reversed
    have whole := congrArg List.reverse reversed
    rw [List.reverse_reverse, List.reverse_cons, none] at whole
    have nothing := eq_nil_of_splitChars whole
    split at nothing
    · rename_i rest slash
      rw [nothing] at slash
      exact String.toList_injective slash
    · exact absurd (String.toList_injective nothing) rooted
  · exact absurd none (splitChars_ne_nil _ _)

end Place

namespace Page

/-- Only an operator who submits the form asks for a token. -/
theorem call_mounted_ne_signIn {p : Page} {session : Session} {d : SignIn.Call} :
    .call (.signIn d) ∉ (p.mounted session).commands := by
  intro called
  have home : p.kind = .signIn := (call_kind_mounted called).symm
  rw [mounted_of_signIn home] at called
  cases called

theorem call_settle_ne_signIn {page : Option Page} {session : Session} {c : Call}
    {result : Except Failure c.Answer} {d : SignIn.Call} :
    .call (.signIn d) ∉ (settle page session c result).commands := by
  intro called
  have own : Kind.signIn = c.kind := call_kind_settle called
  cases c with
  | signIn e =>
    simp only [settle, Turn.call_mem_map] at called
    obtain ⟨c, made, -⟩ := called
    cases result with
    | ok token =>
      simp only [SignIn.settle] at made
      split at made <;> simp [success] at made
    | error e => simp [SignIn.settle, Screen.failure] at made
  | _ => cases own

end Page

namespace Tab

/-! ## What ends a session leads away -/

/-- The work goes to the sign-in page because the session has ended. -/
def Parts (tab : Tab) : Due → Prop
  | .signedOut => True
  | .expiry => tab.expired = true
  | _ => False

/-- Header and footer are not shown on the sign-in page, and a token is asked for only there, with
nothing else to do. -/
structure Framed (tab : Tab) : Prop where
  placed : tab.Placed
  rooted : tab.location.path ≠ ""
  away : tab.chrome.visible = true → tab.location.path ≠ signInPath
  alone : ∀ page d, .call page (.signIn d) ∈ tab.due →
    tab.due = [.call page (.signIn d)] ∧ tab.chrome.visible = false

/-- Whenever header and footer are shown, an operator is signed in or on the way to the sign-in
page, or it is as on the paths to which an empty token came late. -/
structure Chromed (late : String → Prop) (tab : Tab) : Prop extends Framed tab where
  kept : tab.chrome.visible = true → tab.session.isSignedIn = true ∨
    (∃ due ∈ tab.due, tab.Parts due) ∨ late tab.location.path

section Fields

variable (tab : Tab)

theorem takeTurn_chrome (t : Turn Page Page.Call) : (tab.takeTurn t).chrome = tab.chrome :=
  commands_field _ _ _ Tab.chrome (fun _ _ _ => rfl) (fun _ _ => rfl)

theorem takeTurn_expired (t : Turn Page Page.Call) : (tab.takeTurn t).expired = tab.expired :=
  commands_field _ _ _ Tab.expired (fun _ _ _ => rfl) (fun _ _ => rfl)

theorem settleCall_chrome (page : Nat) (c : Page.Call) (outcome : Outcome c.Answer) :
    (tab.settleCall page c outcome).chrome = tab.chrome := by
  unfold settleCall
  split <;>
    exact commands_field _ _ _ Tab.chrome (fun _ _ _ => rfl) (fun _ _ => rfl)

theorem settleCall_isSignedIn (page : Nat) (c : Page.Call) (outcome : Outcome c.Answer) :
    (tab.settleCall page c outcome).session.isSignedIn = outcome.session.isSignedIn := by
  obtain ⟨after, selects, -, takesIn⟩ := Page.settle_takesIn
    (if page = tab.number then some tab.page else none) outcome.session c outcome.result
  rw [settleCall_session, settling, takesIn.session]
  exact Session.isSignedIn_of_selectsAtMost selects

/-- Header and footer look at the session where the path changes. -/
theorem goto_chrome (location : Location) :
    (tab.goto location).chrome = if location.path = tab.location.path then tab.chrome
      else Chrome.look tab.session location.path := by
  unfold goto
  split
  · rename_i here
    rw [here, if_pos rfl]
  · dsimp only
    split <;> rfl

theorem goto_expired (location : Location) : (tab.goto location).expired = tab.expired := by
  rcases tab.goto_cases location with same | ⟨_, _, same⟩ | ⟨_, same⟩ <;> rw [same]

theorem mem_goto_due {location : Location} {due : Due} :
    (due ∈ tab.due → due ∈ (tab.goto location).due) ∧
      (due ∈ (tab.goto location).due → due ∈ tab.due ∨ due = .mount (tab.number + 1)) := by
  rcases tab.goto_cases location with same | ⟨_, _, same⟩ | ⟨_, same⟩ <;> rw [same]
  · exact ⟨id, .inl⟩
  · exact ⟨id, .inl⟩
  · exact ⟨List.mem_append_left _, fun mem =>
      (List.mem_append.mp mem).imp_right List.mem_singleton.mp⟩

end Fields

section Framed

variable {tab after : Tab} {due : Due} {rest : List Due}

theorem Framed.dropFirst (framed : tab.Framed) (first : tab.due = due :: rest) :
    Framed { tab with due := rest } ∧ ∀ page d, .call page (.signIn d) ∉ rest := by
  have quiet : ∀ page d, .call page (.signIn d) ∉ rest := by
    intro page d mem
    have only := (framed.alone page d (first ▸ List.mem_cons_of_mem _ mem)).1
    rw [first] at only
    rw [(List.cons.inj only).2] at mem
    cases mem
  exact ⟨⟨framed.placed, framed.rooted, framed.away, fun page d mem => absurd mem (quiet page d)⟩,
    quiet⟩

theorem Framed.follow (framed : tab.Framed) (quiet : ∀ page d, .call page (.signIn d) ∉ tab.due)
    (path : String) : (tab.follow path).Framed where
  placed := goto_placed framed.placed _
  rooted := by
    rw [Tab.follow, goto_location]
    exact Location.follow_path_ne_empty framed.rooted path
  away := by
    rw [Tab.follow, goto_chrome, goto_location]
    split
    · rename_i same
      rw [same]
      exact framed.away
    · simp [Chrome.look, showsChrome]
  alone page d mem := by
    rcases (mem_goto_due tab).2 mem with old | new
    · exact absurd old (quiet page d)
    · cases new

/-- Header and footer are gone when the sign-in page is reached. -/
theorem follow_signIn_hidden
    (away : tab.chrome.visible = true → tab.location.path ≠ signInPath) :
    (tab.follow signInPath).chrome.visible = false := by
  rw [Tab.follow, goto_chrome, follow_signInPath]
  split
  · rename_i here
    exact Bool.eq_false_iff.mpr fun shown => away shown here.symm
  · rw [Chrome.look, showsChrome, show ("/" != signInPath) = false from rfl, Bool.and_false]

/-- On the sign-in page there are no header and no footer. -/
theorem Framed.hidden_of_signIn (framed : tab.Framed) (home : tab.page.kind = .signIn) :
    tab.chrome.visible = false := by
  refine Bool.eq_false_iff.mpr fun shown => framed.away shown ?_
  exact Place.eq_root_of_ofPath (Place.kind_eq_signIn_iff.mp (framed.placed.symm.trans home))
    framed.rooted

end Framed

section Chromed

variable {late : String → Prop} {tab after : Tab} {due : Due} {rest : List Due}

theorem Parts.mono (parts : tab.Parts due) (expired : tab.expired = true → after.expired = true) :
    after.Parts due := by
  cases due with
  | expiry => exact expired parts
  | signedOut => trivial
  | _ => exact parts

/-- Work that goes to the sign-in page stays due. -/
theorem parting_mono (grows : tab.due ⊆ after.due)
    (expired : tab.expired = true → after.expired = true)
    (parting : ∃ due ∈ tab.due, tab.Parts due) : ∃ due ∈ after.due, after.Parts due := by
  obtain ⟨due, mem, parts⟩ := parting
  exact ⟨due, grows mem, parts.mono expired⟩

theorem takeTurn_parting {t : Turn Page Page.Call} :
    (∃ due ∈ tab.due, tab.Parts due) →
      ∃ due ∈ (tab.takeTurn t).due, (tab.takeTurn t).Parts due := by
  refine parting_mono ?_ fun raised => (takeTurn_expired ..).trans raised
  rw [takeTurn_due]
  exact List.subset_append_left _ _

/-- What came of a call that ended the session leaves work that goes to the sign-in page. -/
theorem settleCall_parting (tab : Tab) (page : Nat) (c : Page.Call) {outcome : Outcome c.Answer}
    (ended : outcome.ended = true) :
    ∃ due ∈ (tab.settleCall page c outcome).due, (tab.settleCall page c outcome).Parts due := by
  refine ⟨.expiry, ?_, ?_⟩
  · rw [settleCall_due, expiryOf, if_pos ended]
    simp
  · exact (settleCall_expired ..).trans (by rw [ended, Bool.true_or])

/-- What leaves place and work as they are and signs nobody out. -/
theorem Chromed.idle (chromed : Chromed late tab) (page : after.page.kind = tab.page.kind)
    (location : after.location = tab.location) (chrome : after.chrome = tab.chrome)
    (session : after.session.isSignedIn = tab.session.isSignedIn)
    (expired : after.expired = tab.expired) (due : after.due = tab.due) : Chromed late after where
  placed := by
    rw [Placed, page, location]
    exact chromed.placed
  rooted := location ▸ chromed.rooted
  away := by
    rw [chrome, location]
    exact chromed.away
  alone := by
    rw [due, chrome]
    exact chromed.alone
  kept := by
    rw [chrome, session, location]
    intro shown
    exact (chromed.kept shown).imp_right (.imp_left
      (parting_mono (due ▸ List.Subset.refl _) fun raised => expired.trans raised))

theorem Chromed.dropFirst (chromed : Chromed late tab) (first : tab.due = due :: rest)
    (other : ¬ tab.Parts due) : Chromed late { tab with due := rest } where
  toFramed := (chromed.toFramed.dropFirst first).1
  kept shown := by
    refine (chromed.kept shown).imp_right (.imp_left fun ⟨parting, mem, parts⟩ => ?_)
    rcases List.mem_cons.mp (first ▸ mem) with rfl | mem
    · exact absurd parts other
    · exact ⟨parting, mem, parts.mono id⟩

theorem Chromed.follow (chromed : Chromed late tab)
    (quiet : ∀ page d, .call page (.signIn d) ∉ tab.due) (path : String) :
    Chromed late (tab.follow path) where
  toFramed := chromed.toFramed.follow quiet path
  kept := by
    rw [Tab.follow, goto_chrome, goto_session, goto_location]
    split
    · rename_i same
      intro shown
      rw [same]
      exact (chromed.kept shown).imp_right (.imp_left
        (parting_mono (fun _ => (mem_goto_due tab).1) fun raised => (goto_expired ..).trans raised))
    · intro shown
      simp only [Chrome.look, showsChrome, Bool.and_eq_true] at shown
      exact .inl shown.1

/-- The sign-in page is reached, whoever is signed in. -/
theorem Framed.home (framed : tab.Framed) (quiet : ∀ page d, .call page (.signIn d) ∉ tab.due) :
    Chromed late (tab.follow signInPath) where
  toFramed := framed.follow quiet signInPath
  kept shown :=
    absurd ((follow_signIn_hidden framed.away).symm.trans shown) Bool.false_ne_true

/-- What came of a call leaves an operator signed in or ends the session, if no token came late. -/
theorem Chromed.settleCall (chromed : Chromed late tab)
    (quiet : ∀ page d, .call page (.signIn d) ∉ tab.due) (page : Nat) (c : Page.Call)
    {outcome : Outcome c.Answer}
    (stays : tab.chrome.visible = true → tab.session.isSignedIn = true →
      outcome.ended = true ∨ outcome.session.isSignedIn = true ∨ late tab.location.path) :
    Chromed late (tab.settleCall page c outcome) where
  placed := settleCall_placed chromed.placed page c outcome
  rooted := by
    rw [settleCall_location]
    exact chromed.rooted
  away := by
    rw [settleCall_chrome, settleCall_location]
    exact chromed.away
  alone other d mem := by
    rcases mem_settleCall_due mem with old | ends | ⟨c, made⟩ | ⟨path, made⟩
    · exact absurd old (quiet other d)
    · cases ends
    · cases made
      rw [settleCall_due] at mem
      rcases List.mem_append.mp mem with before | called
      · rcases List.mem_append.mp before with old | ends
        · exact absurd old (quiet page d)
        · cases mem_expiryOf ends
      · obtain ⟨command, made, same⟩ := List.mem_filterMap.mp called
        cases command with
        | call d => cases same; exact absurd made Page.call_settle_ne_signIn
        | toast kind text | goto path => cases same
    · cases made
  kept := by
    rw [settleCall_chrome, settleCall_isSignedIn, settleCall_location]
    intro shown
    rcases chromed.kept shown with signedIn | parting | there
    · rcases stays shown signedIn with ended | signedIn | there
      · exact .inr (.inl (settleCall_parting tab page c ended))
      · exact .inl signedIn
      · exact .inr (.inr there)
    · refine .inr (.inl (parting_mono ?_ (fun raised => ?_) parting))
      · rw [settleCall_due, List.append_assoc]
        exact List.subset_append_left _ _
      · rw [settleCall_expired, raised, Bool.or_true]
    · exact .inr (.inr there)

/-- A call that is made: only on the sign-in page does it ask for a token. -/
theorem Chromed.send (chromed : Chromed late tab)
    (quiet : ∀ page d, .call page (.signIn d) ∉ tab.due) (page : Nat) (c : Page.Call)
    (own : ∀ d, c = .signIn d → tab.chrome.visible = false) :
    Chromed late (tab.send page c) := by
  rcases send_cases tab page c with
    ⟨-, sent⟩ | ⟨request, -, ⟨r, server, -, sent⟩ | ⟨server, -, sent⟩⟩
  · rw [sent]
    exact chromed.settleCall quiet page c fun _ signedIn =>
      (fail_signedIn signedIn _).imp_right .inl
  · rw [sent]
    have waiting : Chromed late { tab with server, sent := tab.sent ++ [request] } :=
      chromed.idle rfl rfl rfl rfl rfl rfl
    refine waiting.settleCall quiet page c fun shown signedIn => ?_
    refine (settle_signedIn c.operation signedIn r.outcome).imp_right (.imp_right ?_)
    rintro ⟨a, -, empty⟩
    by_cases asks : c.operation.IsSignIn
    · obtain ⟨d, rfl⟩ := Page.Call.isSignIn asks
      exact absurd ((own d rfl).symm.trans shown) Bool.false_ne_true
    · rw [handsOut_of_not_isSignIn asks] at empty
      cases empty
  · rw [sent]
    exact chromed.idle rfl rfl rfl rfl rfl rfl

theorem Chromed.mounts (chromed : Chromed late tab)
    (quiet : ∀ page d, .call page (.signIn d) ∉ tab.due) :
    Chromed late (tab.takeTurn (tab.page.mounted tab.session)) where
  placed := takeTurn_placed chromed.placed (Page.kind_mounted ..)
  rooted := by
    rw [takeTurn_location]
    exact chromed.rooted
  away := by
    rw [takeTurn_chrome, takeTurn_location]
    exact chromed.away
  alone page d mem := by
    rw [takeTurn_due] at mem
    rcases List.mem_append.mp mem with old | called
    · exact absurd old (quiet page d)
    · obtain ⟨command, made, same⟩ := List.mem_filterMap.mp called
      cases command with
      | call d => cases same; exact absurd made Page.call_mounted_ne_signIn
      | toast kind text | goto path => cases same
  kept := by
    rw [takeTurn_chrome, takeTurn_session, Page.mounted_session, takeTurn_location]
    intro shown
    exact (chromed.kept shown).imp_right (.imp_left takeTurn_parting)

theorem Chromed.work (chromed : Chromed late tab) (first : tab.due = due :: rest) :
    Chromed late ({ tab with due := rest }.work due) := by
  obtain ⟨framed, quiet⟩ := chromed.toFramed.dropFirst first
  cases due with
  | mount page =>
    have left := chromed.dropFirst first id
    simp only [Tab.work]
    split
    · exact left.mounts quiet
    · exact left
  | call page c =>
    refine (chromed.dropFirst first id).send quiet page c ?_
    rintro d rfl
    exact (chromed.alone page d (first ▸ List.mem_cons_self)).2
  | goto page path =>
    have left := chromed.dropFirst first id
    simp only [Tab.work]
    split
    · exact left.follow quiet path
    · exact left
  | signedOut => exact framed.home quiet
  | expiry =>
    simp only [Tab.work]
    split
    · have seen : Framed { tab with due := rest, expired := false } :=
        ⟨framed.placed, framed.rooted, framed.away, framed.alone⟩
      exact seen.home quiet
    · rename_i seen
      exact chromed.dropFirst first seen

theorem Chromed.run (chromed : Chromed late tab) : Chromed late tab.run := by
  have worked : Chromed late tab → Chromed late (tab.runFor workLimit) :=
    tab.runFor_carries (fun before after => Chromed late before → Chromed late after)
      (fun _ => id) (fun first second => second ∘ first)
      (fun _ _ _ first chromed => chromed.work first) workLimit
  exact (worked chromed).idle rfl rfl rfl rfl rfl rfl

end Chromed


/-! ## In all runs -/

/-- The reply hands out an empty token to a sign-in page that has been left. -/
def EmptiesLate (tab : Tab) (r : Reply) (nth : Nat) : Prop :=
  ∃ page d token, tab.flights[nth]? = some ⟨page, .signIn d⟩ ∧ page ≠ tab.number ∧
    (d.operation.settle tab.session r.outcome).result = .ok token ∧ token.access = ""

/-- In the course of the steps a reply hands out an empty token late, on this path. -/
def EmptiedOn (start : Tab) (steps : List Step) (path : String) : Prop :=
  ∃ before r nth later, steps = before ++ .reply r nth :: later ∧
    (start.after before).EmptiesLate r nth ∧ (start.after before).location.path = path

/-- Header and footer tell whether an operator is signed in. -/
structure ChromeFollows (start : Tab) (steps : List Step) (tab : Tab) : Prop where
  /-- All that was due has been done. -/
  rests : tab.due = []
  /-- They are shown on other pages than the sign-in page only, and with a token in the session,
  unless an empty one came late. -/
  shown : tab.header ≠ [] ∨ tab.footer ≠ [] → tab.location.path ≠ signInPath ∧
    ((∃ token, token ≠ "" ∧ tab.session.get? Session.tokenKey = some token) ∨
      start.EmptiedOn steps tab.location.path)
  /-- An empty token that comes late changes neither of them. -/
  stays : ∀ r nth, tab.EmptiesLate r nth →
    (tab.step (.reply r nth)).1.header = tab.header ∧
      (tab.step (.reply r nth)).1.footer = tab.footer ∧
      (tab.step (.reply r nth)).1.session.isSignedIn = false

section Steps

variable {late : String → Prop} {tab : Tab}

/-- When nothing is due nobody is about to ask for a token. -/
theorem quiet_of_rests (rests : tab.due = []) : ∀ page d, .call page (.signIn d) ∉ tab.due := by
  intro page d mem
  rw [rests] at mem
  cases mem

theorem Chromed.visit (chromed : Chromed late tab) (rests : tab.due = []) (path : String) :
    Chromed late (tab.visit path) :=
  (chromed.follow (quiet_of_rests rests) path).run

theorem Chromed.acts (chromed : Chromed late tab) (rests : tab.due = []) (a : Page.Act)
    (entry : Entry) : Chromed late (tab.takeTurn (tab.page.handle tab.session a entry)) where
  placed := takeTurn_placed chromed.placed (Page.kind_handle ..)
  rooted := by
    rw [takeTurn_location]
    exact chromed.rooted
  away := by
    rw [takeTurn_chrome, takeTurn_location]
    exact chromed.away
  alone page d mem := by
    rw [takeTurn_due, rests, List.nil_append] at mem ⊢
    obtain ⟨command, made, same⟩ := List.mem_filterMap.mp mem
    cases command with
    | toast kind text | goto path => cases same
    | call c =>
      cases same
      obtain ⟨q, repeats⟩ := Page.repeats_of_call made
      have home : tab.page.kind = .signIn := (Page.call_kind_handle made).symm
      rw [repeats.makes, takeTurn_chrome]
      exact ⟨rfl, chromed.toFramed.hidden_of_signIn home⟩
  kept := by
    have same := Session.isSignedIn_of_selectsAtMost
      (Page.handle_session tab.page tab.session a entry)
    rw [takeTurn_chrome, takeTurn_session, same, takeTurn_location]
    intro shown
    exact (chromed.kept shown).imp_right (.imp_left takeTurn_parting)

theorem Chromed.act (chromed : Chromed late tab) (rests : tab.due = []) (a : Act) (entry : Entry) :
    Chromed late (tab.act a entry) := by
  cases a with
  | page a => exact (chromed.acts rests a entry).run
  | dismiss id => exact chromed.idle rfl rfl rfl rfl rfl rfl
  | signOut =>
    refine Chromed.run ⟨⟨chromed.placed, chromed.rooted, chromed.away, fun page d mem => ?_⟩,
      fun _ => .inr (.inl ⟨.signedOut, ?_, trivial⟩)⟩
    · rw [push, rests] at mem
      cases List.mem_singleton.mp mem
    · exact List.mem_append_right _ (List.mem_singleton.mpr rfl)

theorem chromed_upheld : Upheld fun tab => Chromed late tab ∧ tab.due = [] where
  acts _ holds a entry := ⟨holds.1.act holds.2 a entry, act_due holds.2 a entry⟩
  visits _ holds path := ⟨holds.1.visit holds.2 path, visit_due holds.2 path⟩
  types _ holds _ _ := ⟨holds.1.idle rfl rfl rfl rfl rfl rfl, holds.2⟩
  ticks _ holds _ _ := ⟨holds.1.idle rfl rfl rfl rfl rfl rfl, holds.2⟩

/-- A reply signs nobody out without leading away, unless it hands out an empty token late. -/
theorem Chromed.answers (chromed : Chromed late tab) (sound : tab.Sound) (rests : tab.due = [])
    {nth : Nat} {flight : Flight} (held : tab.flights[nth]? = some flight) (r : Reply)
    (emptied : tab.EmptiesLate r nth → late tab.location.path) :
    Chromed late
      ({ tab with flights := tab.flights.eraseIdx nth }.reply flight.page flight.call r) := by
  obtain ⟨page, c⟩ := flight
  have waiting : Chromed late { tab with flights := tab.flights.eraseIdx nth } :=
    chromed.idle rfl rfl rfl rfl rfl rfl
  refine waiting.settleCall (quiet_of_rests rests) page c fun shown signedIn => ?_
  refine (settle_signedIn c.operation signedIn r.outcome).imp_right (.imp_right ?_)
  rintro ⟨a, taken, empty⟩
  by_cases asks : c.operation.IsSignIn
  · obtain ⟨d, rfl⟩ := Page.Call.isSignIn asks
    refine emptied ⟨page, d, a, held, ?_, taken, Option.some.inj empty⟩
    rintro rfl
    have home : Kind.signIn = tab.page.kind :=
      sound.own _ (List.mem_append_right _ (List.mem_of_getElem? held)) rfl
    exact absurd ((chromed.toFramed.hidden_of_signIn home.symm).symm.trans shown) Bool.false_ne_true
  · rw [handsOut_of_not_isSignIn asks] at empty
    cases empty

theorem Chromed.step (chromed : Chromed late tab) (sound : tab.Sound) (rests : tab.due = [])
    (s : Step) (own : ∀ key value, s = .keep key value → key ≠ Session.tokenKey)
    (emptied : ∀ r nth, s = .reply r nth → tab.EmptiesLate r nth → late tab.location.path) :
    Chromed late (tab.step s).1 := by
  cases s with
  | visit path => exact chromed.visit rests path
  | reply r nth =>
    simp only [Tab.step]
    split
    · rename_i answered
      obtain ⟨flight, held, rfl⟩ := Option.map_eq_some_iff.mp answered
      exact (chromed.answers sound rests held r (emptied r nth rfl)).run
    · exact chromed
  | wait ms => exact chromed.idle rfl rfl rfl rfl rfl rfl
  | keep key value =>
    have other : Session.tokenKey ≠ key := (own key value rfl).symm
    cases value with
    | none =>
      refine chromed.idle rfl rfl rfl (Session.isSignedIn_congr ?_) rfl rfl
      exact (Session.get?_remove ..).trans (if_neg other)
    | some value =>
      refine chromed.idle rfl rfl rfl (Session.isSignedIn_congr ?_) rfl rfl
      exact (Session.get?_set ..).trans (if_neg other)
  | _ => exact (chromed_upheld.step ⟨chromed, rests⟩ rfl).1

theorem launched_chromed (session : Session) (server : Server) (path : String) :
    Chromed late (launched session server path) where
  placed := launched_placed session server path
  rooted := normalPath_ne_empty _
  away := by simp [launched, Chrome.look, showsChrome]
  alone page d mem := by cases List.mem_singleton.mp mem
  kept shown := by
    simp only [launched, Chrome.look, showsChrome, Bool.and_eq_true] at shown
    exact .inl shown.1

theorem Chromed.later {other : String → Prop} (chromed : Chromed late tab)
    (more : ∀ path, late path → other path) : Chromed other tab :=
  ⟨chromed.toFramed, fun shown => (chromed.kept shown).imp_right (.imp_right (more _))⟩

/-- A step more on the way. -/
theorem EmptiedOn.concat {start : Tab} {steps : List Step} {path : String}
    (emptied : start.EmptiedOn steps path) (s : Step) : start.EmptiedOn (steps ++ [s]) path := by
  obtain ⟨before, r, nth, later, rfl, empties, there⟩ := emptied
  exact ⟨before, r, nth, later ++ [s], by simp, empties, there⟩

theorem chromed_after (session : Session) (server : Server) (path : String) (steps : List Step)
    (own : ∀ key value, .keep key value ∈ steps → key ≠ Session.tokenKey) :
    Chromed ((opened session server path).EmptiedOn steps)
      ((opened session server path).after steps) := by
  obtain ⟨back, rfl⟩ : ∃ back : List Step, steps = back.reverse := ⟨steps.reverse, by simp⟩
  induction back with
  | nil => exact opened_eq session server path ▸ (launched_chromed session server path).run
  | cons s back ih =>
    rw [List.reverse_cons] at own ⊢
    rw [after_concat]
    have chromed := ih fun key value mem => own key value (List.mem_append_left _ mem)
    have sound := Leads.sound (leads_after session server path back.reverse)
      (launched_sound session server path)
    refine (chromed.later fun _ emptied => emptied.concat s).step sound
      (after_due session server path _) s (fun key value same => own key value (by simp [same])) ?_
    rintro r nth rfl empties
    exact ⟨back.reverse, r, nth, [], rfl, empties, rfl⟩

/-- An empty token that comes late is kept, and that is all. -/
theorem EmptiesLate.stays {r : Reply} {nth : Nat} (empties : tab.EmptiesLate r nth)
    (rests : tab.due = []) :
    (tab.step (.reply r nth)).1.chrome = tab.chrome ∧
      (tab.step (.reply r nth)).1.session.isSignedIn = false := by
  obtain ⟨page, d, token, held, left, taken, empty⟩ := empties
  let waiting : Tab := { tab with flights := tab.flights.eraseIdx nth }
  let outcome : Outcome Token := ⟨.ok token, tab.session.set Session.tokenKey "", false⟩
  let after := waiting.settleCall page (.signIn d) outcome
  have settled : d.operation.settle tab.session r.outcome = outcome := by
    rcases settle_cases d.operation tab.session r.outcome with ⟨e, same⟩ | ⟨a, same⟩
    · rw [same, Operation.fail_result] at taken
      cases taken
    · rw [same] at taken
      cases taken
      rw [same]
      show (⟨.ok token, tab.session.set Session.tokenKey token.access, false⟩ : Outcome Token) = _
      rw [empty]
  have replied : waiting.reply page (.signIn d) r = after :=
    congrArg (waiting.settleCall page (.signIn d)) settled
  -- The page is gone: a toast is all that follows.
  have due : after.due = [] := by
    have gone : waiting.settling page (.signIn d) outcome =
        Page.settle none outcome.session (.signIn d) outcome.result := by
      rw [settling, if_neg left]
    rw [settleCall_due, gone]
    exact (congrArg (· ++ [] ++ []) rests :)
  have stepped : (tab.step (.reply r nth)).1 = after.sweep := by
    have answered : tab.answer? nth r = some after.run := by
      rw [answer?, held, ← replied]
      rfl
    rw [Tab.step, answered, Tab.run, runFor_of_rests after due]
  rw [stepped]
  refine ⟨settleCall_chrome waiting page (.signIn d) outcome, ?_⟩
  exact (settleCall_isSignedIn waiting page (.signIn d) outcome).trans
    tab.session.not_isSignedIn_set_empty

theorem shown_iff : tab.header ≠ [] ∨ tab.footer ≠ [] ↔ tab.chrome.visible = true := by
  unfold Tab.header Tab.footer Chrome.header Chrome.footer
  cases tab.chrome.visible <;> simp

end Steps

/-- In all runs in which no other window writes a token, header and footer are shown only to an
operator who is signed in, or where an empty token came late; and there they do stay. -/
theorem chrome_follows_session (session : Session) (server : Server) (path : String)
    (steps : List Step) (own : ∀ key value, .keep key value ∈ steps → key ≠ Session.tokenKey) :
    ChromeFollows (opened session server path) steps ((opened session server path).after steps) := by
  have chromed := chromed_after session server path steps own
  have rests := after_due session server path steps
  refine ⟨rests, fun shown => ?_, fun r nth empties => ?_⟩
  · have visible := shown_iff.mp shown
    refine ⟨chromed.away visible, ?_⟩
    rcases chromed.kept visible with signedIn | ⟨due, mem, -⟩ | emptied
    · exact .inl (Session.isSignedIn_iff.mp signedIn)
    · rw [rests] at mem
      cases mem
    · exact .inr emptied
  · obtain ⟨chrome, signedOut⟩ := empties.stays rests
    refine ⟨?_, ?_, signedOut⟩
    · rw [Tab.header, Tab.header, chrome]
    · rw [Tab.footer, Tab.footer, chrome]

/-- An operator who signs in. -/
def signsIn : List Step :=
  [.input { look := { placeholder := some "you@example.com" } } "a@b.c",
    .input { look := { placeholder := some "Password" } } "secret",
    .click { look := { tag := some "button", text := some "Sign In" } }]

/-- The operator leaves the page while the sign-in waits, is sent back to it and signs in again. -/
def signsInTwice : List Step :=
  signsIn ++ .visit "/grants" :: signsIn

/-- A server that is late with the first answer and then hands out a token. -/
def belatedServer : Server where
  replies := [none,
    some (.answer ⟨200, "\x7b\"access_token\":\"t\",\"token_type\":\"bearer\"\x7d"⟩)]

/-- The operator is signed in, with header and footer. -/
theorem chrome_follows_session_signsInTwice :
    (∀ key value, .keep key value ∈ signsInTwice → key ≠ Session.tokenKey) ∧
      ((opened .empty belatedServer "/").after signsInTwice).header ≠ [] ∧
      ChromeFollows (opened .empty belatedServer "/") signsInTwice
        ((opened .empty belatedServer "/").after signsInTwice) := by
  have own : ∀ key value, .keep key value ∈ signsInTwice → key ≠ Session.tokenKey := by
    simp [signsInTwice, signsIn]
  have visible : ((opened .empty belatedServer "/").after signsInTwice).chrome.visible = true := by
    decide +kernel
  refine ⟨own, ?_, chrome_follows_session .empty belatedServer "/" signsInTwice own⟩
  simp [Tab.header, Chrome.header, visible]

/-- The answer to the first of two sign-ins comes late and hands out an empty token. -/
theorem chrome_outlives_session :
    ¬ ∀ (session : Session) (server : Server) (path : String) (steps : List Step),
      (∀ key value, .keep key value ∉ steps) →
        let tab := (opened session server path).after steps
        tab.header ≠ [] ∨ tab.footer ≠ [] →
          tab.location.path ≠ signInPath ∧
            ∃ token, token ≠ "" ∧ tab.session.get? Session.tokenKey = some token := by
  intro all
  let late : Reply :=
    .answer ⟨200, "\x7b\"access_token\":\"\",\"token_type\":\"bearer\"\x7d"⟩
  let steps := signsInTwice ++ [.reply late 0]
  have own : ∀ key value, .keep key value ∉ steps := by simp [steps, signsInTwice, signsIn]
  have visible : ((opened .empty belatedServer "/").after steps).chrome.visible = true := by
    decide +kernel
  have empty : ((opened .empty belatedServer "/").after steps).session.get? Session.tokenKey =
      some "" := by
    decide +kernel
  have claimed := all .empty belatedServer "/" steps own
  generalize (opened .empty belatedServer "/").after steps = tab at claimed visible empty
  obtain ⟨-, token, nonempty, kept⟩ := claimed (shown_iff.mpr visible)
  rw [empty] at kept
  exact nonempty (Option.some.inj kept).symm

end Tab

end GrantConsole.Console
