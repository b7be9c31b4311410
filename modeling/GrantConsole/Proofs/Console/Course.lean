import GrantConsole.Proofs.Console.Existing

/-!
# The course of a page

A page that has been mounted is never mounted again. All that can happen to it from then on is that
it takes in an act that it offers, or what came of one of its calls; every other move leaves its
state as it was, but for the address, and makes no calls for it. A call waits for its reply only
once its request has been sent.
-/

namespace GrantConsole.Console.Tab

open GrantConsole.Api GrantConsole.Screen GrantConsole.Url

variable {tab after : Tab} {page : Nat} {due : Due} {rest : List Due}

/-- The page has been mounted, or left before that. -/
structure Mounted (page : Nat) (tab : Tab) : Prop where
  past : page ≤ tab.number
  done : .mount page ∉ tab.due

/-- The same page is at hand in the same state, and no call is added. -/
structure Lessens (tab after : Tab) : Prop where
  number : after.number = tab.number
  page : after.page = tab.page
  calls : ∀ f ∈ after.calls, f ∈ tab.calls

/-- Nothing happens to a page, but that its address may be moved or that it is left. -/
structure Passes (page : Nat) (tab after : Tab) : Prop where
  calls : ∀ f ∈ after.calls, f.page = page → f ∈ tab.calls
  state : after.number = page → tab.number = page ∧
    (after.page = tab.page ∨ ∃ place, after.page = tab.page.moved place)

/-- What can happen to a page that has been mounted without an act on it. -/
inductive Undergoes (page : Nat) (tab after : Tab) : Prop
  | passes (passes : Passes page tab after)
  | settles {c : Page.Call} {outcome : Outcome c.Answer}
      (settles : tab.Settles page c outcome after)

/-- What a move is to a page that has been mounted. -/
inductive Meets (page : Nat) (tab after : Tab) : Prop
  | passes (passes : Passes page tab after)
  | acts (here : tab.number = page) {a : Page.Act}
      (offered : a.submits = true → ∃ c h, tab.page.Offers c h a) (entry : Entry)
      (same : after = tab.takeTurn (tab.page.handle tab.session a entry))
  | settles {c : Page.Call} {outcome : Outcome c.Answer}
      (settles : tab.Settles page c outcome after)

/-! ## Mounts -/

section Mounted

theorem Mounted.of_due (mounted : Mounted page tab) (number : after.number = tab.number)
    (due : ∀ d ∈ after.due, d = .mount page → d ∈ tab.due) : Mounted page after where
  past := number ▸ mounted.past
  done mem := mounted.done (due _ mem rfl)

theorem Mounted.dropFirst (mounted : Mounted page tab) (first : tab.due = due :: rest) :
    Mounted page { tab with due := rest } :=
  mounted.of_due rfl fun _ mem _ => first ▸ List.mem_cons_of_mem due mem

theorem takeTurn_mounted (mounted : Mounted page tab) (t : Turn Page Page.Call) :
    Mounted page (tab.takeTurn t) := by
  refine mounted.of_due (takeTurn_number tab t) fun d mem same => ?_
  rw [takeTurn_due] at mem
  refine (List.mem_append.mp mem).resolve_right fun made => ?_
  rcases mem_dueOf made with ⟨c, rfl⟩ | ⟨path, rfl⟩ <;> cases same

theorem settleCall_mounted (mounted : Mounted page tab) (other : Nat) (c : Page.Call)
    (outcome : Outcome c.Answer) : Mounted page (tab.settleCall other c outcome) := by
  refine mounted.of_due (tab.settleCall_number other c outcome) fun d mem same => ?_
  rcases mem_settleCall_due mem with old | rfl | ⟨c, rfl⟩ | ⟨path, rfl⟩
  · exact old
  all_goals cases same

theorem send_mounted (mounted : Mounted page tab) (other : Nat) (c : Page.Call) :
    Mounted page (tab.send other c) := by
  rcases tab.send_cases other c with
    ⟨-, sent⟩ | ⟨request, -, ⟨r, server, -, sent⟩ | ⟨server, -, sent⟩⟩
  · rw [sent]
    exact settleCall_mounted mounted other c _
  · rw [sent]
    exact @settleCall_mounted { tab with server, sent := tab.sent ++ [request] } page
      ⟨mounted.past, mounted.done⟩ other c _
  · rw [sent]
    exact ⟨mounted.past, mounted.done⟩

theorem goto_mounted (mounted : Mounted page tab) (location : Location) :
    Mounted page (tab.goto location) := by
  rcases tab.goto_cases location with stays | ⟨chrome, place, moves⟩ | ⟨chrome, opens⟩
  · rw [stays]
    exact mounted
  · rw [moves]
    exact ⟨mounted.past, mounted.done⟩
  · rw [opens]
    refine ⟨Nat.le_succ_of_le mounted.past, fun mem => ?_⟩
    rcases List.mem_append.mp mem with old | new
    · exact mounted.done old
    · cases List.mem_singleton.mp new
      exact absurd mounted.past (Nat.not_succ_le_self _)

theorem Moves.mounted (moves : Moves tab after) (mounted : Mounted page tab) :
    Mounted page after := by
  cases moves with
  | works next =>
    obtain ⟨due, rest, first, works⟩ := tab.works_of_next next
    have left := mounted.dropFirst first
    cases works with
    | mounts => exact takeTurn_mounted left _
    | calls other c => exact send_mounted left other c
    | goes path => exact goto_mounted left _
    | signsOut => exact goto_mounted left _
    | expires =>
      exact @goto_mounted { tab with due := rest, expired := false } page ⟨left.past, left.done⟩ _
    | left own elsewhere => exact left
    | seen => exact left
  | acts rests offered entry => exact takeTurn_mounted mounted _
  | signsOut rests =>
    refine mounted.of_due rfl fun d mem same => ?_
    exact (List.mem_append.mp mem).resolve_right fun new => by
      cases same.symm.trans (List.mem_singleton.mp new)
  | visits rests path => exact goto_mounted mounted _
  | @answers _ nth flight held r =>
    exact @settleCall_mounted { tab with flights := tab.flights.eraseIdx nth } page
      ⟨mounted.past, mounted.done⟩ flight.page flight.call _
  | dismisses id => exact ⟨mounted.past, mounted.done⟩
  | waits ms => exact ⟨mounted.past, mounted.done⟩
  | keeps key value => cases value <;> exact ⟨mounted.past, mounted.done⟩
  | dresses strays => exact ⟨mounted.past, mounted.done⟩

theorem Leads.mounted (leads : Leads tab after) (mounted : Mounted page tab) :
    Mounted page after := by
  induction leads with
  | refl => exact mounted
  | tail _ moves ih => exact moves.mounted ih

end Mounted

/-! ## What moves are to a page -/

section Meets

theorem Lessens.passes (less : Lessens tab after) : Passes page tab after where
  calls f mem _ := less.calls f mem
  state here := ⟨less.number.symm.trans here, .inl less.page⟩

theorem Lessens.passes_trans {between : Tab} (less : Lessens tab between)
    (passes : Passes page between after) : Passes page tab after where
  calls f mem own := less.calls f (passes.calls f mem own)
  state here := by
    obtain ⟨at_, same⟩ := passes.state here
    exact ⟨less.number.symm.trans at_, less.page ▸ same⟩

theorem lessens_dropFirst (first : tab.due = due :: rest) : Lessens tab { tab with due := rest } :=
  ⟨rfl, rfl, fun _ mem => mem_calls_of_rest first mem⟩

/-- Going to another place opens another page or moves the address of the page at hand. -/
theorem goto_passes (past : page ≤ tab.number) (location : Location) :
    Passes page tab (tab.goto location) where
  calls f mem _ := @goto_calls tab location ▸ mem
  state here := by
    rcases tab.goto_cases location with stays | ⟨chrome, place, moves⟩ | ⟨chrome, opens⟩
    · rw [stays] at here ⊢
      exact ⟨here, .inl rfl⟩
    · rw [moves] at here ⊢
      exact ⟨here, .inr ⟨place, rfl⟩⟩
    · rw [opens] at here
      exact absurd (here ▸ past) (Nat.not_succ_le_self _)

/-- Another page takes in what came of one of its calls. -/
theorem settleCall_passes {other : Nat} (different : other ≠ page) (c : Page.Call)
    (outcome : Outcome c.Answer) : Passes page tab (tab.settleCall other c outcome) where
  calls f mem own := (mem_calls_settleCall mem).resolve_right fun made =>
    different (made.1.symm.trans own)
  state here := by
    rw [settleCall_number] at here
    have elsewhere : other ≠ tab.number := fun at_ => different (at_.trans here)
    exact ⟨here, .inl (settleCall_aside elsewhere c outcome).same⟩

theorem mem_calls_waiting {c : Page.Call} {server : Server} {sent : List Request} {f : Flight}
    (mem : f ∈ calls { tab with server, sent, flights := tab.flights ++ [⟨page, c⟩] }) :
    f ∈ tab.calls ∨ f = ⟨page, c⟩ := by
  rcases mem_calls_iff.mp mem with due | waits
  · exact .inl (mem_calls_iff.mpr (.inl due))
  · exact (List.mem_append.mp waits).imp (fun old => mem_calls_iff.mpr (.inr old))
      List.mem_singleton.mp

/-- A call of another page is sent. -/
theorem send_passes {other : Nat} (different : other ≠ page) (c : Page.Call) :
    Passes page tab (tab.send other c) := by
  rcases tab.send_cases other c with
    ⟨-, sent⟩ | ⟨request, -, ⟨r, server, -, sent⟩ | ⟨server, -, sent⟩⟩
  · rw [sent]
    exact settleCall_passes different c _
  · rw [sent]
    have same : Lessens tab { tab with server, sent := tab.sent ++ [request] } :=
      ⟨rfl, rfl, fun _ mem => mem⟩
    exact same.passes_trans (settleCall_passes different c _)
  · rw [sent]
    refine ⟨fun f mem own => ?_, fun here => ⟨here, .inl rfl⟩⟩
    refine (mem_calls_waiting mem).resolve_right fun new => different ?_
    rw [new] at own
    exact own

/-- A call of the page is sent: it fails, is settled at once, or waits for its reply. -/
theorem send_undergoes {c : Page.Call} (first : tab.due = .call page c :: rest) :
    Undergoes page tab ({ tab with due := rest }.send page c) := by
  rcases send_cases { tab with due := rest } page c with
    ⟨unasked, -⟩ | ⟨request, asked, ⟨r, server, taken, -⟩ | ⟨server, -, sent⟩⟩
  · exact .settles (.unsent first unasked)
  · exact .settles (.atOnce first asked taken)
  · rw [sent]
    refine .passes (Lessens.passes ⟨rfl, rfl, fun f mem => ?_⟩)
    rcases @mem_calls_waiting { tab with due := rest } _ _ _ _ _ mem with old | rfl
    · exact mem_calls_of_rest first old
    · exact mem_calls_of_first first

theorem Works.undergoes (mounted : Mounted page tab) (first : tab.due = due :: rest)
    (works : Works { tab with due := rest } due after) : Undergoes page tab after := by
  have left := mounted.dropFirst first
  have less := lessens_dropFirst first
  cases works with
  | mounts =>
    have different : tab.number ≠ page := fun here =>
      mounted.done (here ▸ first ▸ List.mem_cons_self)
    refine .passes ⟨fun f mem own => ?_, fun here => ?_⟩
    · exact less.calls f ((mem_calls_takeTurn.mp mem).resolve_right fun made =>
        different (made.1.symm.trans own))
    · rw [takeTurn_number] at here
      exact absurd here different
  | calls other c =>
    by_cases own : other = page
    · subst own
      exact send_undergoes first
    · exact .passes (less.passes_trans (send_passes own c))
  | goes path => exact .passes (less.passes_trans (goto_passes left.past _))
  | signsOut => exact .passes (less.passes_trans (goto_passes left.past _))
  | expires =>
    have seen : Lessens tab { tab with due := rest, expired := false } :=
      ⟨rfl, rfl, less.calls⟩
    exact .passes (seen.passes_trans
      (@goto_passes { tab with due := rest, expired := false } page left.past _))
  | left own elsewhere => exact .passes less.passes
  | seen => exact .passes less.passes

/-- The reply to a call that has waited for it is taken in. -/
theorem answers_undergoes (rests : tab.due = []) {nth : Nat} {flight : Flight}
    (held : tab.flights[nth]? = some flight) (r : Reply) :
    Undergoes page tab
      ({ tab with flights := tab.flights.eraseIdx nth }.reply flight.page flight.call r) := by
  obtain ⟨maker, c⟩ := flight
  by_cases own : maker = page
  · subst own
    exact .settles (.answered rests held r)
  · have less : Lessens tab { tab with flights := tab.flights.eraseIdx nth } :=
      ⟨rfl, rfl, fun f mem => mem_calls_iff.mpr
        ((mem_calls_iff.mp mem).imp_right List.mem_of_mem_eraseIdx)⟩
    exact .passes (less.passes_trans (settleCall_passes own c _))

theorem Undergoes.meets (undergoes : Undergoes page tab after) : Meets page tab after := by
  cases undergoes with
  | passes passes => exact .passes passes
  | settles settles => exact .settles settles

theorem Moves.meets (moves : Moves tab after) (mounted : Mounted page tab) :
    Meets page tab after := by
  have same {after : Tab} (number : after.number = tab.number) (page_ : after.page = tab.page)
      (calls : after.calls = tab.calls) : Meets page tab after :=
    .passes (Lessens.passes ⟨number, page_, fun _ mem => calls ▸ mem⟩)
  cases moves with
  | works next =>
    obtain ⟨due, rest, first, works⟩ := tab.works_of_next next
    exact (works.undergoes mounted first).meets
  | acts rests offered entry =>
    by_cases here : tab.number = page
    · exact .acts here offered entry rfl
    · refine .passes ⟨fun f mem own => ?_, fun at_ => ?_⟩
      · exact (mem_calls_takeTurn.mp mem).resolve_right fun made => here (made.1.symm.trans own)
      · rw [takeTurn_number] at at_
        exact absurd at_ here
  | signsOut rests => exact same rfl rfl (by simp [calls, push, Due.flight?])
  | visits rests path => exact .passes (goto_passes mounted.past _)
  | answers rests held r => exact (answers_undergoes rests held r).meets
  | dismisses id => exact same rfl rfl rfl
  | waits ms => exact same rfl rfl rfl
  | keeps key value => cases value <;> exact same rfl rfl rfl
  | dresses strays => exact same rfl rfl rfl

end Meets

/-! ## Calls under way -/

/-- A call waits for its reply once its request has been sent. -/
theorem Moves.mem_flights (moves : Moves tab after) {f : Flight} (mem : f ∈ after.flights) :
    f ∈ tab.flights ∨ ∃ request, SendsOf f.page tab request after ∧
      f.call.operation.request? tab.session = some request := by
  cases moves with
  | works next =>
    obtain ⟨due, rest, first, works⟩ := tab.works_of_next next
    cases works with
    | mounts => exact .inl (takeTurn_flights { tab with due := rest } _ ▸ mem)
    | calls page c =>
      have sent := send_sent { tab with due := rest } page c
      rcases send_cases { tab with due := rest } page c with
        ⟨-, same⟩ | ⟨request, asked, ⟨r, server, -, same⟩ | ⟨server, -, same⟩⟩
      · rw [same, settleCall_flights] at mem
        exact .inl mem
      · rw [same, reply, settleCall_flights] at mem
        exact .inl mem
      · rw [asked] at sent
        rw [same] at mem
        rcases List.mem_append.mp mem with old | new
        · exact .inl old
        · cases List.mem_singleton.mp new
          exact .inr ⟨request, ⟨⟨c, rest, first⟩, next, sent⟩, asked⟩
    | goes path => exact .inl (@goto_flights { tab with due := rest } _ ▸ mem)
    | signsOut => exact .inl (@goto_flights { tab with due := rest } _ ▸ mem)
    | expires => exact .inl (@goto_flights { tab with due := rest, expired := false } _ ▸ mem)
    | left own elsewhere => exact .inl mem
    | seen => exact .inl mem
  | acts rests offered entry => exact .inl (takeTurn_flights tab _ ▸ mem)
  | signsOut rests => exact .inl mem
  | visits rests path => exact .inl (goto_flights tab _ ▸ mem)
  | answers rests held r =>
    rw [reply, settleCall_flights] at mem
    exact .inl (List.mem_of_mem_eraseIdx mem)
  | dismisses id => exact .inl mem
  | waits ms => exact .inl mem
  | keeps key value => cases value <;> exact .inl mem
  | dresses strays => exact .inl mem

end GrantConsole.Console.Tab
