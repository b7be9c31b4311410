import GrantConsole.Proofs.Console.Moves

/-!
# How pages arrive

Nothing is done for a page before it is mounted: as long as its mount is due, no other work belongs
to it and none of its calls waits for a reply. The page at hand is always the one that shows the
place at hand, and a rule editor has the address of that place. All three hold as the console is
opened, and every move keeps them.
-/

namespace GrantConsole.Console

open GrantConsole.Api GrantConsole.Screen GrantConsole.Url

namespace Tab

/-- The pages that what is due and what waits for its reply belong to. -/
def pages (tab : Tab) : List Nat :=
  tab.due.filterMap Due.page? ++ tab.flights.map Flight.page

/-- Nothing belongs to a page to come, and to one that is to be mounted nothing but its mount. -/
structure Timely (tab : Tab) : Prop where
  opened : ∀ page ∈ tab.pages, page ≤ tab.number
  alone : .mount tab.number ∈ tab.due → tab.pages.count tab.number = 1

/-- The page at hand shows the place at hand. -/
def Placed (tab : Tab) : Prop :=
  tab.page.kind = (Place.ofPath tab.location.path).kind

variable {tab after : Tab} {page : Nat}

/-- The work that a page makes due is to make a call or to go to another place. -/
theorem mem_dueOf {due : Due} {cs : List (Command Page.Call)}
    (mem : due ∈ cs.filterMap (dueOf page)) :
    (∃ c, due = .call page c) ∨ ∃ path, due = .goto page path := by
  obtain ⟨command, -, same⟩ := List.mem_filterMap.mp mem
  cases command with
  | toast kind text => cases same
  | call c => exact .inl ⟨c, (Option.some.inj same).symm⟩
  | goto path => exact .inr ⟨path, (Option.some.inj same).symm⟩

/-- The work that what came of a call makes due belongs to the page that made the call, or ends the
session. -/
theorem mem_settleCall_due {c : Page.Call} {outcome : Outcome c.Answer} {due : Due}
    (mem : due ∈ (tab.settleCall page c outcome).due) :
    due ∈ tab.due ∨ due = .expiry ∨ (∃ c, due = .call page c) ∨ ∃ path, due = .goto page path := by
  rw [settleCall_due] at mem
  rcases List.mem_append.mp mem with before | made
  · exact (List.mem_append.mp before).imp_right fun ended => .inl (mem_expiryOf ended)
  · exact .inr (.inr (mem_dueOf made))

section Timely

theorem pages_dueOf (cs : List (Command Page.Call)) :
    ∀ other ∈ (cs.filterMap (dueOf page)).filterMap Due.page?, other = page := by
  intro other mem
  obtain ⟨due, made, own⟩ := List.mem_filterMap.mp mem
  rcases mem_dueOf made with ⟨c, rfl⟩ | ⟨path, rfl⟩ <;> exact (Option.some.inj own).symm

/-- More work for one page, which has been mounted already. -/
theorem Timely.grows (timely : tab.Timely) (new : List Nat) (number : after.number = tab.number)
    (pages : after.pages.Perm (tab.pages ++ new)) (own : ∀ other ∈ new, other = page)
    (opened : page ≤ tab.number)
    (mounts : .mount tab.number ∈ after.due → .mount tab.number ∈ tab.due ∧ page ≠ tab.number) :
    after.Timely where
  opened other mem := by
    rw [number]
    rcases List.mem_append.mp (pages.mem_iff.mp mem) with old | made
    · exact timely.opened other old
    · exact own other made ▸ opened
  alone due := by
    rw [number] at due ⊢
    obtain ⟨was, different⟩ := mounts due
    have none : new.count tab.number = 0 :=
      List.count_eq_zero.mpr fun mem => different (own _ mem).symm
    rw [pages.count_eq, List.count_append, timely.alone was, none]

/-- Something is taken from what is due or from what waits for its reply. -/
theorem Timely.fewer (timely : tab.Timely) (number : after.number = tab.number)
    (pages : after.pages.Sublist tab.pages) (mounts : .mount tab.number ∈ after.due →
      .mount tab.number ∈ tab.due) : after.Timely where
  opened other mem := number ▸ timely.opened other (pages.subset mem)
  alone due := by
    rw [number] at due ⊢
    have left : tab.number ∈ after.pages :=
      List.mem_append_left _ (List.mem_filterMap.mpr ⟨_, due, rfl⟩)
    have some := List.count_pos_iff.mpr left
    have most := pages.count_le tab.number
    have alone := timely.alone (mounts due)
    omega

theorem Timely.rest {due : Due} {rest : List Due} (timely : tab.Timely)
    (first : tab.due = due :: rest) : Timely { tab with due := rest } := by
  refine timely.fewer rfl ?_ fun mem => first ▸ List.mem_cons_of_mem _ mem
  unfold pages
  rw [first]
  exact ((List.sublist_cons_self due rest).filterMap Due.page?).append_right _

theorem pages_of_first {due : Due} {rest : List Due} (first : tab.due = due :: rest)
    (own : due.page? = some page) : tab.pages = page :: pages { tab with due := rest } := by
  unfold pages
  rw [first, List.filterMap_cons_some own]
  rfl

/-- When a page is mounted, nothing else belongs to it. -/
theorem Timely.not_mem_rest {rest : List Due} (timely : tab.Timely)
    (first : tab.due = .mount tab.number :: rest) :
    tab.number ∉ pages { tab with due := rest } := by
  have alone := timely.alone (first ▸ List.mem_cons_self)
  rw [pages_of_first first rfl, List.count_cons_self] at alone
  exact List.count_eq_zero.mp (Nat.succ.inj alone)

/-- A page that is to be mounted has made no calls. -/
theorem Timely.no_calls (timely : tab.Timely) (mount : .mount tab.number ∈ tab.due) :
    ∀ f ∈ tab.calls, f.page ≠ tab.number := by
  obtain ⟨before, later, split⟩ := List.append_of_mem mount
  have pages : tab.pages.Perm (tab.number :: (before ++ later).filterMap Due.page? ++
      tab.flights.map Flight.page) := by
    unfold Tab.pages
    rw [split, List.filterMap_append, List.filterMap_append]
    exact List.perm_middle.append_right _
  have alone := timely.alone mount
  rw [pages.count_eq, List.cons_append, List.count_cons_self] at alone
  have others := List.count_eq_zero.mp (Nat.succ.inj alone)
  rintro f mem same
  refine others ?_
  rcases mem_calls_iff.mp mem with call | waits
  · refine List.mem_append_left _ (List.mem_filterMap.mpr
      ⟨.call f.page f.call, ?_, congrArg some same⟩)
    rw [split, List.mem_append, List.mem_cons] at call
    exact List.mem_append.mpr (call.imp_right fun here => here.resolve_left (by simp))
  · exact List.mem_append_right _ (List.mem_map.mpr ⟨f, waits, same⟩)

/-- Work that is done before a page is mounted belongs to another page. -/
theorem Timely.first {due : Due} {rest : List Due} (timely : tab.Timely)
    (first : tab.due = due :: rest) (own : due.page? = some page) :
    page ≤ tab.number ∧ (.mount tab.number ∈ rest → page ≠ tab.number) := by
  have pages := pages_of_first first own
  refine ⟨timely.opened page (pages ▸ List.mem_cons_self), ?_⟩
  rintro later rfl
  have alone := timely.alone (first ▸ List.mem_cons_of_mem _ later)
  have left : tab.number ∈ Tab.pages { tab with due := rest } :=
    List.mem_append_left _ (List.mem_filterMap.mpr ⟨_, later, rfl⟩)
  rw [pages, List.count_cons_self] at alone
  exact absurd (Nat.succ.inj alone) (Nat.ne_of_gt (List.count_pos_iff.mpr left))

theorem takeTurn_timely (timely : tab.Timely) (mounted : .mount tab.number ∉ tab.due)
    (t : Turn Page Page.Call) : (tab.takeTurn t).Timely := by
  refine timely.grows ((t.commands.filterMap _).filterMap Due.page?) (tab.takeTurn_number t)
    ?_ (pages_dueOf t.commands) (Nat.le_refl _) ?_
  · unfold pages
    rw [takeTurn_due, takeTurn_flights, List.filterMap_append, List.append_assoc, List.append_assoc]
    exact List.perm_append_comm.append_left _
  · intro mem
    rw [takeTurn_due] at mem
    rcases List.mem_append.mp mem with old | made
    · exact absurd old mounted
    · rcases mem_dueOf made with ⟨c, same⟩ | ⟨path, same⟩ <;> cases same

theorem settleCall_timely (timely : tab.Timely) (opened : page ≤ tab.number)
    (mounted : .mount tab.number ∈ tab.due → page ≠ tab.number) (c : Page.Call)
    (outcome : Outcome c.Answer) : (tab.settleCall page c outcome).Timely := by
  have ends : (expiryOf outcome).filterMap Due.page? = [] := by
    unfold expiryOf
    split <;> rfl
  refine timely.grows (((tab.settling page c outcome).commands.filterMap _).filterMap Due.page?)
    (tab.settleCall_number page c outcome) ?_ (pages_dueOf _) opened fun mem => ?_
  · unfold pages
    rw [settleCall_due, settleCall_flights, List.filterMap_append, List.filterMap_append, ends,
      List.append_nil, List.append_assoc, List.append_assoc]
    exact List.perm_append_comm.append_left _
  · rcases mem_settleCall_due mem with old | same | ⟨c, same⟩ | ⟨path, same⟩
    · exact ⟨old, mounted old⟩
    all_goals cases same

theorem send_timely (timely : tab.Timely) (opened : page ≤ tab.number)
    (mounted : .mount tab.number ∈ tab.due → page ≠ tab.number) (c : Page.Call) :
    (tab.send page c).Timely := by
  rcases tab.send_cases page c with
    ⟨-, sent⟩ | ⟨request, -, ⟨r, server, -, sent⟩ | ⟨server, -, sent⟩⟩
  · rw [sent]
    exact settleCall_timely timely opened mounted c _
  · rw [sent]
    have taken : Timely { tab with server, sent := tab.sent ++ [request] } := ⟨timely.1, timely.2⟩
    exact settleCall_timely taken opened mounted c _
  · rw [sent]
    refine timely.grows [page] rfl ?_ (fun _ => List.mem_singleton.mp) opened
      fun mem => ⟨mem, mounted mem⟩
    unfold pages
    rw [List.map_append, List.append_assoc]
    exact .refl _

/-- Another page opens: it has only to be mounted. -/
theorem goto_timely (timely : tab.Timely) (location : Location) : (tab.goto location).Timely := by
  rcases tab.goto_cases location with stays | ⟨chrome, place, moves⟩ | ⟨chrome, opens⟩
  · rw [stays]
    exact timely
  · rw [moves]
    exact ⟨timely.1, timely.2⟩
  · rw [opens]
    have pages : (pages { tab with
        location, chrome, page := .opened (Place.ofPath location.path) tab.session
        number := tab.number + 1, strays := [], due := tab.due ++ [.mount (tab.number + 1)] }).Perm
          ((tab.number + 1) :: tab.pages) := by
      unfold Tab.pages
      simp only [List.filterMap_append, List.append_assoc]
      exact List.perm_middle
    have fresh : tab.pages.count (tab.number + 1) = 0 :=
      List.count_eq_zero.mpr fun mem => absurd (timely.opened _ mem) (Nat.not_succ_le_self _)
    refine ⟨fun other mem => ?_, fun _ => ?_⟩
    · rcases List.mem_cons.mp (pages.mem_iff.mp mem) with rfl | old
      · exact Nat.le_refl _
      · exact Nat.le_succ_of_le (timely.opened other old)
    · rw [pages.count_eq, List.count_cons_self, fresh]

theorem Works.timely {due : Due} {rest : List Due} (timely : tab.Timely)
    (first : tab.due = due :: rest) (works : Works { tab with due := rest } due after) :
    after.Timely := by
  have left := timely.rest first
  cases works with
  | mounts =>
    have mounted : .mount tab.number ∉ rest := fun again => (timely.first first rfl).2 again rfl
    exact takeTurn_timely left mounted _
  | calls page c =>
    obtain ⟨opened, mounted⟩ := timely.first first rfl
    exact send_timely left opened mounted c
  | goes path => exact goto_timely left _
  | signsOut => exact goto_timely left _
  | expires => exact @goto_timely { tab with due := rest, expired := false } ⟨left.1, left.2⟩ _
  | left own elsewhere => exact left
  | seen => exact left

theorem Moves.timely (moves : Moves tab after) (timely : tab.Timely) : after.Timely := by
  cases moves with
  | works next =>
    obtain ⟨due, rest, first, works⟩ := tab.works_of_next next
    exact works.timely timely first
  | acts rests offered entry => exact takeTurn_timely timely (by rw [rests]; nofun) _
  | signsOut rests =>
    refine ⟨fun other mem => timely.opened other ?_, fun mem => ?_⟩
    · simpa [pages, push, Due.page?] using mem
    · rcases List.mem_append.mp mem with old | new
      · rw [rests] at old; cases old
      · cases List.mem_singleton.mp new
  | visits rests path => exact goto_timely timely _
  | @answers rests nth flight held r =>
    let taken : Tab := { tab with flights := tab.flights.eraseIdx nth }
    have still : taken.Timely :=
      timely.fewer rfl (((List.eraseIdx_sublist _ _).map _).append_left _) id
    have opened : flight.page ≤ tab.number := timely.opened _
      (List.mem_append_right _ (List.mem_map_of_mem (List.mem_of_getElem? held)))
    have mounted : .mount taken.number ∉ taken.due := fun mem => by
      rw [show taken.due = [] from rests] at mem
      cases mem
    exact settleCall_timely still opened (fun mem => absurd mem mounted) flight.call _
  | dismisses id => exact ⟨timely.1, timely.2⟩
  | waits ms => exact ⟨timely.1, timely.2⟩
  | keeps key value => cases value <;> exact ⟨timely.1, timely.2⟩
  | dresses strays => exact ⟨timely.1, timely.2⟩

theorem Leads.timely (leads : Leads tab after) (timely : tab.Timely) : after.Timely := by
  induction leads with
  | refl => exact timely
  | tail _ moves ih => exact moves.timely ih

theorem launched_timely (session : Session) (server : Server) (path : String) :
    (launched session server path).Timely where
  opened _ mem := Nat.le_of_eq (List.mem_singleton.mp mem)
  alone _ := rfl

end Timely

section Placed

theorem settleCall_placed (placed : tab.Placed) (page : Nat) (c : Page.Call)
    (outcome : Outcome c.Answer) : (tab.settleCall page c outcome).Placed := by
  unfold Placed
  rw [settleCall_kind, settleCall_location]
  exact placed

theorem send_placed (placed : tab.Placed) (page : Nat) (c : Page.Call) :
    (tab.send page c).Placed := by
  rcases tab.send_cases page c with
    ⟨-, sent⟩ | ⟨request, -, ⟨r, server, -, sent⟩ | ⟨server, -, sent⟩⟩
  · rw [sent]
    exact settleCall_placed placed page c _
  · rw [sent]
    exact @settleCall_placed { tab with server, sent := tab.sent ++ [request] } placed page c _
  · rw [sent]
    exact placed

theorem takeTurn_placed (placed : tab.Placed) {t : Turn Page Page.Call}
    (alike : t.state.kind = tab.page.kind) : (tab.takeTurn t).Placed := by
  unfold Placed
  rw [takeTurn_page, takeTurn_location]
  exact alike.trans placed

/-- A page that shows another place as well is of the kind of both. -/
theorem goto_placed (placed : tab.Placed) (location : Location) : (tab.goto location).Placed := by
  unfold goto
  split
  · exact placed
  · dsimp only
    split
    · rename_i same
      exact (Page.kind_moved _ _).trans (placed.trans (Place.kind_eq_of_samePage same).symm)
    · exact Place.kind_opened _ _

theorem Works.placed {due : Due} (placed : tab.Placed) (works : Works tab due after) :
    after.Placed := by
  cases works with
  | mounts => exact takeTurn_placed placed (Page.kind_mounted _ _)
  | calls page c => exact send_placed placed page c
  | goes path => exact goto_placed placed _
  | signsOut => exact goto_placed placed _
  | expires => exact @goto_placed { tab with expired := false } placed _
  | left own elsewhere => exact placed
  | seen => exact placed

theorem Moves.placed (moves : Moves tab after) (placed : tab.Placed) : after.Placed := by
  cases moves with
  | works next =>
    obtain ⟨due, rest, -, works⟩ := tab.works_of_next next
    exact @Works.placed { tab with due := rest } after due placed works
  | acts rests offered entry => exact takeTurn_placed placed (Page.kind_handle ..)
  | signsOut rests => exact placed
  | visits rests path => exact goto_placed placed _
  | @answers _ nth flight held r =>
    exact @settleCall_placed { tab with flights := tab.flights.eraseIdx nth } placed flight.page
      flight.call _
  | dismisses id => exact placed
  | waits ms => exact placed
  | keeps key value => cases value <;> exact placed
  | dresses strays => exact placed

theorem Leads.placed (leads : Leads tab after) (placed : tab.Placed) : after.Placed := by
  induction leads with
  | refl => exact placed
  | tail _ moves ih => exact moves.placed ih

theorem launched_placed (session : Session) (server : Server) (path : String) :
    (launched session server path).Placed := by
  unfold Placed
  rw [launched_page, Place.kind_opened]
  rfl

end Placed

end Tab

/-! ## Addresses -/

namespace Page

/-- The place of a rule editor, by its address. -/
def place? : Page → Option Place
  | ruleEditor s => some (s.address.elim .newRule .rule)
  | _ => none

theorem place?_of_kind_ne {p : Page} (other : p.kind ≠ .ruleEditor) : p.place? = none := by
  cases p with
  | ruleEditor s => exact absurd rfl other
  | _ => rfl

/-- An editor that keeps its address keeps its place. -/
theorem place?_ruleEditor {s t : RuleEditor} (same : t.address = s.address) :
    (ruleEditor t).place? = (ruleEditor s).place? := by
  rw [place?, place?, same]

theorem place?_mounted (p : Page) (session : Session) :
    (p.mounted session).state.place? = p.place? := by
  by_cases editor : p.kind = .ruleEditor
  · cases p <;> cases editor
    rename_i s
    have same : (s.mounted session).state.address = s.address := by
      fun_cases RuleEditor.mounted s session <;> rfl
    unfold mounted
    cases session.access with
    | granted => exact place?_ruleEditor same
    | redirect path => rfl
  · rw [place?_of_kind_ne editor, place?_of_kind_ne (kind_mounted p session ▸ editor)]

theorem place?_handle (p : Page) (session : Session) (a : Act) (entry : Entry) :
    (p.handle session a entry).state.place? = p.place? := by
  by_cases own : a.kind = p.kind
  · by_cases editor : p.kind = .ruleEditor
    · cases p <;> cases editor
      rename_i s
      cases a <;> cases own
      rename_i a
      refine place?_ruleEditor ?_
      by_cases submits : a = .submit
      · subst submits
        simp only [RuleEditor.handle]
        split <;> rfl
      · exact (s.edited_handle session submits entry).address
    · rw [place?_of_kind_ne editor, place?_of_kind_ne (kind_handle p session a entry ▸ editor)]
  · rw [handle_of_kind_ne own]

theorem place?_settle_getD {page : Option Page} {p : Page} (own : ∀ q ∈ page, q = p)
    (session : Session) (c : Call) (result : Except Failure c.Answer) :
    ((settle page session c result).state.getD p).place? = p.place? := by
  have alike := kind_settle_getD own session c result
  by_cases editor : p.kind = .ruleEditor
  · cases left : (settle page session c result).state with
    | none => rfl
    | some q =>
      obtain ⟨_, rfl, kind⟩ := (settle_isSome_iff page session c result).mp (by rw [left]; rfl)
      rw [own _ rfl] at kind left
      cases p <;> cases editor
      cases c <;> cases kind
      rename_i s c
      obtain ⟨t, settled, rfl⟩ := Option.map_eq_some_iff.mp left
      refine place?_ruleEditor ?_
      cases c with
      | locate grant id =>
        simp only [RuleEditor.settle, RuleEditor.settleLocate] at settled
        split at settled <;> cases settled <;> rfl
      | submit submission => cases settled; rfl
  · rw [place?_of_kind_ne editor, place?_of_kind_ne (alike ▸ editor)]

/-- The page that is moved to another place that it shows takes its address. -/
theorem place?_moved {p : Page} {old new : Place} (place : ∀ q ∈ p.place?, q = old)
    (same : new.samePage old = true) : ∀ q ∈ (p.moved new).place?, q = new := by
  cases p with
  | ruleEditor s =>
    have here : s.address.elim .newRule .rule = old := place _ rfl
    intro q there
    cases new with
    | rule id => exact (Option.some.inj there).symm
    | _ =>
      have kept : s.address.elim .newRule .rule = q := Option.some.inj there
      rw [← kept, here]
      cases old <;> first | rfl | cases same
  | _ => nofun

theorem place?_opened (place : Place) (session : Session) :
    ∀ q ∈ (opened place session).place?, q = place := by
  intro q there
  cases place <;> cases there <;> rfl

end Page

namespace Tab

variable {tab after : Tab}

/-- The address of an editor at hand is that of the place at hand. -/
def Addressed (tab : Tab) : Prop :=
  ∀ place ∈ tab.page.place?, place = Place.ofPath tab.location.path

theorem Addressed.of_eq (addressed : tab.Addressed) (place : after.page.place? = tab.page.place?)
    (location : after.location = tab.location) : after.Addressed := by
  unfold Addressed
  rw [place, location]
  exact addressed

theorem settleCall_addressed (addressed : tab.Addressed) (page : Nat) (c : Page.Call)
    (outcome : Outcome c.Answer) : (tab.settleCall page c outcome).Addressed := by
  refine addressed.of_eq ?_ (settleCall_location ..)
  have own : ∀ q ∈ (if page = tab.number then some tab.page else none), q = tab.page := by
    intro q here
    split at here
    · exact (Option.some.inj here).symm
    · cases here
  rw [settleCall_page]
  exact Page.place?_settle_getD own _ _ _

theorem send_addressed (addressed : tab.Addressed) (page : Nat) (c : Page.Call) :
    (tab.send page c).Addressed := by
  rcases tab.send_cases page c with
    ⟨-, sent⟩ | ⟨request, -, ⟨r, server, -, sent⟩ | ⟨server, -, sent⟩⟩
  · rw [sent]
    exact settleCall_addressed addressed page c _
  · rw [sent]
    exact @settleCall_addressed { tab with server, sent := tab.sent ++ [request] } addressed page
      c _
  · rw [sent]
    exact addressed

theorem takeTurn_addressed (addressed : tab.Addressed) {t : Turn Page Page.Call}
    (alike : t.state.place? = tab.page.place?) : (tab.takeTurn t).Addressed :=
  addressed.of_eq (by rw [takeTurn_page, alike]) (takeTurn_location ..)

theorem goto_addressed (addressed : tab.Addressed) (location : Location) :
    (tab.goto location).Addressed := by
  unfold goto
  split
  · exact addressed
  · dsimp only
    split
    · rename_i same
      exact Page.place?_moved addressed same
    · exact Page.place?_opened _ _

theorem Works.addressed {due : Due} (addressed : tab.Addressed) (works : Works tab due after) :
    after.Addressed := by
  cases works with
  | mounts => exact takeTurn_addressed addressed (Page.place?_mounted ..)
  | calls page c => exact send_addressed addressed page c
  | goes path => exact goto_addressed addressed _
  | signsOut => exact goto_addressed addressed _
  | expires => exact @goto_addressed { tab with expired := false } addressed _
  | left own elsewhere => exact addressed
  | seen => exact addressed

theorem Moves.addressed (moves : Moves tab after) (addressed : tab.Addressed) :
    after.Addressed := by
  cases moves with
  | works next =>
    obtain ⟨due, rest, -, works⟩ := tab.works_of_next next
    exact @Works.addressed { tab with due := rest } after due addressed works
  | acts rests offered entry => exact takeTurn_addressed addressed (Page.place?_handle ..)
  | signsOut rests => exact addressed
  | visits rests path => exact goto_addressed addressed _
  | @answers _ nth flight held r =>
    exact @settleCall_addressed { tab with flights := tab.flights.eraseIdx nth } addressed
      flight.page flight.call _
  | dismisses id => exact addressed
  | waits ms => exact addressed
  | keeps key value => cases value <;> exact addressed
  | dresses strays => exact addressed

theorem Leads.addressed (leads : Leads tab after) (addressed : tab.Addressed) :
    after.Addressed := by
  induction leads with
  | refl => exact addressed
  | tail _ moves ih => exact moves.addressed ih

theorem launched_addressed (session : Session) (server : Server) (path : String) :
    (launched session server path).Addressed := by
  unfold Addressed
  rw [launched_page]
  exact Page.place?_opened _ session

end Tab

end GrantConsole.Console
