import GrantConsole.Proofs.Console.Arrivals
import GrantConsole.Proofs.Console.Sending

/-!
# Access to the pages

A page for signed-in operators that is mounted while no token is kept gives way to the sign-in page:
it asks the server for nothing, neither then nor later, and when all work is done the console is at
the sign-in page. Work that was due before may come in between, but none that leads elsewhere: a
page that has been left leads nowhere, and all that does not belong to a page leads to the sign-in
page as well.
-/

namespace GrantConsole.Console

open GrantConsole.Api GrantConsole.Screen GrantConsole.Url

/-- The screens for signed-in operators. -/
def Kind.guarded : List Kind :=
  [.grants, .overview, .expenses, .approvals, .categories, .roles, .users, .rules, .ruleEditor]

theorem Page.isGuarded_of_kind {p : Page} (guarded : p.kind ∈ Kind.guarded) :
    p.isGuarded = true := by
  cases p with
  | signIn | missing => simp [kind, Kind.guarded] at guarded
  | _ => rfl

/-- Without a token a guarded page does nothing but go to the sign-in page. -/
theorem Page.mounted_of_lacksToken {p : Page} {session : Session} (guarded : p.kind ∈ Kind.guarded)
    (lacks : session.LacksToken) : p.mounted session = ⟨p, session, [.goto signInPath]⟩ := by
  have access : session.access = .redirect signInPath := by
    unfold Session.access Session.isSignedIn
    rw [(session.token?_eq_none_iff).mpr lacks]
    rfl
  unfold mounted
  rw [if_pos (isGuarded_of_kind guarded), access]

/-- The sign-in page does nothing when it is mounted. -/
theorem Page.mounted_of_signIn {p : Page} (signIn : p.kind = .signIn) (session : Session) :
    p.mounted session = ⟨p, session, []⟩ := by
  cases p <;> cases signIn
  rfl

namespace Tab

/-- A page for signed-in operators is mounted while no token is kept. -/
structure MountsSignedOut (tab after : Tab) : Prop where
  mount : tab.due.head? = some (.mount tab.number)
  next : tab.next = some after
  guarded : tab.page.kind ∈ Kind.guarded
  lacks : tab.session.LacksToken

/-- The page that was to be mounted gives way to the sign-in page and asks for nothing. -/
structure GivesWay (tab after : Tab) : Prop where
  sent : after.sent = tab.sent
  calls : after.calls = tab.calls
  silent : ∀ fuel, ∀ f ∈ (after.runFor fuel).calls, f.page ≠ tab.number
  rests : ∃ fuel, (after.runFor fuel).due = []
  arrives : ∀ fuel, (after.runFor fuel).due = [] →
    (after.runFor fuel).location = ⟨"/", ""⟩ ∧ (after.runFor fuel).page.kind = .signIn

/-- Runs are guarded: pages give way where no token is kept, and requests carry the token that is
kept when they are sent. -/
structure Guarded (start final : Tab) : Prop where
  mounts : ∀ tab after, Leads start tab → MountsSignedOut tab after → GivesWay tab after
  requests : ∀ i request, final.sent[i]? = some request →
    ∃ before after, Leads start before ∧ Sends before request after ∧ Leads after final ∧
      before.sent.length = i ∧ (¬ request.AsksForToken → request.CarriesTokenOf before.session)

/-! ## The way to the sign-in page -/

section Homeward

variable {tab after : Tab} {page : Nat} {due : Due} {rest : List Due}

/-- The page is at hand still, and all that is due for it is to go to the sign-in page. -/
structure Leaving (page : Nat) (tab : Tab) : Prop where
  here : tab.number = page
  away : tab.page.kind ≠ .signIn
  only : ∀ due ∈ tab.due, due.page? = some page → due = .goto page signInPath
  opened : ∀ due ∈ tab.due, ∀ other ∈ due.page?, other ≤ page

/-- The sign-in page is at hand, and nothing leads away from it. -/
structure Arrived (page : Nat) (tab : Tab) : Prop where
  past : page < tab.number
  location : tab.location = ⟨"/", ""⟩
  only : ∀ due ∈ tab.due, due.page? = some tab.number → due = .mount tab.number

/-- A page goes nowhere but to the sign-in page, and none of its calls is without an answer. -/
structure Bound (page : Nat) (tab : Tab) : Prop where
  placed : tab.Placed
  silent : ∀ f ∈ tab.calls, f.page ≠ page
  way : Leaving page tab ∨ Arrived page tab

/-- A page will go to the sign-in page, if it is at hand still. -/
structure Homeward (page : Nat) (tab : Tab) : Prop extends Bound page tab where
  wish : tab.number = page → .goto page signInPath ∈ tab.due

theorem Arrived.signIn (arrived : Arrived page tab) (placed : tab.Placed) :
    tab.page.kind = .signIn := by
  rw [placed, arrived.location, Place.ofPath_root]
  rfl

theorem Bound.dropFirst (bound : Bound page tab) (first : tab.due = due :: rest) :
    Bound page { tab with due := rest } where
  placed := bound.placed
  silent f mem := bound.silent f (mem_calls_of_rest first mem)
  way := by
    have among : ∀ other ∈ rest, other ∈ tab.due := fun other mem =>
      first ▸ List.mem_cons_of_mem _ mem
    rcases bound.way with ⟨here, away, only, opened⟩ | ⟨past, location, only⟩
    · exact .inl ⟨here, away, fun other mem => only other (among other mem),
        fun other mem => opened other (among other mem)⟩
    · exact .inr ⟨past, location, fun other mem => only other (among other mem)⟩

/-- The same page is at hand at the same place, with the same work due and the same calls waiting. -/
structure SameCourse (tab after : Tab) : Prop where
  number : after.number = tab.number
  location : after.location = tab.location
  page : after.page = tab.page
  due : after.due = tab.due
  flights : after.flights = tab.flights

theorem SameCourse.calls (same : SameCourse tab after) : after.calls = tab.calls := by
  unfold Tab.calls
  rw [same.due, same.flights]

theorem Bound.same (bound : Bound page tab) (same : SameCourse tab after) : Bound page after where
  placed := by
    unfold Placed
    rw [same.page, same.location]
    exact bound.placed
  silent := same.calls ▸ bound.silent
  way := by
    rcases bound.way with ⟨here, away, only, opened⟩ | ⟨past, location, only⟩
    · exact .inl ⟨same.number.trans here, same.page ▸ away, same.due ▸ only, same.due ▸ opened⟩
    · refine .inr ⟨same.number ▸ past, same.location.trans location, ?_⟩
      rw [same.number, same.due]
      exact only

theorem Homeward.same (home : Homeward page tab) (same : SameCourse tab after) :
    Homeward page after :=
  ⟨home.toBound.same same, fun here => same.due ▸ home.wish (same.number ▸ here)⟩

theorem follow_signIn_of_home (home : tab.location = ⟨"/", ""⟩) : tab.follow signInPath = tab := by
  rw [follow, follow_signInPath, goto, if_pos home.symm]

/-- From any other page the path of the sign-in page opens it. -/
theorem follow_signIn_of_away (placed : tab.Placed) (away : tab.page.kind ≠ .signIn) :
    ∃ chrome, tab.follow signInPath =
      { tab with
        location := ⟨"/", ""⟩, chrome
        page := .opened .signIn tab.session
        number := tab.number + 1
        strays := []
        due := tab.due ++ [.mount (tab.number + 1)] } := by
  have elsewhere : Place.ofPath tab.location.path ≠ .signIn := fun same =>
    away (placed.trans (Place.kind_eq_signIn_iff.mpr same))
  have moved : (⟨"/", ""⟩ : Location) ≠ tab.location := fun same =>
    elsewhere (by rw [← same]; exact Place.ofPath_root)
  have other : Place.samePage .signIn (Place.ofPath tab.location.path) = false := by
    cases place : Place.ofPath tab.location.path with
    | signIn => exact absurd place elsewhere
    | _ => rfl
  rw [follow, follow_signInPath, goto, if_neg moved]
  simp only [Place.ofPath_root, other]
  exact ⟨_, rfl⟩

/-- Whoever goes to the sign-in page stays there. -/
theorem Bound.follows (bound : Bound page tab) : Homeward page (tab.follow signInPath) := by
  rcases bound.way with ⟨here, away, only, opened⟩ | arrived
  · have placed : (tab.follow signInPath).Placed := goto_placed bound.placed _
    obtain ⟨chrome, same⟩ := follow_signIn_of_away bound.placed away
    rw [same] at placed ⊢
    have past : page < tab.number + 1 := here ▸ Nat.lt_succ_self _
    refine ⟨⟨placed, fun f mem => ?_, .inr ⟨past, rfl, fun due mem own => ?_⟩⟩, fun back => ?_⟩
    · rcases mem_calls_iff.mp mem with call | waits
      · have old := (List.mem_append.mp call).resolve_right (by simp)
        exact bound.silent f (mem_calls_iff.mpr (.inl old))
      · exact bound.silent f (mem_calls_iff.mpr (.inr waits))
    · rcases List.mem_append.mp mem with old | new
      · exact absurd (opened due old _ own) (Nat.not_le_of_lt past)
      · exact List.mem_singleton.mp new
    · exact absurd back (Nat.ne_of_gt past)
  · rw [follow_signIn_of_home arrived.location]
    exact ⟨bound, fun back => absurd back (Nat.ne_of_gt arrived.past)⟩

/-- What a call of a page that has been left does: the page at hand and its place stay, and the work
that is added belongs to that page or ends the session. -/
structure Aside (page : Nat) (tab after : Tab) : Prop where
  number : after.number = tab.number
  location : after.location = tab.location
  same : after.page = tab.page
  kept : ∀ due ∈ tab.due, due ∈ after.due
  added : ∀ due ∈ after.due, due ∈ tab.due ∨ due = .expiry ∨ due.page? = some page
  flights : ∀ f ∈ after.flights, f ∈ tab.flights ∨ f.page = page

theorem settleCall_aside (elsewhere : page ≠ tab.number) (c : Page.Call)
    (outcome : Outcome c.Answer) : Aside page tab (tab.settleCall page c outcome) where
  number := settleCall_number ..
  location := settleCall_location ..
  same := by rw [settleCall_page, settling, if_neg elsewhere, Page.settle_none_state]; rfl
  kept due mem := by
    rw [settleCall_due, List.append_assoc]
    exact List.mem_append_left _ mem
  added due mem := by
    rcases mem_settleCall_due mem with old | ends | ⟨c, rfl⟩ | ⟨path, rfl⟩
    · exact .inl old
    · exact .inr (.inl ends)
    · exact .inr (.inr rfl)
    · exact .inr (.inr rfl)
  flights f mem := .inl (by rwa [settleCall_flights] at mem)

theorem send_aside (elsewhere : page ≠ tab.number) (c : Page.Call) :
    Aside page tab (tab.send page c) := by
  rcases tab.send_cases page c with
    ⟨-, sent⟩ | ⟨request, -, ⟨r, server, -, sent⟩ | ⟨server, -, sent⟩⟩
  · rw [sent]
    exact settleCall_aside elsewhere c _
  · rw [sent]
    obtain ⟨number, location, same, kept, added, flights⟩ := @settleCall_aside
      { tab with server, sent := tab.sent ++ [request] } page elsewhere c
      (c.operation.settle tab.session r.outcome)
    exact ⟨number, location, same, kept, added, flights⟩
  · rw [sent]
    refine ⟨rfl, rfl, rfl, fun _ => id, fun _ => .inl, fun f mem => ?_⟩
    rcases List.mem_append.mp mem with old | new
    · exact .inl old
    · exact .inr (List.mem_singleton.mp new ▸ rfl)

theorem Bound.aside {other : Nat} (bound : Bound page tab) (aside : Aside other tab after)
    (different : other ≠ page) (elsewhere : other ≠ tab.number)
    (opened : Leaving page tab → other ≤ page) : Bound page after where
  placed := by
    unfold Placed
    rw [aside.same, aside.location]
    exact bound.placed
  silent f mem := by
    rcases mem_calls_iff.mp mem with due | waits
    · rcases aside.added _ due with old | ends | own
      · exact bound.silent f (mem_calls_iff.mpr (.inl old))
      · cases ends
      · exact fun same => different ((Option.some.inj own).symm.trans same)
    · rcases aside.flights f waits with old | own
      · exact bound.silent f (mem_calls_iff.mpr (.inr old))
      · exact own ▸ different
  way := by
    rcases bound.way with leaving | arrived
    · refine .inl ⟨aside.number.trans leaving.here, aside.same ▸ leaving.away,
        fun due mem own => ?_, fun due mem belongs within_ => ?_⟩
      · rcases aside.added due mem with old | rfl | new
        · exact leaving.only due old own
        · cases own
        · exact absurd (Option.some.inj (new.symm.trans own)) different
      · rcases aside.added due mem with old | rfl | new
        · exact leaving.opened due old belongs within_
        · cases within_
        · cases new.symm.trans within_
          exact opened leaving
    · refine .inr ⟨aside.number ▸ arrived.past, aside.location.trans arrived.location,
        fun due mem own => ?_⟩
      rw [aside.number] at own ⊢
      rcases aside.added due mem with old | rfl | new
      · exact arrived.only due old own
      · cases own
      · exact absurd (Option.some.inj (new.symm.trans own)) elsewhere

theorem Homeward.aside {other : Nat} (home : Homeward page tab) (aside : Aside other tab after)
    (different : other ≠ page) (elsewhere : other ≠ tab.number)
    (opened : Leaving page tab → other ≤ page) : Homeward page after :=
  ⟨home.toBound.aside aside different elsewhere opened,
    fun here => aside.kept _ (home.wish (aside.number ▸ here))⟩

/-- No piece of work leads a page off its way. -/
theorem Homeward.works (home : Homeward page tab) (first : tab.due = due :: rest)
    (works : Works { tab with due := rest } due after) : Homeward page after := by
  have mem : due ∈ tab.due := first ▸ List.mem_cons_self
  have left : Bound page { tab with due := rest } := home.dropFirst first
  -- The wish is still there unless it was what has just been taken from the work that is due.
  have still (other : tab.number = page → due ≠ .goto page signInPath) :
      Homeward page { tab with due := rest } := ⟨left, fun here =>
    (List.mem_cons.mp (first ▸ home.wish here)).resolve_left (other here).symm⟩
  cases works with
  | mounts =>
    rcases home.way with leaving | arrived
    · cases leaving.only _ mem (congrArg some leaving.here)
    · have nothing := Page.mounted_of_signIn (arrived.signIn home.placed) tab.session
      rw [nothing]
      exact still nofun
  | calls other c =>
    have different : other ≠ page := home.silent ⟨other, c⟩ (mem_calls_of_first first)
    have elsewhere : other ≠ tab.number := by
      rintro rfl
      rcases home.way with leaving | arrived
      · exact different leaving.here
      · cases arrived.only _ mem rfl
    have aside := @send_aside { tab with due := rest } other elsewhere c
    refine (still nofun).aside aside different elsewhere fun leaving => ?_
    rcases home.way with leaving | arrived
    · exact leaving.opened _ mem other rfl
    · exact absurd leaving.here (Nat.ne_of_gt arrived.past)
  | goes path =>
    rcases home.way with leaving | arrived
    · cases leaving.only _ mem (congrArg some leaving.here)
      exact left.follows
    · cases arrived.only _ mem rfl
  | signsOut => exact left.follows
  | expires =>
    have seen : Bound page { tab with due := rest, expired := false } :=
      left.same ⟨rfl, rfl, rfl, rfl, rfl⟩
    exact seen.follows
  | left own elsewhere =>
    refine still fun here same => elsewhere ?_
    rw [same] at own
    exact (Option.some.inj own).symm.trans here.symm
  | seen => exact still nofun

theorem Homeward.runFor (home : Homeward page tab) (fuel : Nat) :
    Homeward page (tab.runFor fuel) := by
  refine tab.runFor_carries (fun a b => Homeward page a → Homeward page b) (fun _ => id)
    (fun first second => second ∘ first) (fun tab due rest first home => ?_) fuel home
  exact home.works first (works_work _ due)

/-- When nothing is due any more, the sign-in page has been reached. -/
theorem Homeward.arrived (home : Homeward page tab) (rests : tab.due = []) : Arrived page tab := by
  refine home.way.resolve_left fun leaving => ?_
  have wish := home.wish leaving.here
  rw [rests] at wish
  cases wish

end Homeward

/-! ## Access -/

section Access

variable {tab after : Tab}

theorem homeward_of_mount (timely : tab.Timely) (placed : tab.Placed) {rest : List Due}
    (first : tab.due = .mount tab.number :: rest) (away : tab.page.kind ≠ .signIn) :
    Homeward tab.number { tab with due := rest ++ [.goto tab.number signInPath] } := by
  have left := timely.rest first
  have none := timely.not_mem_rest first
  have others : ∀ due ∈ rest, due.page? ≠ some tab.number := fun due mem own =>
    none (List.mem_append_left _ (List.mem_filterMap.mpr ⟨due, mem, own⟩))
  have added {due : Due} (mem : due ∈ rest ++ [.goto tab.number signInPath]) :
      due ∈ rest ∨ due = .goto tab.number signInPath :=
    (List.mem_append.mp mem).imp_right List.mem_singleton.mp
  refine ⟨⟨placed, fun f mem => ?_,
      .inl ⟨rfl, away, fun due mem own => ?_, fun due mem other own => ?_⟩⟩,
    fun _ => List.mem_append_right _ List.mem_cons_self⟩
  · rcases mem_calls_iff.mp mem with call | waits
    · rcases added call with old | new
      · exact fun same => others _ old (congrArg some same)
      · cases new
    · exact fun same => none (List.mem_append_right _ (List.mem_map.mpr ⟨f, waits, same⟩))
  · exact (added mem).resolve_left fun old => others due old own
  · rcases added mem with old | rfl
    · exact left.opened other (List.mem_append_left _ (List.mem_filterMap.mpr ⟨due, old, own⟩))
    · exact Nat.le_of_eq (Option.some.inj own).symm

theorem MountsSignedOut.givesWay (mounts : MountsSignedOut tab after) (timely : tab.Timely)
    (placed : tab.Placed) : GivesWay tab after := by
  obtain ⟨rest, first⟩ : ∃ rest, tab.due = .mount tab.number :: rest :=
    List.head?_eq_some_iff.mp mounts.mount
  obtain rfl : after = { tab with due := rest ++ [.goto tab.number signInPath] } := by
    have next := next_eq_some tab first
    rw [mounts.next, Option.some.injEq] at next
    rw [next]
    simp only [work, if_pos, Page.mounted_of_lacksToken mounts.guarded mounts.lacks]
    rfl
  have away : tab.page.kind ≠ .signIn := fun same => by
    have guarded := mounts.guarded
    rw [same] at guarded
    simp [Kind.guarded] at guarded
  have home := homeward_of_mount timely placed first away
  refine ⟨rfl, ?_, fun fuel => (home.runFor fuel).silent, ⟨_, runFor_due _ (Nat.le_refl _)⟩,
    fun fuel rests => ?_⟩
  · unfold calls
    rw [first, List.filterMap_append, List.append_assoc]
    rfl
  · have arrived := (home.runFor fuel).arrived rests
    exact ⟨arrived.location, arrived.signIn (home.runFor fuel).placed⟩

end Access

example : ∃ after, MountsSignedOut (launched .empty {} "/grants") after :=
  ⟨_, rfl, rfl, by decide, .inl rfl⟩

end Tab

end GrantConsole.Console
