import Mathlib.Data.List.Perm.Basic
import GrantConsole.Proofs.Console.Changes
import GrantConsole.Proofs.Console.Kinds
import GrantConsole.Proofs.Console.Offers
import GrantConsole.Proofs.Screen.Steady

/-!
# Calls that have not been answered

A call that has not been answered is due or waits for its reply. It was made by the page at hand,
and is then of that page's kind, or by an earlier one. For a rule editor the calls without an answer
agree with its state: what is in flight is the submit that it waits for. This holds as the console
is opened and is kept by all that the console does.
-/

namespace GrantConsole.Console

open GrantConsole.Api GrantConsole.Markup GrantConsole.Screen GrantConsole.Url

/-! ## Pages -/

namespace Page

def Call.locates : Call → Bool
  | ruleEditor c => c.locates
  | _ => false

def Call.submits : Call → Bool
  | ruleEditor c => c.submits
  | _ => false

/-- A rule editor is steady; nothing is said of other pages. -/
def Steady (p : Page) (mounts locates submits : Nat) : Prop :=
  ∀ s, p = ruleEditor s → s.Steady mounts locates submits

section Steady

variable {p : Page} {session : Session} {mounts locates submits : Nat}

theorem steady_of_kind_ne (other : p.kind ≠ .ruleEditor) : p.Steady mounts locates submits := by
  rintro s rfl
  exact absurd rfl other

theorem steady_opened (place : Place) (session : Session) : (opened place session).Steady 1 0 0 := by
  intro s shown
  cases place with
  | newRule => cases shown; exact RuleEditor.steady_opened none session
  | rule id => cases shown; exact RuleEditor.steady_opened (some id) session
  | _ => cases shown

theorem steady_moved (steady : p.Steady mounts locates submits) (place : Place) :
    (p.moved place).Steady mounts locates submits := by
  intro t shown
  cases p with
  | ruleEditor s =>
    have before := steady s rfl
    cases place <;> cases shown <;> exact ⟨before.once, before.withheld, before.free, before.busy⟩
  | _ => cases shown

/-- The calls of an editor that are calls of its page. -/
theorem countP_ruleEditor (cs : List RuleEditor.Call) :
    (cs.map Call.ruleEditor).countP Call.locates = cs.countP RuleEditor.Call.locates ∧
      (cs.map Call.ruleEditor).countP Call.submits = cs.countP RuleEditor.Call.submits := by
  rw [List.countP_map, List.countP_map]
  exact ⟨rfl, rfl⟩

theorem steady_mounted (steady : p.Steady (mounts + 1) locates submits) (session : Session) :
    (p.mounted session).state.Steady mounts
      (locates + (p.mounted session).calls.countP Call.locates)
      (submits + (p.mounted session).calls.countP Call.submits) := by
  by_cases editor : p.kind = .ruleEditor
  · cases p <;> cases editor
    rename_i s
    have before := steady s rfl
    intro t shown
    unfold mounted at shown ⊢
    simp only [isGuarded, if_true] at shown ⊢
    cases access : session.access with
    | granted =>
      simp only [access, load] at shown ⊢
      rw [Turn.calls_map, (countP_ruleEditor _).1, (countP_ruleEditor _).2]
      cases shown
      exact RuleEditor.steady_mounted before session
    | redirect path =>
      simp only [access] at shown ⊢
      cases shown
      exact ⟨Nat.le_of_succ_le (by simpa [Turn.calls, Nat.add_right_comm] using before.once),
        before.withheld, fun _ => before.free (by omega), before.busy⟩
  · exact steady_of_kind_ne (by rwa [kind_mounted])

/-- What the page offers leaves an editor steady. -/
theorem steady_handle (steady : p.Steady 0 locates submits) (session : Session) {act : Act}
    (offered : act.submits = true → ∃ c h, p.Offers c h act) (entry : Entry) :
    (p.handle session act entry).state.Steady 0
      (locates + (p.handle session act entry).calls.countP Call.locates)
      (submits + (p.handle session act entry).calls.countP Call.submits) := by
  by_cases editor : p.kind = .ruleEditor
  · by_cases own : act.kind = p.kind
    · cases p <;> cases editor
      cases act <;> cases own
      rename_i s act
      have shown : act = .submit → s.loading = false := by
        rintro rfl
        obtain ⟨c, h, offers⟩ := offered rfl
        obtain ⟨-, _, same, ready, -⟩ := offers.submits rfl
        cases same
        exact ready
      intro t after
      cases after
      have kept := RuleEditor.steady_handle (steady s rfl) session shown entry
      simp only [handle, Turn.calls_map, countP_ruleEditor]
      exact kept
    · rw [handle_of_kind_ne own]
      exact steady
  · exact steady_of_kind_ne (by rwa [kind_handle])

/-- The answer to a call leaves an editor steady that has one call less without an answer. -/
theorem steady_settle {c : Call} (own : c.kind = p.kind)
    (steady : p.Steady mounts (locates + c.locates.toNat) (submits + c.submits.toNat))
    (session : Session) (result : Except Failure c.Answer) :
    ∃ q, (settle (some p) session c result).state = some q ∧ q.kind = p.kind ∧
      q.Steady mounts (locates + (settle (some p) session c result).calls.countP Call.locates)
        (submits + (settle (some p) session c result).calls.countP Call.submits) := by
  have there := (settle_isSome_iff (some p) session c result).mpr ⟨p, rfl, own.symm⟩
  obtain ⟨q, left⟩ := Option.isSome_iff_exists.mp there
  have alike : q.kind = p.kind := (kind_settle _ session c result q left).trans own
  refine ⟨q, left, alike, ?_⟩
  by_cases editor : p.kind = .ruleEditor
  · cases p <;> cases editor
    rename_i s
    cases c <;> cases own
    rename_i c
    have before := steady s rfl
    obtain ⟨t, there, after⟩ : ∃ t, (RuleEditor.settle (some s) session c result).state = some t ∧
        t.Steady mounts locates submits := by
      cases c with
      | locate grant id => exact RuleEditor.steady_locate before session grant id result
      | submit submission => exact RuleEditor.steady_submit before session submission result
    have silent := RuleEditor.calls_settle (some s) session c result
    simp only [settle, Turn.map_state, there, Option.map_some, Option.some.injEq] at left
    subst left
    simp only [settle, Turn.calls_map, silent, List.map_nil, List.countP_nil, Nat.add_zero]
    intro t same
    cases same
    exact after
  · exact steady_of_kind_ne (by rwa [alike])

end Steady

end Page

/-! ## Tabs -/

/-- The page that is to be mounted. -/
def Due.mounted? : Due → Option Nat
  | .mount page => some page
  | _ => none

/-- The call that is to be sent. -/
def Due.flight? : Due → Option Flight
  | .call page c => some ⟨page, c⟩
  | _ => none

/-- The call is one of a page, and of a sort. -/
def Flight.isOf (page : Nat) (sort : Page.Call → Bool) (f : Flight) : Bool :=
  f.page == page && sort f.call

/-- No mount that is due and no call without an answer belongs to a page to come, and the calls of
the page at hand are of its kind. -/
structure Owned (p : Page) (number : Nat) (mounts : List Nat) (calls : List Flight) : Prop where
  opened : ∀ page ∈ mounts, page ≤ number
  made : ∀ f ∈ calls, f.page ≤ number
  own : ∀ f ∈ calls, f.page = number → f.call.kind = p.kind

/-- The calls of the page at hand agree with its state. -/
structure Sound (p : Page) (number : Nat) (mounts : List Nat) (calls : List Flight) : Prop
    extends Owned p number mounts calls where
  steady : p.Steady (mounts.count number) (calls.countP (Flight.isOf number Page.Call.locates))
    (calls.countP (Flight.isOf number Page.Call.submits))

namespace Sound

variable {p q : Page} {number page : Nat} {mounts : List Nat} {calls others : List Flight}

theorem perm (sound : Sound p number mounts calls) (same : calls.Perm others) :
    Sound p number mounts others where
  opened := sound.opened
  made f mem := sound.made f (same.mem_iff.mpr mem)
  own f mem := sound.own f (same.mem_iff.mpr mem)
  steady := by
    rw [← same.countP_eq, ← same.countP_eq]
    exact sound.steady

/-- Another page opens: no call is its own yet, and it will be mounted. -/
theorem opens (sound : Sound p number mounts calls) (place : Place) (session : Session) :
    Sound (.opened place session) (number + 1) (mounts ++ [number + 1]) calls where
  opened page mem := by
    rcases List.mem_append.mp mem with old | new
    · exact Nat.le_succ_of_le (sound.opened page old)
    · exact Nat.le_of_eq (List.mem_singleton.mp new)
  made f mem := Nat.le_succ_of_le (sound.made f mem)
  own f mem new := by
    have old := sound.made f mem
    omega
  steady := by
    have none (sort : Page.Call → Bool) : calls.countP (Flight.isOf (number + 1) sort) = 0 := by
      refine List.countP_eq_zero.mpr fun f mem counted => ?_
      have old := sound.made f mem
      simp only [Flight.isOf, Bool.and_eq_true, beq_iff_eq] at counted
      omega
    have fresh : mounts.count (number + 1) = 0 := by
      refine List.count_eq_zero.mpr fun mem => ?_
      have old := sound.opened _ mem
      omega
    rw [none, none, List.count_append, fresh]
    simpa using Page.steady_opened place session

theorem moves (sound : Sound p number mounts calls) (place : Place) :
    Sound (p.moved place) number mounts calls where
  opened := sound.opened
  made := sound.made
  own f mem here := by rw [Page.kind_moved]; exact sound.own f mem here
  steady := Page.steady_moved sound.steady place

theorem countP_isOf (number page : Nat) (sort : Page.Call → Bool) (new : List Page.Call) :
    (new.map (Flight.mk page)).countP (Flight.isOf number sort) =
      if page = number then new.countP sort else 0 := by
  rw [List.countP_map]
  split
  · rename_i here
    congr 1
    funext c
    simp [Flight.isOf, here]
  · rename_i elsewhere
    exact List.countP_eq_zero.mpr fun c _ => by simp [Flight.isOf, elsewhere]

/-- A page makes calls, be it the one at hand, which may have become another of its kind, or an
earlier one. -/
theorem owned_append (owned : Owned p number mounts calls) (alike : q.kind = p.kind)
    (le : page ≤ number) {new : List Page.Call}
    (kinds : page = number → ∀ c ∈ new, c.kind = p.kind) :
    Owned q number mounts (calls ++ new.map (Flight.mk page)) where
  opened := owned.opened
  made f mem := by
    rcases List.mem_append.mp mem with old | made
    · exact owned.made f old
    · obtain ⟨c, -, rfl⟩ := List.mem_map.mp made
      exact le
  own f mem here := by
    rw [alike]
    rcases List.mem_append.mp mem with old | made
    · exact owned.own f old here
    · obtain ⟨c, among, rfl⟩ := List.mem_map.mp made
      exact kinds here c among

/-- The page at hand becomes another of its kind and makes calls. -/
theorem turns (owned : Owned p number mounts calls) (alike : q.kind = p.kind)
    {new : List Page.Call} (kinds : ∀ c ∈ new, c.kind = p.kind)
    (steady : q.Steady (mounts.count number)
      (calls.countP (Flight.isOf number Page.Call.locates) + new.countP Page.Call.locates)
      (calls.countP (Flight.isOf number Page.Call.submits) + new.countP Page.Call.submits)) :
    Sound q number mounts (calls ++ new.map (Flight.mk number)) where
  toOwned := owned_append owned alike (Nat.le_refl number) fun _ => kinds
  steady := by
    rw [List.countP_append, List.countP_append, countP_isOf, countP_isOf, if_pos rfl, if_pos rfl]
    exact steady

/-- A page that has been mounted, or has been left, is not to be mounted any more. -/
theorem fewerMounts (sound : Sound p number (page :: mounts) calls) : Sound p number mounts calls where
  opened other mem := sound.opened other (List.mem_cons_of_mem page mem)
  made := sound.made
  own := sound.own
  steady s same := (sound.steady s same).fewer List.count_le_count_cons

theorem mounting (sound : Sound p number (number :: mounts) calls) (session : Session) :
    Sound (p.mounted session).state number mounts
      (calls ++ (p.mounted session).calls.map (Flight.mk number)) := by
  refine turns sound.fewerMounts.toOwned (Page.kind_mounted p session)
    (fun c made => Page.call_kind_mounted (Turn.mem_calls.mp made)) ?_
  refine Page.steady_mounted ?_ session
  simpa using sound.steady

/-- The page takes in an act that it offers, once it has been mounted. -/
theorem acts (sound : Sound p number [] calls) (session : Session) {a : Page.Act}
    (offered : a.submits = true → ∃ c h, p.Offers c h a) (entry : Entry) :
    Sound (p.handle session a entry).state number []
      (calls ++ (p.handle session a entry).calls.map (Flight.mk number)) :=
  turns sound.toOwned (Page.kind_handle p session a entry)
    (fun _ made => Page.call_kind_handle (Turn.mem_calls.mp made))
    (Page.steady_handle sound.steady session offered entry)

theorem fewerCalls {f : Flight} (owned : Owned p number mounts (f :: calls)) :
    Owned p number mounts calls where
  opened := owned.opened
  made g mem := owned.made g (List.mem_cons_of_mem f mem)
  own g mem := owned.own g (List.mem_cons_of_mem f mem)

/-- The calls that an answer makes an earlier page call for are no calls of the page at hand. -/
theorem late (sound : Sound p number mounts calls) (earlier : page < number)
    (new : List Page.Call) : Sound p number mounts (calls ++ new.map (Flight.mk page)) where
  toOwned := owned_append sound.toOwned rfl (Nat.le_of_lt earlier)
    fun here => absurd here (Nat.ne_of_lt earlier)
  steady := by
    rw [List.countP_append, List.countP_append, countP_isOf, countP_isOf,
      if_neg (Nat.ne_of_lt earlier), if_neg (Nat.ne_of_lt earlier)]
    exact sound.steady

/-- A call is answered. -/
theorem settles {c : Page.Call} (sound : Sound p number mounts (⟨page, c⟩ :: calls))
    (session : Session) (result : Except Failure c.Answer) {t : Turn (Option Page) Page.Call}
    (settled : Page.settle (if page = number then some p else none) session c result = t) :
    Sound (t.state.getD p) number mounts (calls ++ t.calls.map (Flight.mk page)) := by
  subst settled
  have owned := fewerCalls sound.toOwned
  have steady := sound.steady
  rw [List.countP_cons, List.countP_cons] at steady
  split
  · rename_i here
    subst here
    have own : c.kind = p.kind := sound.own _ List.mem_cons_self rfl
    have steady : p.Steady (mounts.count page)
        (calls.countP (Flight.isOf page Page.Call.locates) + c.locates.toNat)
        (calls.countP (Flight.isOf page Page.Call.submits) + c.submits.toNat) := by
      cases locates : c.locates <;> cases submits : c.submits <;>
        simpa [Flight.isOf, locates, submits] using steady
    obtain ⟨q, left, alike, after⟩ := Page.steady_settle own steady session result
    rw [left, Option.getD_some]
    exact turns owned alike
      (fun d made => (Page.call_kind_settle (Turn.mem_calls.mp made)).trans own) after
  · rename_i elsewhere
    rw [Page.settle_none_state, Option.getD_none]
    have earlier : page < number :=
      Nat.lt_of_le_of_ne (sound.made _ List.mem_cons_self) elsewhere
    have rest : Sound p number mounts calls :=
      { toOwned := owned, steady := by simpa [Flight.isOf, elsewhere] using steady }
    exact rest.late earlier _

end Sound

/-! ## What the console does keeps this -/

namespace Tab

/-- The pages that are to be mounted. -/
def mounts (tab : Tab) : List Nat :=
  tab.due.filterMap Due.mounted?

/-- The calls that have not been answered. -/
def calls (tab : Tab) : List Flight :=
  tab.due.filterMap Due.flight? ++ tab.flights

/-- What is due and what waits for its reply agrees with the page at hand. -/
def Sound (tab : Tab) : Prop :=
  Console.Sound tab.page tab.number tab.mounts tab.calls

section Sound

variable {tab : Tab}

theorem filterMap_mounted?_dueOf (page : Nat) (cs : List (Command Page.Call)) :
    (cs.filterMap (dueOf page)).filterMap Due.mounted? = [] := by
  rw [List.filterMap_filterMap, List.filterMap_eq_nil_iff]
  intro command _
  cases command <;> rfl

theorem filterMap_flight?_dueOf {S : Type} (page : Nat) (t : Turn S Page.Call) :
    (t.commands.filterMap (dueOf page)).filterMap Due.flight? = t.calls.map (Flight.mk page) := by
  unfold Turn.calls
  rw [List.filterMap_filterMap, List.map_filterMap]
  congr 1
  funext command
  cases command <;> rfl

theorem takeTurn_mounts (t : Turn Page Page.Call) : (tab.takeTurn t).mounts = tab.mounts := by
  rw [mounts, takeTurn_due, List.filterMap_append, filterMap_mounted?_dueOf, List.append_nil]
  rfl

theorem takeTurn_calls (t : Turn Page Page.Call) :
    (tab.calls ++ t.calls.map (Flight.mk tab.number)).Perm (tab.takeTurn t).calls := by
  rw [calls, calls, takeTurn_due, List.filterMap_append, filterMap_flight?_dueOf, takeTurn_flights,
    List.append_assoc, List.append_assoc]
  exact List.perm_append_comm.append_left _

/-- A call without an answer is due or waits for its reply. -/
theorem mem_calls_iff {f : Flight} :
    f ∈ tab.calls ↔ .call f.page f.call ∈ tab.due ∨ f ∈ tab.flights := by
  unfold calls
  rw [List.mem_append, List.mem_filterMap]
  refine or_congr_left ⟨?_, fun mem => ⟨_, mem, rfl⟩⟩
  rintro ⟨due, mem, same⟩
  cases due <;> cases same
  exact mem

theorem mem_calls_of_first {page : Nat} {c : Page.Call} {rest : List Due}
    (first : tab.due = .call page c :: rest) : ⟨page, c⟩ ∈ tab.calls :=
  mem_calls_iff.mpr (.inl (first ▸ List.mem_cons_self))

theorem mem_calls_of_rest {due : Due} {rest : List Due} (first : tab.due = due :: rest) {f : Flight}
    (mem : f ∈ calls { tab with due := rest }) : f ∈ tab.calls :=
  mem_calls_iff.mpr ((mem_calls_iff.mp mem).imp_left fun later =>
    first ▸ List.mem_cons_of_mem _ later)

theorem mem_calls_takeTurn {t : Turn Page Page.Call} {f : Flight} :
    f ∈ (tab.takeTurn t).calls ↔ f ∈ tab.calls ∨ f.page = tab.number ∧ .call f.call ∈ t.commands := by
  rw [← (takeTurn_calls t).mem_iff, List.mem_append, List.mem_map]
  refine or_congr_right ⟨?_, fun ⟨here, made⟩ => ⟨f.call, Turn.mem_calls.mpr made, by rw [← here]⟩⟩
  rintro ⟨c, made, rfl⟩
  exact ⟨rfl, Turn.mem_calls.mp made⟩

theorem settleCall_calls (page : Nat) (c : Page.Call) (outcome : Outcome c.Answer) :
    (tab.calls ++ (tab.settling page c outcome).calls.map (Flight.mk page)).Perm
      (tab.settleCall page c outcome).calls := by
  have ends : (expiryOf outcome).filterMap Due.flight? = [] := by
    unfold expiryOf
    split <;> rfl
  rw [calls, calls, settleCall_due, List.filterMap_append, List.filterMap_append, ends,
    filterMap_flight?_dueOf, settleCall_flights, List.append_nil, List.append_assoc,
    List.append_assoc]
  exact List.perm_append_comm.append_left _

@[simp] theorem goto_calls (location : Location) : (tab.goto location).calls = tab.calls := by
  rcases tab.goto_cases location with same | ⟨_, _, same⟩ | ⟨_, same⟩
  · rw [same]
  · rw [same]
    rfl
  · rw [same, calls, calls, List.filterMap_append]
    exact congrArg (· ++ tab.flights) (List.append_nil _)

theorem settleCall_sound {page : Nat} {c : Page.Call}
    (sound : Console.Sound tab.page tab.number tab.mounts (⟨page, c⟩ :: tab.calls))
    (outcome : Outcome c.Answer) : (tab.settleCall page c outcome).Sound := by
  have after := sound.settles outcome.session outcome.result (t := tab.settling page c outcome) rfl
  have mounts : (tab.settleCall page c outcome).mounts = tab.mounts := by
    have ends : (expiryOf outcome).filterMap Due.mounted? = [] := by
      unfold expiryOf
      split <;> rfl
    rw [Tab.mounts, settleCall_due, List.filterMap_append, List.filterMap_append, ends,
      filterMap_mounted?_dueOf, List.append_nil, List.append_nil]
    rfl
  unfold Sound
  rw [settleCall_page, settleCall_number, mounts]
  exact after.perm (settleCall_calls page c outcome)

/-- Sending a call takes it from what is due, to settle it or to wait for its reply. -/
theorem send_sound {page : Nat} {c : Page.Call}
    (sound : Console.Sound tab.page tab.number tab.mounts (⟨page, c⟩ :: tab.calls)) :
    (tab.send page c).Sound := by
  rcases tab.send_cases page c with
    ⟨-, sent⟩ | ⟨request, -, ⟨r, server, -, sent⟩ | ⟨server, -, sent⟩⟩
  · rw [sent]
    exact settleCall_sound sound _
  · rw [sent]
    exact @settleCall_sound { tab with server, sent := tab.sent ++ [request] } page c sound _
  · rw [sent]
    refine Console.Sound.perm sound ?_
    have last : (⟨page, c⟩ :: tab.calls).Perm (tab.calls ++ [⟨page, c⟩]) :=
      (List.perm_append_singleton _ _).symm
    rwa [Tab.calls, List.append_assoc] at last

theorem goto_sound (sound : tab.Sound) (location : Location) : (tab.goto location).Sound := by
  rcases tab.goto_cases location with stays | ⟨chrome, place, moves⟩ | ⟨chrome, opens⟩
  · rw [stays]
    exact sound
  · rw [moves]
    exact sound.moves place
  · rw [opens]
    have after := Console.Sound.opens sound (Place.ofPath location.path) tab.session
    have none : [Due.mount (tab.number + 1)].filterMap Due.flight? = [] := rfl
    simpa [Sound, mounts, calls, Due.mounted?, none] using after

theorem follow_sound (sound : tab.Sound) (path : String) : (tab.follow path).Sound :=
  goto_sound sound (tab.location.follow path)

theorem takeTurn_sound {t : Turn Page Page.Call}
    (sound : Console.Sound t.state tab.number tab.mounts
      (tab.calls ++ t.calls.map (Flight.mk tab.number))) : (tab.takeTurn t).Sound := by
  unfold Sound
  rw [takeTurn_page, takeTurn_number, takeTurn_mounts]
  exact sound.perm (takeTurn_calls t)

/-- A piece of work keeps what is due in agreement with the page at hand. -/
theorem next_sound (sound : tab.Sound) {after : Tab} (next : tab.next = some after) :
    after.Sound := by
  cases first : tab.due with
  | nil => rw [(next_eq_none_iff tab).mpr first] at next; cases next
  | cons due rest =>
    rw [next_eq_some tab first] at next
    cases next
    have parts : Console.Sound tab.page tab.number
        (due.mounted?.toList ++ mounts { tab with due := rest })
        (due.flight?.toList ++ calls { tab with due := rest }) := by
      unfold Sound mounts calls at sound
      rw [first] at sound
      cases due <;> exact sound
    cases due with
    | mount page =>
      simp only [work]
      split
      · rename_i here
        subst here
        exact takeTurn_sound (parts.mounting tab.session)
      · exact parts.fewerMounts
    | call page c => exact send_sound parts
    | goto page path =>
      have left : Sound { tab with due := rest } := parts
      simp only [work]
      split
      · exact follow_sound left path
      · exact left
    | signedOut =>
      have left : Sound { tab with due := rest } := parts
      exact follow_sound left signInPath
    | expiry =>
      have left : Sound { tab with due := rest, expired := false } := parts
      simp only [work]
      split
      · exact follow_sound left signInPath
      · exact parts

end Sound

end Tab

end GrantConsole.Console
