import GrantConsole.Proofs.Console.FormClicks
import GrantConsole.Proofs.Console.FormHeard
import GrantConsole.Proofs.Console.Submits

/-!
# No edit while a submit is in flight

A draft takes edits at any time, and a submit that succeeds replaces it. That no edit is lost rests
on the form: while a submit is in flight all its controls are disabled. So from the moment at which
a submit begins until its answer is taken in, the draft at hand keeps the rule that was sent.
-/

namespace GrantConsole.Console

open GrantConsole.Api GrantConsole.Markup GrantConsole.Screen

namespace Tab

variable {tab after : Tab} {page : Nat} {due : Due}

/-! ## What a move does to a rule in flight -/

/-- The submits of the page at hand that have no answer are of the rule as it stands. -/
structure Current (tab : Tab) : Prop where
  sound : tab.Sound
  awaits : ∀ s submission, tab.page = .ruleEditor s → tab.Submits tab.number submission →
    s.draft.value.Awaits submission

/-- What happens to an editor that submits: its page is left, its draft stays, or it takes in what
came of its submit, and that was of the rule as it stands. -/
inductive Withholds (s : RuleEditor) (tab after : Tab) : Prop
  | leaves (other : after.number ≠ tab.number)
  | stays {t : RuleEditor} (here : after.number = tab.number) (shown : after.page = .ruleEditor t)
      (same : t.draft.value = s.draft.value)
  | finishes {submission : Submission} {outcome : Outcome Rule}
      (awaits : s.draft.value.Awaits submission)
      (settles : tab.Settles tab.number (.ruleEditor (.submit submission)) outcome after)
      (shown : after.page = .ruleEditor (s.edit fun d => (d.finishSubmit outcome.result).1))

/-- No edit comes between a submit and its answer. -/
def NoneBetween (tab after : Tab) : Prop :=
  ∀ s, tab.page = .ruleEditor s → s.draft.value.isSubmitting = true → Withholds s tab after

/-- The act is none of those that edit a rule which is being submitted. -/
def Refrains (tab : Tab) (a : Page.Act) : Prop :=
  ∀ s, tab.page = .ruleEditor s → s.draft.value.isSubmitting = true →
    ∀ b, a = .ruleEditor b → b = .submit

section Withholds

variable {s : RuleEditor}

theorem Passes.withholds (passes : Passes tab.number tab after) (shown : tab.page = .ruleEditor s) :
    Withholds s tab after := by
  by_cases here : after.number = tab.number
  · obtain ⟨-, same | ⟨place, moved⟩⟩ := passes.state here
    · exact .stays here (same.trans shown) rfl
    · rw [shown] at moved
      cases place <;> exact .stays here moved rfl
  · exact .leaves here

/-- The editor takes in what came of its submit. -/
theorem Settles.submitted {submission : Submission} {outcome : Outcome Rule}
    (settles : tab.Settles tab.number (.ruleEditor (.submit submission)) outcome after)
    (shown : tab.page = .ruleEditor s) :
    after.page = .ruleEditor (s.edit fun d => (d.finishSubmit outcome.result).1) := by
  rw [settles.takesTurn.page, settling, if_pos rfl, shown]
  rfl

theorem Undergoes.withholds (undergoes : Undergoes tab.number tab after) (current : tab.Current)
    (shown : tab.page = .ruleEditor s) (busy : s.draft.value.isSubmitting = true) :
    Withholds s tab after := by
  cases undergoes with
  | passes passes => exact passes.withholds shown
  | @settles c outcome settles =>
    have mem := settles.mem_calls
    have own := current.sound.own _ mem rfl
    rw [shown] at own
    cases c <;> cases own
    rename_i c
    cases c with
    | locate grant id => exact absurd mem (not_locates_of_busy current.sound shown busy grant id)
    | submit submission =>
      exact .finishes (current.awaits s submission shown mem) settles (settles.submitted shown)

theorem noneBetween_of_undergoes (current : tab.Current)
    (undergoes : Mounted tab.number tab → Undergoes tab.number tab after) :
    NoneBetween tab after := fun _ shown busy =>
  (undergoes (mounted_of_busy current.sound shown busy)).withholds current shown busy

/-- An act that edits no rule in flight is refused if it is a submit, and is for another page
otherwise. -/
theorem acts_noneBetween {a : Page.Act} (refrains : tab.Refrains a) (entry : Entry) :
    NoneBetween tab (tab.takeTurn (tab.page.handle tab.session a entry)) := by
  intro s shown busy
  have number := tab.takeTurn_number (tab.page.handle tab.session a entry)
  have page := tab.takeTurn_page (tab.page.handle tab.session a entry)
  by_cases fits : a.kind = tab.page.kind
  · rw [shown] at fits
    cases a <;> cases fits
    rename_i b
    cases refrains s shown busy b rfl
    have refused := RuleDraft.beginSubmit_of_isSubmitting busy
    refine .stays number (t := s.edit fun _ => s.draft.value.beginSubmit.1) ?_ ?_
    · rw [page, shown, Page.handle, RuleEditor.handle]
      simp only [Turn.map_state]
      split <;> rfl
    · show s.draft.value.beginSubmit.1 = s.draft.value
      rw [refused]
  · rw [Page.handle_of_kind_ne fits] at page number ⊢
    exact .stays number (page.trans shown) rfl

end Withholds

/-! ## What is in flight stays current -/

section Current

/-- What a move adds to the submits without an answer is of the rule as it stands. -/
def AddsCurrent (tab after : Tab) : Prop :=
  ∀ page submission, after.Submits page submission →
    tab.Submits page submission ∨ ∀ t, after.page = .ruleEditor t → t.draft.value.Awaits submission

theorem AddsNoSubmit.current (adds : AddsNoSubmit tab after) : AddsCurrent tab after :=
  fun page submission submits => .inl (adds page submission submits)

/-- A submit that an act adds is begun by it. -/
theorem acts_addsCurrent (a : Page.Act) (entry : Entry) :
    AddsCurrent tab (tab.takeTurn (tab.page.handle tab.session a entry)) := by
  intro page submission submits
  refine (mem_calls_takeTurn.mp submits).imp_right fun ⟨_, called⟩ t shown => ?_
  obtain ⟨rfl, s, before, begun⟩ := Page.submit_handle called
  rw [takeTurn_page, before, Page.handle, RuleEditor.handle] at shown
  simp only [begun, Turn.map_state] at shown
  cases shown
  exact RuleDraft.awaits_beginSubmit begun

theorem Moves.addsCurrent (moves : Moves tab after) : AddsCurrent tab after := by
  cases moves with
  | works next =>
    obtain ⟨due, rest, first, works⟩ := tab.works_of_next next
    exact (works.addsNoSubmit first).current
  | acts rests offered entry => exact acts_addsCurrent _ entry
  | signsOut rests =>
    refine AddsNoSubmit.current fun page submission submits => ?_
    simpa [Submits, calls, push, Due.flight?] using submits
  | visits rests path => exact (goto_addsNoSubmit _).current
  | @answers _ nth flight held r =>
    refine AddsNoSubmit.current fun page submission submits => ?_
    have old := settleCall_addsNoSubmit flight.page flight.call _ page submission submits
    exact mem_calls_iff.mpr ((mem_calls_iff.mp old).imp_right List.mem_of_mem_eraseIdx)
  | dismisses id => exact fun _ _ => .inl
  | waits ms => exact fun _ _ => .inl
  | keeps key value => cases value <;> exact fun _ _ => .inl
  | dresses strays => exact fun _ _ => .inl

theorem Moves.number_le (moves : Moves tab after) : tab.number ≤ after.number := by
  cases moves with
  | works next =>
    obtain ⟨due, rest, -, works⟩ := tab.works_of_next next
    exact works.number_le
  | acts rests offered entry => exact Nat.le_of_eq (takeTurn_number ..).symm
  | visits rests path => exact goto_number_le ..
  | @answers _ nth flight held r =>
    exact Nat.le_of_eq
      (settleCall_number { tab with flights := tab.flights.eraseIdx nth } flight.page _ _).symm
  | keeps key value => cases value <;> exact Nat.le_refl _
  | _ => exact Nat.le_refl _

/-- A move that lets no edit in between keeps what is in flight current. -/
theorem Current.moves (current : tab.Current) (moves : Moves tab after)
    (none : NoneBetween tab after) : after.Current where
  sound := moves.sound current.sound
  awaits t submission shown submits := by
    rcases moves.addsCurrent _ submission submits with old | begun
    · have same : after.number = tab.number :=
        Nat.le_antisymm (current.sound.made _ old) moves.number_le
      rw [same] at old
      obtain ⟨s, before, busy⟩ := old.busy current.sound
      have awaited := current.awaits s submission before old
      cases none s before busy with
      | leaves other => exact absurd same other
      | stays here now kept =>
        cases shown.symm.trans now
        rw [kept]
        exact awaited
      | finishes awaits settles now =>
        obtain ⟨u, still, inFlight⟩ := submits.busy (moves.sound current.sound)
        cases still.symm.trans now
        cases inFlight.symm.trans (RuleDraft.isSubmitting_finishSubmit _ _)
    · exact begun t shown

end Current

/-! ## Work and acts -/

/-- What moves lead to that let no edit in between a submit and its answer. -/
abbrev LeadsUnedited : Tab → Tab → Prop :=
  Relation.ReflTransGen fun tab after => Moves tab after ∧ NoneBetween tab after

/-- From a current state on no edit comes in between, and the state is current again. -/
def Withheld (tab after : Tab) : Prop :=
  tab.Current → LeadsUnedited tab after ∧ after.Current

namespace Withheld

variable {between : Tab}

theorem refl (tab : Tab) : Withheld tab tab := fun current => ⟨.refl, current⟩

theorem trans (first : Withheld tab between) (second : Withheld between after) :
    Withheld tab after := fun current =>
  have ⟨there, still⟩ := first current
  have ⟨on, again⟩ := second still
  ⟨there.trans on, again⟩

theorem single (moves : Moves tab after) (none : tab.Current → NoneBetween tab after) :
    Withheld tab after := fun current =>
  ⟨.single ⟨moves, none current⟩, current.moves moves (none current)⟩

/-- A move that leaves the page as it is. -/
theorem of_same (moves : Moves tab after) (number : after.number = tab.number)
    (page : after.page = tab.page) : Withheld tab after :=
  single moves fun _ _ shown _ => .stays number (page.trans shown) rfl

theorem goto (rests : tab.due = []) (path : String) : Withheld tab (tab.follow path) :=
  single (.visits rests path) fun current =>
    noneBetween_of_undergoes current fun mounted => .passes (goto_passes mounted.past _)

theorem run (tab : Tab) : Withheld tab tab.run := by
  have works : Withheld tab (tab.runFor workLimit) := by
    refine tab.runFor_carries Withheld refl trans (fun tab due rest first => ?_) workLimit
    have next := next_eq_some tab first
    exact single (.works next) fun current =>
      noneBetween_of_undergoes current fun mounted =>
        (works_work { tab with due := rest } due).undergoes mounted first
  exact works.trans (of_same (.dresses _ _) rfl rfl)

theorem visit (rests : tab.due = []) (path : String) : Withheld tab (tab.visit path) :=
  (goto rests path).trans (run _)

theorem answer (rests : tab.due = []) {nth : Nat} {r : Reply}
    (answered : tab.answer? nth r = some after) : Withheld tab after := by
  obtain ⟨flight, held, rfl⟩ := Option.map_eq_some_iff.mp answered
  refine .trans (single (.answers rests held r) fun current => ?_) (run _)
  exact noneBetween_of_undergoes current fun _ => answers_undergoes rests held r

/-- An act is taken in that edits no rule in flight. -/
theorem act (rests : tab.due = []) {a : Act}
    (offered : ∀ asked, a = .page asked → asked.submits = true →
      ∃ c h, tab.page.Offers c h asked)
    (refrains : ∀ asked, a = .page asked → tab.Refrains asked) (entry : Entry) :
    Withheld tab (tab.act a entry) := by
  cases a with
  | page asked =>
    exact (single (.acts rests (offered asked rfl) entry) fun _ =>
      acts_noneBetween (refrains asked rfl) entry).trans (run _)
  | signOut => exact (of_same (.signsOut rests) rfl rfl).trans (run _)
  | dismiss id => exact of_same (.dismisses tab id) rfl rfl

end Withheld

/-! ## Events -/

/-- No submit of the page at hand is in flight. -/
def Free (tab : Tab) : Prop :=
  ∀ s, tab.page = .ruleEditor s → s.draft.value.isSubmitting = false

/-- The pages go on, and no submit is begun. -/
structure Idles (tab after : Tab) : Prop where
  onward : tab.number ≤ after.number
  adds : AddsNoSubmit tab after

namespace Idles

variable {between : Tab}

theorem refl (tab : Tab) : Idles tab tab := ⟨Nat.le_refl _, fun _ _ => id⟩

theorem trans (first : Idles tab between) (second : Idles between after) : Idles tab after :=
  ⟨Nat.le_trans first.onward second.onward, first.adds.trans second.adds⟩

theorem run (tab : Tab) : Idles tab tab.run := by
  have worked : Idles tab (tab.runFor workLimit) :=
    tab.runFor_carries Idles refl trans (fun tab due rest first =>
      have works := works_work { tab with due := rest } due
      ⟨works.number_le, works.addsNoSubmit first⟩) workLimit
  exact worked.trans ⟨Nat.le_refl _, fun _ _ => id⟩

theorem act {a : Act} (other : a ≠ .page (.ruleEditor .submit)) (entry : Entry) :
    Idles tab (tab.act a entry) := by
  cases a with
  | page asked =>
    refine .trans ⟨Nat.le_of_eq (takeTurn_number ..).symm, takeTurn_addsNoSubmit fun _ called => ?_⟩
      (run _)
    exact other (congrArg Act.page (Page.submit_handle called).1)
  | signOut =>
    have out : Idles tab ({ tab with session := tab.session.signOut }.push .signedOut) :=
      ⟨Nat.le_refl _, fun page submission submits => by
        simpa [Submits, calls, push, Due.flight?] using submits⟩
    exact out.trans (run _)
  | dismiss toast => exact ⟨Nat.le_refl _, fun _ _ => id⟩

end Idles

theorem Free.idles (free : tab.Free) (idles : Idles tab after) (sound : tab.Sound)
    (still : after.Sound) : after.Free := by
  intro t shown
  by_contra busy
  obtain ⟨submission, submits⟩ := submits_of_busy still shown (eq_true_of_ne_false busy)
  have old := idles.adds _ submission submits
  have same : after.number = tab.number := Nat.le_antisymm (sound.made _ old) idles.onward
  rw [same] at old
  obtain ⟨s, before, inFlight⟩ := old.busy sound
  cases inFlight.symm.trans (free s before)

/-- What is heard along a chain of elements edits no rule. -/
def Editless (chain : List (Node Act)) : Prop :=
  ∀ h asked, .page asked ∈ heard h (chain.map Node.listeners) → asked = .ruleEditor .submit

/-- Events may follow along a chain of elements: no submit is in flight, or none of them edits. -/
structure Poised (chain : List (Node Act)) (tab : Tab) : Prop where
  current : tab.Current
  rests : tab.due = []
  calm : tab.Free ∨ Editless chain

/-- The events of a step let no edit in between, and others may follow. -/
def Carries (chain : List (Node Act)) (tab after : Tab) : Prop :=
  Poised chain tab → LeadsUnedited tab after ∧ Poised chain after

theorem Carries.trans {chain : List (Node Act)} {between : Tab} (first : Carries chain tab between)
    (second : Carries chain between after) : Carries chain tab after := fun poised =>
  have ⟨there, still⟩ := first poised
  have ⟨on, again⟩ := second still
  ⟨there.trans on, again⟩

section Firing

variable {start : Tab} {spot : Spot Act} {h : Happening}

/-- An event that submits no form is heard by an element as it was at the start of a step. -/
theorem fire_carries (mem : spot ∈ spots start.body) (noSubmit : h.event ≠ .submit) :
    Carries spot.chain tab (tab.fire h spot.chain) := by
  intro poised
  rcases fire_cases mem (List.suffix_refl _) h tab with same | ⟨a, hears, acted⟩
  · rw [same]
    exact ⟨.refl, poised⟩
  · rw [acted]
    have offered := hears.offered_act
    have heard : a ∈ heard h (spot.chain.map Node.listeners) := by
      rw [hears.alone]
      exact List.mem_singleton_self a
    have plain (asked : Page.Act) (same : a = .page asked) : asked.submits ≠ true := by
      intro submits
      obtain ⟨c, offers⟩ := offered asked same
      exact noSubmit (offers.submits submits).1
    have refrains (asked : Page.Act) (same : a = .page asked) : tab.Refrains asked := by
      rintro s shown busy b rfl
      rcases poised.calm with free | editless
      · cases busy.symm.trans (free s shown)
      · cases editless h _ (same ▸ heard)
        rfl
    have other : a ≠ .page (.ruleEditor .submit) := fun same => plain _ same rfl
    obtain ⟨leads, current⟩ := Withheld.act poised.rests
      (fun asked same submits => absurd submits (plain asked same)) refrains h.entry poised.current
    refine ⟨leads, current, act_due poised.rests _ _, poised.calm.imp_left fun free => ?_⟩
    exact free.idles (.act other _) poised.current.sound current.sound

theorem dresses_carries (chain : List (Node Act)) (strays : List Stray) :
    Carries chain tab { tab with strays } := fun poised =>
  have ⟨leads, current⟩ := Withheld.of_same (.dresses tab strays) rfl rfl poised.current
  ⟨leads, current, poised.rests, poised.calm⟩

/-- An event that is no use of a control brings no edit about. -/
theorem fire_withheld (rests : tab.due = []) (loose : tab.Loose) (mem : spot ∈ spots tab.body)
    {chain : List (Node Act)} (suffix : chain <:+ spot.chain)
    (other : h.event = .submit ∨ h.event = .keydown) : Withheld tab (tab.fire h chain) := by
  rcases fire_cases mem suffix h tab with same | ⟨a, hears, acted⟩
  · rw [same]
    exact .refl tab
  · rw [acted]
    refine .act rests (fun asked same _ => ?_) (fun asked same s shown busy b edits => ?_) h.entry
    · obtain ⟨c, offers⟩ := hears.offered_act asked same
      exact ⟨c, h, offers⟩
    · have heard : .page asked ∈ heard h (chain.map Node.listeners) := by
        rw [hears.alone, same]
        exact List.mem_singleton_self _
      -- The elements around an element are heard as if the event were on the innermost of them.
      rcases suffix_spotsAmong [] [] 0 tab.body spot mem chain suffix with
        outside | ⟨t, within_, at_⟩
      · rw [List.suffix_nil.mp outside] at heard
        cases heard
      · rw [← at_] at heard
        cases edits.symm.trans (submit_of_heard_event shown loose other within_ heard)
        rfl

theorem afterClick_withheld (rests : tab.due = []) (loose : tab.Loose) (spot : Spot Act) :
    Withheld tab (tab.afterClick spot) := by
  unfold Tab.afterClick
  split
  · exact .visit rests _
  · split
    · split
      · rename_i form found
        obtain ⟨now, again, formed⟩ := Option.bind_eq_some_iff.mp found
        exact fire_withheld rests loose (List.mem_of_find?_eq_some again) (mem_formChain formed)
          (.inl rfl)
      · exact .refl tab
    · exact .refl tab

end Firing

/-! ## Steps -/

/-- The step is made on no element that stands in a disabled control: such a control keeps the
events of what is in it to itself. -/
def permits (tab : Tab) : Step → Bool
  | .click t | .input t _ | .change t _ | .check t =>
    (find? tab.body t.look t.nth).all Spot.isExposed
  | _ => true

/-- All steps of a run are permitted where they are made. -/
def permitsAll (tab : Tab) : List Step → Bool
  | [] => true
  | s :: steps => tab.permits s && (tab.step s).1.permitsAll steps

section Steps

/-- On an element that is enabled and exposed events may follow each other. -/
theorem Current.poised (current : tab.Current) (rests : tab.due = []) (loose : tab.Loose)
    {spot : Spot Act} (mem : spot ∈ spots tab.body) (exposed : spot.isExposed = true)
    (enabled : spot.isDisabled = false) : Poised spot.chain tab where
  current := current
  rests := rests
  calm := by
    by_cases free : tab.Free
    · exact .inl free
    · simp only [Free, not_forall] at free
      obtain ⟨s, shown, busy⟩ := free
      exact .inr fun h asked heard =>
        submit_of_heard shown loose (eq_true_of_ne_false busy) mem exposed enabled heard

theorem onEnabled_withheld (rests : tab.due = []) (loose : tab.Loose) {t : Target}
    (permitted : (find? tab.body t.look t.nth).all Spot.isExposed = true)
    {f : Spot Act → Tab × StepResult}
    (does : ∀ spot ∈ spots tab.body, Poised spot.chain tab →
      LeadsUnedited tab (f spot).1 ∧ (f spot).1.Current) :
    Withheld tab (tab.onEnabled t f).1 := by
  intro current
  unfold Tab.onEnabled
  split
  · exact ⟨.refl, current⟩
  · rename_i spot found
    split
    · exact ⟨.refl, current⟩
    · rename_i enabled
      have mem := mem_spots_of_find? found
      rw [found] at permitted
      exact does spot mem (current.poised rests loose mem permitted (eq_false_of_ne_true enabled))

section Chains

variable {spot : Spot Act} (mem : spot ∈ spots tab.body)

include mem

theorem event_carries (acting : Tab) (event : Event) (noSubmit : event ≠ .submit) (entry : Entry) :
    Carries spot.chain acting (acting.fire { event, entry } spot.chain) :=
  fire_carries mem noSubmit

theorem input_carries (value : String) : Carries spot.chain tab (tab.input spot value) :=
  (dresses_carries _ _).trans (event_carries mem _ .input nofun _)

theorem change_carries (value : String) : Carries spot.chain tab (tab.change spot value) :=
  (input_carries mem value).trans (event_carries mem _ .change nofun _)

theorem check_carries : Carries spot.chain tab (tab.check spot) :=
  (((dresses_carries _ _).trans (event_carries mem _ .click nofun _)).trans
    (event_carries mem _ .input nofun _)).trans (event_carries mem _ .change nofun _)

end Chains

/-- A step that is permitted lets no edit in between a submit and its answer. -/
theorem step_withheld (rests : tab.due = []) (loose : tab.Loose) {step : Step}
    (permitted : tab.permits step = true) : Withheld tab (tab.step step).1 := by
  cases step with
  | visit path => exact .visit rests path
  | reply r nth =>
    simp only [Tab.step]
    split
    · rename_i answered
      exact .answer rests answered
    · exact .refl tab
  | wait ms => exact .of_same (.waits tab ms) rfl rfl
  | keep key value =>
    exact .of_same (.keeps tab key value) (by cases value <;> rfl) (by cases value <;> rfl)
  | click t =>
    refine onEnabled_withheld rests loose permitted fun spot mem poised => ?_
    obtain ⟨leads, heard⟩ := event_carries mem tab .click (by decide) {} poised
    obtain ⟨on, current⟩ :=
      afterClick_withheld heard.rests (loose_upheld.fire loose _ _) spot heard.current
    exact ⟨leads.trans on, current⟩
  | input t value =>
    refine onEnabled_withheld rests loose permitted fun spot mem poised => ?_
    exact (input_carries mem value poised).imp_right Poised.current
  | change t value =>
    refine onEnabled_withheld rests loose permitted fun spot mem poised => ?_
    split
    · exact ⟨.refl, poised.current⟩
    · exact (change_carries mem value poised).imp_right Poised.current
  | check t =>
    refine onEnabled_withheld rests loose permitted fun spot mem poised => ?_
    exact (check_carries mem poised).imp_right Poised.current
  | key t key | submit t =>
    simp only [Tab.step]
    split
    · exact .refl tab
    · rename_i found
      exact fire_withheld rests loose (mem_spots_of_find? found) (List.suffix_refl _) (by simp)

theorem after_withheld (rests : tab.due = []) (loose : tab.Loose) {steps : List Step}
    (permitted : tab.permitsAll steps = true) : Withheld tab (tab.after steps) := by
  induction steps generalizing tab with
  | nil => exact .refl tab
  | cons step steps ih =>
    obtain ⟨first, others⟩ := (Bool.and_eq_true _ _).mp permitted
    exact (step_withheld rests loose first).trans
      (ih (step_due rests step) (loose.step step) others)

end Steps

/-! ## The rule that was sent -/

section Flights

theorem Works.flights (works : Works tab due after) : tab.flights ⊆ after.flights := by
  cases works with
  | mounts => rw [takeTurn_flights]; exact List.Subset.refl _
  | calls page c =>
    rcases tab.send_cases page c with
      ⟨-, sent⟩ | ⟨request, -, ⟨r, server, -, sent⟩ | ⟨server, -, sent⟩⟩
    · rw [sent, settleCall_flights]; exact List.Subset.refl _
    · rw [sent, reply, settleCall_flights]; exact List.Subset.refl _
    · rw [sent]; exact List.subset_append_left _ _
  | goes path => rw [follow, goto_flights]; exact List.Subset.refl _
  | signsOut => rw [follow, goto_flights]; exact List.Subset.refl _
  | expires => rw [follow, goto_flights]; exact List.Subset.refl _
  | left own elsewhere => exact List.Subset.refl _
  | seen => exact List.Subset.refl _

theorem run_flights (tab : Tab) : tab.flights ⊆ tab.run.flights :=
  tab.runFor_carries (fun a b => a.flights ⊆ b.flights) (fun _ => List.Subset.refl _)
    List.Subset.trans (fun tab due rest _ => (works_work { tab with due := rest } due).flights)
    workLimit

/-- A call that waits for its reply waits for it through all events. -/
theorem flight_upheld (f : Flight) : Upheld fun tab => f ∈ tab.flights where
  acts tab mem a entry := by
    cases a with
    | page asked =>
      refine run_flights _ ?_
      rw [takeTurn_flights]
      exact mem
    | signOut => exact run_flights _ mem
    | dismiss id => exact mem
  visits tab mem path := by
    refine run_flights _ ?_
    rw [follow, goto_flights]
    exact mem
  types _ mem _ _ := mem
  ticks _ mem _ _ := mem

end Flights

/-- An editor between two steps: its controls, and the rule that it submits if it does. -/
structure Unedited (tab : Tab) (s : RuleEditor) : Prop where
  /-- Beside the form there are buttons to sign out and to close toasts. -/
  controls : (spots tab.body).filterMap Spot.control? =
    (if tab.chrome.visible then [("button", false)] else []) ++
      (if s.isReady then
        (formControls s.draft.value.rule).map fun tag => (tag, s.draft.value.isSubmitting)
      else []) ++
      tab.toasts.queue.map fun _ => ("button", false)
  inFlight : s.draft.value.isSubmitting = true →
    ∃ submission, ⟨tab.number, .ruleEditor (.submit submission)⟩ ∈ tab.flights
  awaits : ∀ submission, ⟨tab.number, .ruleEditor (.submit submission)⟩ ∈ tab.flights →
    s.draft.value.Awaits submission
  events : s.draft.value.isSubmitting = true → ∀ step, step.isEvent = true →
    tab.permits step = true → (tab.step step).1.number ≠ tab.number ∨
      ∃ t, (tab.step step).1.page = .ruleEditor t ∧
        t.draft.value.rule = s.draft.value.rule ∧ t.draft.value.phase = s.draft.value.phase

section Unedited

variable {s : RuleEditor}

theorem submits_iff_of_rests (rests : tab.due = []) {submission : Submission} :
    tab.Submits page submission ↔ ⟨page, .ruleEditor (.submit submission)⟩ ∈ tab.flights := by
  unfold Submits
  rw [mem_calls_iff, rests]
  simp

theorem Current.unedited (current : tab.Current) (rests : tab.due = []) (loose : tab.Loose)
    (shown : tab.page = .ruleEditor s) : Unedited tab s where
  controls := controls_body shown loose
  inFlight busy := by
    obtain ⟨submission, submits⟩ := submits_of_busy current.sound shown busy
    exact ⟨submission, (submits_iff_of_rests rests).mp submits⟩
  awaits submission waits :=
    current.awaits s submission shown ((submits_iff_of_rests rests).mpr waits)
  events busy step event permitted := by
    obtain ⟨submission, submits⟩ := submits_of_busy current.sound shown busy
    have waits := (flight_upheld _).step ((submits_iff_of_rests rests).mp submits) event
    obtain ⟨-, still⟩ := step_withheld rests loose permitted current
    have quiet := step_due rests step
    generalize (tab.step step).1 = after at waits still quiet ⊢
    refine or_iff_not_imp_left.mpr fun same => ?_
    have same := not_not.mp same
    have submitted : after.Submits after.number submission := by
      rw [same]
      exact (submits_iff_of_rests quiet).mpr waits
    obtain ⟨t, now, -⟩ := submitted.busy still.sound
    have before := current.awaits s submission shown submits
    have later := still.awaits t submission now submitted
    exact ⟨t, now, later.rule.trans before.rule.symm, later.phase.trans before.phase.symm⟩

theorem launched_current (session : Session) (server : Server) (path : String) :
    (launched session server path).Current where
  sound := launched_sound session server path
  awaits _ _ _ submits := nomatch submits

end Unedited

/-- The controls in the form of a rule are disabled while a submit is in flight, and at no other
time. So in every run of the console no edit comes between a submit and its answer: what a submit
that succeeds replaces is the rule that was sent. -/
theorem no_edit_in_flight :
    (∀ (s : RuleEditor) (path : List Nat) (outer : List (Node RuleEditor.Act)),
      outer.any Node.freezes = false →
        (spotsOf path outer s.form).filterMap Spot.control? =
          (formControls s.draft.value.rule).map fun tag => (tag, s.draft.value.isSubmitting)) ∧
    ∀ (session : Session) (server : Server) (path : String) (steps : List Step),
      (opened session server path).permitsAll steps = true →
        LeadsUnedited (launched session server path) ((opened session server path).after steps) ∧
          ∀ s, ((opened session server path).after steps).page = .ruleEditor s →
            Unedited ((opened session server path).after steps) s := by
  refine ⟨fun s path outer free => s.controls_form path free,
    fun session server path steps permitted => ?_⟩
  have loose := loose_after session server path []
  have rests := after_due session server path []
  have whole : Withheld (launched session server path)
      ((opened session server path).after steps) :=
    (opened_eq session server path ▸ Withheld.run _ : Withheld _ (opened session server path)).trans
      (after_withheld rests loose permitted)
  obtain ⟨leads, current⟩ := whole (launched_current session server path)
  exact ⟨leads, fun s shown => current.unedited (after_due session server path steps)
    (loose_after session server path steps) shown⟩

def saveRuleButton : Target where
  look := { tag := some "button", text := some "Save rule" }

def signedIn : Session where
  entries := some [("access_token", "t")]

/-- A filter is added to a new rule, and the rule is submitted to a server that does not answer. -/
def savesNewRule : List Step :=
  [.click addFilterButton, .click saveRuleButton]

/-- The row of the added filter is disabled with the rest of the form. -/
theorem no_edit_in_flight_savesNewRule :
    (opened signedIn {} "/rules/new").permitsAll savesNewRule = true ∧
      ∃ s, ((opened signedIn {} "/rules/new").after savesNewRule).page = .ruleEditor s ∧
        (spotsOf [] [] s.form).filterMap Spot.control? =
          (["input", "textarea", "select", "select", "input", "input", "input", "select", "input",
            "button", "button", "button", "button"].map fun tag => (tag, true)) ∧
        Unedited ((opened signedIn {} "/rules/new").after savesNewRule) s := by
  have permitted : (opened signedIn {} "/rules/new").permitsAll savesNewRule = true := by
    decide +kernel
  have tags : ((opened signedIn {} "/rules/new").after savesNewRule).page.rule?.map formControls =
      some ["input", "textarea", "select", "select", "input", "input", "input", "select", "input",
        "button", "button", "button", "button"] := by
    decide +kernel
  have waits : ((opened signedIn {} "/rules/new").after savesNewRule).calls.countP
      (Flight.isOf ((opened signedIn {} "/rules/new").after savesNewRule).number
        Page.Call.submits) = 1 := by
    decide +kernel
  have sound : ((opened signedIn {} "/rules/new").after savesNewRule).Sound :=
    (leads_after signedIn {} "/rules/new" savesNewRule).sound (launched_sound ..)
  obtain ⟨forms, runs⟩ := no_edit_in_flight
  obtain ⟨-, unedited⟩ := runs signedIn {} "/rules/new" savesNewRule permitted
  refine ⟨permitted, ?_⟩
  generalize (opened signedIn {} "/rules/new").after savesNewRule = tab at tags waits sound unedited
  cases shown : tab.page with
  | ruleEditor s =>
    rw [shown] at tags
    have busy := Bool.toNat_eq_one.mp ((sound.steady s shown).busy.symm.trans waits)
    refine ⟨s, rfl, ?_, unedited s shown⟩
    rw [forms s [] [] rfl, busy, Option.some.inj tags]
  | _ => rw [shown] at tags; cases tags

end Tab

end GrantConsole.Console
