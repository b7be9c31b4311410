import GrantConsole.Proofs.Console.Document
import GrantConsole.Proofs.Console.Rest

/-!
# What a step does

A step of an operator is one event on an element of the document, or several that follow each other:
a click may submit a form or follow a link, a change comes after an input, a checkbox that is turned
over is clicked first. The first event is heard in the document as it is. Those that come after it
are heard by elements as they were, but they are no clicks and no keys; and a form is submitted only
as the document shows it at that time.
-/

namespace GrantConsole.Console

open GrantConsole.Markup GrantConsole.Screen

namespace Tab

/-- An event on an element is heard as one act, which the element or one around it offers. -/
structure Hears (tab : Tab) (chain : List (Node Act)) (h : Happening) (a : Act) : Prop where
  alone : heard h (chain.map Node.listeners) = [a]
  offered : ∃ n ∈ chain, ∃ c, IsControl n c ∧ tab.Offers c h a

/-- The tab with other properties that the program does not set. -/
def Redressed (tab other : Tab) : Prop :=
  ∃ strays, other = { tab with strays }

/-- What the first event of a step leaves room for. -/
inductive Later : Tab → Tab → Prop
  | none (tab : Tab) : Later tab tab
  | visits {tab mid : Tab} (before : Later tab mid) (path : String) : Later tab (mid.visit path)
  | hears {tab mid other : Tab} {chain : List (Node Act)} {h : Happening} {a : Act}
      (before : Later tab mid) (heard : other.Hears chain h a) (noClick : h.event ≠ .click)
      (submitted : h.event = .submit → mid.Hears chain h a) : Later tab (mid.act a h.entry)

/-- The element that a step clicks, if it does. -/
def clicked? (tab : Tab) : Step → Option (Spot Act)
  | .click t => (find? tab.body t.look t.nth).filter fun spot => !spot.isDisabled
  | .check t => (find? tab.body t.look t.nth).filter fun spot => !spot.isDisabled
  | _ => none

/-- What a step does. -/
inductive Does (tab : Tab) (s : Step) : Tab → Prop
  | nothing : Does tab s tab
  | visits (path : String) : Does tab s (tab.visit path)
  | answers {nth : Nat} {r : Reply} {after : Tab} (answered : tab.answer? nth r = some after) :
      Does tab s after
  | waits (ms : Nat) : Does tab s (tab.wait ms)
  | keeps (key : String) (value : Option String) : Does tab s (tab.keep key value)
  | unheard {before after : Tab} (dressed : tab.Redressed before) (later : Later before after) :
      Does tab s after
  | hears {before after : Tab} {spot : Spot Act} {h : Happening} {a : Act}
      (dressed : tab.Redressed before) (mem : spot ∈ spots tab.body)
      (heard : tab.Hears spot.chain h a) (click : h.event = .click → tab.clicked? s = some spot)
      (later : Later (before.act a h.entry) after) : Does tab s after

section Firing

variable {tab before : Tab} {s : Step}

/-- An event on an element of the document brings about one act at most, and it is offered there. -/
theorem fire_cases {spot : Spot Act} (mem : spot ∈ spots tab.body) {chain : List (Node Act)}
    (suffix : chain <:+ spot.chain) (h : Happening) (acting : Tab) :
    acting.fire h chain = acting ∨
      ∃ a, tab.Hears chain h a ∧ acting.fire h chain = acting.act a h.entry := by
  rw [fire_eq]
  rcases tab.heard_spot mem suffix h with silent | ⟨n, within_, c, a, is, one, offers⟩
  · exact .inl (by rw [silent]; rfl)
  · exact .inr ⟨a, ⟨one, n, within_, c, is, offers⟩, by rw [one]; rfl⟩

/-- A later event is heard by the elements as they were. -/
theorem Later.fires {mid : Tab} (later : Later before mid) {spot : Spot Act}
    (mem : spot ∈ spots tab.body) {h : Happening} (noClick : h.event ≠ .click)
    (noSubmit : h.event ≠ .submit) : Later before (mid.fire h spot.chain) := by
  rcases fire_cases mem (List.suffix_refl _) h mid with same | ⟨a, heard, acted⟩
  · rw [same]
    exact later
  · rw [acted]
    exact later.hears heard noClick fun submit => absurd submit noSubmit

theorem mem_formChain : ∀ {chain form : List (Node Act)}, formChain chain = some form →
    form <:+ chain
  | n :: around, form, found => by
    unfold formChain at found
    split at found
    · cases found
      exact List.suffix_refl _
    · exact (mem_formChain found).trans (List.suffix_cons n around)

theorem Later.afterClick {mid : Tab} (later : Later before mid) (spot : Spot Act) :
    Later before (mid.afterClick spot) := by
  unfold Tab.afterClick
  split
  · exact later.visits _
  · split
    · split
      · rename_i form found
        obtain ⟨now, again, formed⟩ := Option.bind_eq_some_iff.mp found
        have mem : now ∈ spots mid.body := List.mem_of_find?_eq_some again
        rcases fire_cases mem (mem_formChain formed) { event := .submit } mid with
          same | ⟨a, heard, acted⟩
        · rw [same]
          exact later
        · rw [acted]
          exact later.hears heard nofun fun _ => heard
      · exact later
    · exact later

theorem mem_spots_of_find? {body : List (Node Act)} {look : Look} {nth : Nat} {spot : Spot Act}
    (found : find? body look nth = some spot) : spot ∈ spots body :=
  (List.mem_filter.mp (List.mem_of_getElem? found)).1

/-- The first event of a step, with what comes after it. -/
theorem Does.fires {spot : Spot Act} {h : Happening} {after : Tab} (dressed : tab.Redressed before)
    (mem : spot ∈ spots tab.body) (click : h.event = .click → tab.clicked? s = some spot)
    (later : Later (before.fire h spot.chain) after) : Does tab s after := by
  rcases fire_cases mem (List.suffix_refl _) h before with same | ⟨a, heard, acted⟩
  · rw [same] at later
    exact .unheard dressed later
  · rw [acted] at later
    exact .hears dressed mem heard click later

theorem Redressed.setProperty (tab : Tab) (spot : Spot Act) (property : Attribute) :
    tab.Redressed (tab.setProperty spot property) :=
  ⟨_, rfl⟩

theorem Redressed.refl (tab : Tab) : tab.Redressed tab :=
  ⟨tab.strays, rfl⟩

/-- What is done to an element that is there and enabled. -/
theorem Does.onEnabled {t : Target} {f : Spot Act → Tab × StepResult}
    (does : ∀ spot, (find? tab.body t.look t.nth).filter (fun spot => !spot.isDisabled) = some spot →
      spot ∈ spots tab.body → Does tab s (f spot).1) :
    Does tab s (tab.onEnabled t f).1 := by
  unfold Tab.onEnabled
  split
  · exact .nothing
  · rename_i spot found
    split
    · exact .nothing
    · rename_i enabled
      refine does spot ?_ (mem_spots_of_find? found)
      simp [found, enabled]

end Firing

theorem does_step (tab : Tab) (s : Step) : Does tab s (tab.step s).1 := by
  cases s with
  | visit path => exact .visits path
  | reply r nth =>
    simp only [step]
    split
    · rename_i answered
      exact .answers answered
    · exact .nothing
  | wait ms => exact .waits ms
  | keep key value => exact .keeps key value
  | click t =>
    exact .onEnabled fun spot enabled mem =>
      .fires (.refl tab) mem (fun _ => enabled) ((Later.none _).afterClick spot)
  | input t value =>
    exact .onEnabled fun spot enabled mem =>
      .fires (.setProperty tab spot _) mem (by simp) (.none _)
  | change t value =>
    refine .onEnabled fun spot enabled mem => ?_
    split
    · exact .nothing
    · exact .fires (.setProperty tab spot _) mem (by simp)
        ((Later.none _).fires mem (by simp) (by simp))
  | check t =>
    exact .onEnabled fun spot enabled mem =>
      .fires (.setProperty tab spot _) mem (fun _ => enabled)
        (((Later.none _).fires mem (by simp) (by simp)).fires mem (by simp) (by simp))
  | key t key =>
    simp only [step]
    split
    · exact .nothing
    · rename_i found
      exact .fires (.refl tab) (mem_spots_of_find? found) (by simp) (.none _)
  | submit t =>
    simp only [step]
    split
    · exact .nothing
    · rename_i found
      exact .fires (.refl tab) (mem_spots_of_find? found) (by simp) (.none _)

theorem onEnabled_of_clicked {tab : Tab} {t : Target} {spot : Spot Act}
    (there : (find? tab.body t.look t.nth).filter (fun spot => !spot.isDisabled) = some spot)
    (f : Spot Act → Tab × StepResult) : tab.onEnabled t f = f spot ∧ spot ∈ spots tab.body := by
  obtain ⟨found, free⟩ := Option.filter_eq_some_iff.mp there
  have open_ : spot.isDisabled = false := by simpa using free
  exact ⟨by simp [onEnabled, found, open_], mem_spots_of_find? found⟩

/-- A step that clicks an element lets it be heard before all else. -/
theorem clicked_fires {tab : Tab} {s : Step} {spot : Spot Act}
    (clicked : tab.clicked? s = some spot) :
    ∃ before h, tab.Redressed before ∧ h.event = .click ∧
      Later (before.fire h spot.chain) (tab.step s).1 := by
  cases s with
  | click t =>
    obtain ⟨same, -⟩ := onEnabled_of_clicked clicked fun spot => (tab.click spot, .done)
    refine ⟨tab, { event := .click }, .refl tab, rfl, ?_⟩
    rw [step, same]
    exact (Later.none _).afterClick spot
  | check t =>
    obtain ⟨same, mem⟩ := onEnabled_of_clicked clicked fun spot => (tab.check spot, .done)
    rw [step, same]
    exact ⟨_, _, .setProperty tab spot _, rfl,
      ((Later.none _).fires mem (by simp) (by simp)).fires mem (by simp) (by simp)⟩
  | _ => cases clicked

/-! ## Runs -/

/-- The console after steps. -/
def after (tab : Tab) (steps : List Step) : Tab :=
  steps.foldl (fun tab s => (tab.step s).1) tab

@[simp] theorem after_nil (tab : Tab) : tab.after [] = tab := rfl

@[simp] theorem after_concat (tab : Tab) (steps : List Step) (s : Step) :
    tab.after (steps ++ [s]) = ((tab.after steps).step s).1 := by
  simp [after]

theorem Later.due {before after : Tab} (later : Later before after) (rests : before.due = []) :
    after.due = [] := by
  induction later with
  | none => exact rests
  | visits before path ih => exact visit_due ih path
  | hears before heard noClick submitted ih => exact act_due ih _ _

theorem Redressed.page {tab before : Tab} (dressed : tab.Redressed before) :
    before.page = tab.page := by
  obtain ⟨strays, rfl⟩ := dressed
  rfl

theorem Redressed.number {tab before : Tab} (dressed : tab.Redressed before) :
    before.number = tab.number := by
  obtain ⟨strays, rfl⟩ := dressed
  rfl

theorem Redressed.due {tab before : Tab} (dressed : tab.Redressed before) :
    before.due = tab.due := by
  obtain ⟨strays, rfl⟩ := dressed
  rfl

theorem step_due {tab : Tab} (rests : tab.due = []) (s : Step) : (tab.step s).1.due = [] := by
  have does := does_step tab s
  generalize (tab.step s).1 = after at does
  cases does with
  | nothing => exact rests
  | visits path => exact visit_due rests path
  | answers answered => exact answer_due rests answered
  | waits ms => exact rests
  | keeps key value => cases value <;> exact rests
  | unheard dressed later => exact later.due (dressed.due.trans rests)
  | hears dressed mem heard click later =>
    exact later.due (act_due (dressed.due.trans rests) _ _)

/-- Between the steps of a run nothing is due: the limit on pieces of work is never reached. -/
theorem after_due (session : Session) (server : Server) (path : String) (steps : List Step) :
    ((opened session server path).after steps).due = [] := by
  have kept (tab : Tab) (rests : tab.due = []) : (tab.after steps).due = [] := by
    induction steps generalizing tab with
    | nil => exact rests
    | cons s steps ih => exact ih _ (step_due rests s)
  exact kept _ (opened_due session server path)

end Tab

end GrantConsole.Console
