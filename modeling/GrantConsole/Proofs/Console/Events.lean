import GrantConsole.Proofs.Console.Steps

/-!
# What events keep

Whatever element it is made on, a step that is made of events does three things only, one after the
other: it lets acts be taken in, follows links, and sets what an element holds. What these three
keep is kept by the step.
-/

namespace GrantConsole.Console

open GrantConsole.Markup GrantConsole.Screen

/-- The step is made of events on an element. -/
def Step.isEvent : Step → Bool
  | .visit _ | .reply _ _ | .wait _ | .keep _ _ => false
  | .click _ | .input _ _ | .change _ _ | .check _ | .key _ _ | .submit _ => true

namespace Tab

/-- What acts, links and inputs keep. -/
structure Upheld (P : Tab → Prop) : Prop where
  acts : ∀ tab, P tab → ∀ a entry, P (tab.act a entry)
  visits : ∀ tab, P tab → ∀ path, P (tab.visit path)
  types : ∀ tab, P tab → ∀ spot value, P (tab.setProperty spot (.value value))
  ticks : ∀ tab, P tab → ∀ spot checked, P (tab.setProperty spot (.checked checked))

namespace Upheld

variable {P : Tab → Prop} {tab : Tab}

theorem fire (upheld : Upheld P) (holds : P tab) (h : Happening) (chain : List (Node Act)) :
    P (tab.fire h chain) := by
  rw [fire_eq]
  generalize heard h (chain.map Node.listeners) = acts
  induction acts generalizing tab with
  | nil => exact holds
  | cons a acts ih => exact ih (upheld.acts tab holds a h.entry)

theorem afterClick (upheld : Upheld P) (holds : P tab) (spot : Spot Act) :
    P (tab.afterClick spot) := by
  unfold Tab.afterClick
  split
  · exact upheld.visits tab holds _
  · split
    · split
      · exact upheld.fire holds _ _
      · exact holds
    · exact holds

theorem onEnabled (holds : P tab) (t : Target) {f : Spot Act → Tab × StepResult}
    (does : ∀ spot, P (f spot).1) : P (tab.onEnabled t f).1 := by
  unfold Tab.onEnabled
  split
  · exact holds
  · split
    · exact holds
    · exact does _

/-- Events that come to an element whether it is enabled or not. -/
theorem onFound (upheld : Upheld P) (holds : P tab) (t : Target) (h : Happening) :
    P (match find? tab.body t.look t.nth with
      | none => (tab, StepResult.missing)
      | some spot => (tab.fire h spot.chain, .done)).1 := by
  split
  · exact holds
  · exact upheld.fire holds _ _

theorem step (upheld : Upheld P) (holds : P tab) {s : Step} (event : s.isEvent = true) :
    P (tab.step s).1 := by
  have typed (spot : Spot Act) (value : String) : P (tab.input spot value) :=
    upheld.fire (upheld.types tab holds spot value) _ _
  cases s with
  | visit path | reply r nth | wait ms | keep key value => cases event
  | click t =>
    exact onEnabled holds t fun spot => upheld.afterClick (upheld.fire holds _ _) spot
  | input t value => exact onEnabled holds t fun spot => typed spot value
  | change t value =>
    refine onEnabled holds t fun spot => ?_
    split
    · exact holds
    · exact upheld.fire (typed spot value) _ _
  | check t =>
    refine onEnabled holds t fun spot => ?_
    exact upheld.fire (upheld.fire (upheld.fire (upheld.ticks tab holds spot _) _ _) _ _) _ _
  | key t key => exact upheld.onFound holds t _
  | submit t => exact upheld.onFound holds t _

end Upheld

end Tab

end GrantConsole.Console
