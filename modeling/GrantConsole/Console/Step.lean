import GrantConsole.Console.Tab
import GrantConsole.Markup.Find

/-!
# Steps of an operator

What an operator, the server and the clock do to the running console. An event is heard by its
element and then by those around it, and all that it brings about is done before the next listener
hears it. After the listeners a click follows the link or submits the form that it was made on.
-/

namespace GrantConsole.Console

open GrantConsole.Markup GrantConsole.Screen

/-- An element by its look and its number among those of that look. -/
structure Target where
  look : Look
  nth : Nat := 0
deriving Repr, DecidableEq

inductive Step
  | visit (path : String)
  | reply (r : Reply) (nth : Nat)
  | wait (ms : Nat)
  | keep (key : String) (value : Option String)
  | click (target : Target)
  | input (target : Target) (value : String)
  | change (target : Target) (value : String)
  | check (target : Target)
  | key (target : Target) (key : String)
  | submit (target : Target)
deriving Repr

inductive StepResult
  | done
  | missing
  | disabled
  /-- The drop-down has no such option. -/
  | noOption
deriving Repr, DecidableEq

namespace Tab

/-- An event with what it says: the key pressed, and what its element holds. -/
structure Happening where
  event : Event
  key : String := ""
  entry : Entry := {}
deriving Repr, DecidableEq

/-- Lets one listener hear an event; says whether the event goes on. -/
def hear (tab : Tab) (h : Happening) : Listener Act → Tab × Bool
  | .on event act => if event = h.event then (tab.act act h.entry, true) else (tab, true)
  | .onEscape act =>
    if h.event = .keydown ∧ h.key = "Escape" then (tab.act act h.entry, true) else (tab, true)
  | .stop event => (tab, event != h.event)

/-- Lets the listeners of one element hear an event. -/
def hearAll (tab : Tab) (h : Happening) : List (Listener Act) → Tab × Bool
  | [] => (tab, true)
  | l :: ls =>
    let (tab, goesOn) := tab.hear h l
    let (tab, othersGoOn) := tab.hearAll h ls
    (tab, goesOn && othersGoOn)

/-- Lets an element and those around it hear an event. -/
def fire (tab : Tab) (h : Happening) : List (Node Act) → Tab
  | [] => tab
  | n :: around =>
    let (tab, goesOn) := tab.hearAll h n.listeners
    if goesOn then tab.fire h around else tab

/-- The path of the link that an element is, or is in. -/
def linkOf (chain : List (Node Act)) : Option String :=
  chain.findSome? fun n => if n.isTag "a" then n.attribute? "href" else none

/-- What a click does by itself once it has been heard. -/
def afterClick (tab : Tab) (spot : Spot Act) : Tab :=
  match linkOf spot.chain with
  | some path => tab.visit path
  | none =>
    if spot.chain.head?.any isSubmitButton then
      match (spot.again? tab.body).bind fun s => formChain s.chain with
      | some form => tab.fire { event := .submit } form
      | none => tab
    else tab

def click (tab : Tab) (spot : Spot Act) : Tab :=
  (tab.fire { event := .click } spot.chain).afterClick spot

/-- What an element would hold with a text typed into it. -/
def entryOf (spot : Spot Act) (value : String) : Entry :=
  ⟨value, spot.chain.head?.any Node.isChecked⟩

def input (tab : Tab) (spot : Spot Act) (value : String) : Tab :=
  let tab := tab.setProperty spot (.value value)
  tab.fire { event := .input, entry := entryOf spot value } spot.chain

def change (tab : Tab) (spot : Spot Act) (value : String) : Tab :=
  (tab.input spot value).fire { event := .change, entry := entryOf spot value } spot.chain

/-- A drop-down takes none but its options. -/
def lacksOption (spot : Spot Act) (value : String) : Bool :=
  spot.chain.head?.any fun n => n.isTag "select" && !(optionValues n).contains value

/-- Turns a checkbox over. -/
def check (tab : Tab) (spot : Spot Act) : Tab :=
  let checked := !spot.chain.head?.any Node.isChecked
  let entry : Entry := ⟨(spot.chain.head?.bind Node.shownValue?).getD "", checked⟩
  let tab := (tab.setProperty spot (.checked checked)).fire { event := .click, entry } spot.chain
  let tab := tab.fire { event := .input, entry } spot.chain
  tab.fire { event := .change, entry } spot.chain

/-- Does something to the element of a target, if it is there and enabled. -/
def onEnabled (tab : Tab) (t : Target) (f : Spot Act → Tab × StepResult) :
    Tab × StepResult :=
  match find? tab.body t.look t.nth with
  | none => (tab, .missing)
  | some spot => if spot.isDisabled then (tab, .disabled) else f spot

def step (tab : Tab) : Step → Tab × StepResult
  | .visit path => (tab.visit path, .done)
  | .reply r nth =>
    match tab.answer? nth r with
    | some tab => (tab, .done)
    | none => (tab, .missing)
  | .wait ms => (tab.wait ms, .done)
  | .keep key value => (tab.keep key value, .done)
  | .click t => tab.onEnabled t fun spot => (tab.click spot, .done)
  | .input t value => tab.onEnabled t fun spot => (tab.input spot value, .done)
  | .change t value =>
    tab.onEnabled t fun spot =>
      if lacksOption spot value then (tab, .noOption) else (tab.change spot value, .done)
  | .check t => tab.onEnabled t fun spot => (tab.check spot, .done)
  | .key t key =>
    match find? tab.body t.look t.nth with
    | none => (tab, .missing)
    | some spot => (tab.fire { event := .keydown, key } spot.chain, .done)
  | .submit t =>
    match find? tab.body t.look t.nth with
    | none => (tab, .missing)
    | some spot => (tab.fire { event := .submit } spot.chain, .done)

end Tab

end GrantConsole.Console
