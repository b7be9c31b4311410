import GrantConsole.Api.Failure
import GrantConsole.Session.Basic
import GrantConsole.Toast.Basic

/-!
# Turns of a screen

A screen is the page at hand with its state. What an operator does and what the server answers are
turns of it: the state and the session change, and commands go out. Commands show toasts, make calls
and go to other places.
-/

namespace GrantConsole.Screen

/-- The inputs that are read only when a change of them is finished. -/
inductive LateField
  | category
  | user
  | role
  | template
  | ruleType
  | aggregator
  | filterOperator (index : Nat)
  | conditionOperator (index : Nat)
  | conditionOrder (index : Nat)
deriving Repr, DecidableEq

/--
A value that inputs show. What is typed into an input that is read later stands there until the
value is written again, be it with what it was.
-/
structure Cell (α : Type) where
  value : α
  typed : List (LateField × String) := []
deriving Repr, DecidableEq

namespace Cell

variable {α : Type}

def update (c : Cell α) (f : α → α) : Cell α :=
  ⟨f c.value, []⟩

def set (_ : Cell α) (a : α) : Cell α :=
  ⟨a, []⟩

def type (c : Cell α) (field : LateField) (s : String) : Cell α :=
  { c with typed := (field, s) :: c.typed }

/-- What an input shows, where `s` is what the value has for it. -/
def shown (c : Cell α) (field : LateField) (s : String) : String :=
  (c.typed.lookup field).getD s

end Cell

/-- What an input holds when its event comes. -/
structure Entry where
  value : String := ""
  checked : Bool := false
deriving Repr, DecidableEq

inductive Command (C : Type)
  | toast (kind : ToastKind) (text : String)
  | call (c : C)
  | goto (path : String)
deriving Repr, DecidableEq

/-- What a turn leaves behind. -/
structure Turn (S C : Type) where
  state : S
  session : Session
  commands : List (Command C) := []

namespace Turn

variable {S T C D : Type}

def map (f : S → T) (g : C → D) (t : Turn S C) : Turn T D :=
  ⟨f t.state, t.session, t.commands.map fun
    | .toast kind text => .toast kind text
    | .call c => .call (g c)
    | .goto path => .goto path⟩

/-- More commands before those of a turn. -/
def after (commands : List (Command C)) (t : Turn S C) : Turn S C :=
  { t with commands := commands ++ t.commands }

end Turn

def success {C : Type} (text : String) : Command C :=
  .toast .success text

def failure {C : Type} (text : String) : Command C :=
  .toast .error text

/-- A part of a state that can be put back. -/
structure Part (S A : Type) where
  get : S → A
  put : S → A → S

namespace Part

variable {S A : Type}

def modify (part : Part S A) (f : A → A) (s : S) : S :=
  part.put s (f (part.get s))

end Part

end GrantConsole.Screen
