import GrantConsole.Api.Operation
import GrantConsole.Screen.Basic
import GrantConsole.Screen.Frame

/-!
# The overview page

The projection of the selected grant's funds.
-/

namespace GrantConsole.Screen

open GrantConsole.Api GrantConsole.Markup

structure Overview where
  /-- The title of the grant, once the page has looked for one. -/
  grant : Option String := none
  projection : Option Projection := none
deriving Repr, DecidableEq

namespace Overview

structure Call where
  grant : String
deriving Repr, DecidableEq

def Call.operation (c : Call) : Operation Projection :=
  .projection c.grant

def reload (s : Overview) (session : Session) : Turn Overview Call :=
  match session.selectedGrant? with
  | none => ⟨s, session, []⟩
  | some selected => ⟨{ s with grant := some selected.title }, session, [.call ⟨selected.id⟩]⟩

def settle (state : Option Overview) (session : Session) (result : Except Failure Projection) :
    Turn (Option Overview) Call :=
  match result with
  | .ok projection =>
    ⟨state.map fun s => { s with projection := some projection }, session, []⟩
  | .error e => ⟨state, session, [failure ("Could not load projection: " ++ e.message)]⟩

/-- The lines of a projection: labels and amounts. -/
def lines (p : Projection) : List (String × String) :=
  [("Total funds", p.total.moneyText), ("Existing expenses", p.spent.moneyText),
    ("Projected expenses", p.projected.moneyText), ("Current remaining", p.remainingNow.moneyText),
    ("Projected remaining", p.remainingThen.moneyText)]

variable {α : Type}

def lineNodes (line : String × String) : List (Node α) :=
  [.box "dt" "projection__label" [.text line.1], .box "dd" "projection__value" [.text line.2]]

def hint : Node α :=
  .box "p" "resource-page__hint"
    [.text "Select a grant on the ", .el "a" [.plain "href" "/grants"] [.text "grants page"],
      .text " first."]

def content (s : Overview) : Node α :=
  match s.grant with
  | none => hint
  | some _ =>
    .box "dl" "projection" <|
      match s.projection with
      | none => []
      | some p => (lines p).flatMap lineNodes

def view (s : Overview) : Node α :=
  frame [title (s.grant.getD "Overview")] [content s]

end Overview

end GrantConsole.Screen
