import GrantConsole.Listing.Basic
import GrantConsole.Screen.Basic

/-!
# Turns of a listing

What the pages have in common that show the rows of a collection: how the answers to loads, saves
and deletions are taken in. A page that is gone takes nothing in and tells nothing.
-/

namespace GrantConsole.Screen

open GrantConsole.Api

variable {S C R : Type}

/-- The listing of a page. -/
abbrev Rows (S R : Type) := Part S (Cell (Listing R))

namespace Rows

/-- Changes the listing; what is typed but not read yet is lost. -/
def update (rows : Rows S R) (f : Listing R → Listing R) (s : S) : S :=
  rows.modify (fun c => c.update f) s

def listing (rows : Rows S R) (s : S) : Listing R :=
  (rows.get s).value

def settleLoad (rows : Rows S R) (state : Option S) (session : Session)
    (result : Except Failure (Page R)) : Turn (Option S) C :=
  ⟨state.map (rows.update fun l => l.finishLoad result), session, []⟩

variable [Resource R]

/-- A save that went well is told, and the rows are loaded again. -/
def settleSave (rows : Rows S R) (reload : S → Session → Turn S C) (text : String)
    (state : Option S) (session : Session) (result : Except Failure R) : Turn (Option S) C :=
  match state with
  | none => ⟨none, session, []⟩
  | some s =>
    let (listing, outcome) := (rows.listing s).finishSave result
    let s := rows.update (fun _ => listing) s
    match outcome with
    | .ok () => ((reload s session).map some id).after [success text]
    | .error e => ⟨some s, session, [failure e.message]⟩

def settleDelete (rows : Rows S R) (id : String) (text : String)
    (state : Option S) (session : Session) (result : Except Failure Unit) : Turn (Option S) C :=
  match state with
  | none => ⟨none, session, []⟩
  | some s =>
    let (listing, outcome) := (rows.listing s).finishDelete id result
    let s := rows.update (fun _ => listing) s
    match outcome with
    | .ok () => ⟨some s, session, [success text]⟩
    | .error e => ⟨some s, session, [failure e.message]⟩

/-- The call that the answer yes to the open question makes. -/
def confirmed (rows : Rows S R) (delete : String → C) (s : S) (session : Session) : Turn S C :=
  match (rows.listing s).dialog with
  | .confirmDelete id => ⟨s, session, [.call (delete id)]⟩
  | _ => ⟨s, session, []⟩

end Rows

end GrantConsole.Screen
