import GrantConsole.Domain.Resource
import GrantConsole.Markup.Node

/-!
# Tables of records

A table has a row for each record, with a cell for each column and, for a record that has an id, a
button for each action on that id.
-/

namespace GrantConsole.Widget

open GrantConsole.Markup

structure Column (R : Type) where
  header : String
  cell : R → String

/-- A button at the end of each row. -/
structure RowAction (α : Type) where
  label : String
  cls : String
  act : String → α

namespace RowAction

variable {α : Type}

def normalClass : String := "btn btn--small"

def dangerClass : String := "btn btn--small btn--danger"

def normal (label : String) (act : String → α) : RowAction α :=
  ⟨label, normalClass, act⟩

def danger (label : String) (act : String → α) : RowAction α :=
  ⟨label, dangerClass, act⟩

end RowAction

variable {α R : Type}

/-- The texts of a record's cells. -/
def rowCells (columns : List (Column R)) (row : R) : List String :=
  columns.map fun column => column.cell row

def actionButtons (actions : List (RowAction α)) (id : String) : List (Node α) :=
  actions.map fun action => .button action.cls action.label (action.act id)

/-- The buttons of a record; one without an id has none. -/
def rowButtons [Resource R] (actions : List (RowAction α)) (row : R) : List (Node α) :=
  match Resource.id? row with
  | some id => actionButtons actions id
  | none => []

def tableHead (columns : List (Column R)) (actions : List (RowAction α)) : Node α :=
  .el "thead" []
    [.el "tr" [] <|
      (columns.map fun column => .el "th" [] [.text column.header]) ++
        if actions.isEmpty then [] else [.el "th" [] [.text "Actions"]]]

def tableRow [Resource R] (columns : List (Column R)) (actions : List (RowAction α)) (row : R) :
    Node α :=
  .el "tr" [] <|
    ((rowCells columns row).map fun text => .el "td" [] [.text text]) ++
      if actions.isEmpty then [] else [.box "td" "crud-table__actions" (rowButtons actions row)]

/-- A table, or a line of text where there are no records. -/
def table [Resource R] (columns : List (Column R)) (actions : List (RowAction α)) (rows : List R)
    (loading : Bool) (emptyText : String) : Node α :=
  if rows.isEmpty then
    .box "p" "crud-table__empty" [.text (if loading then "Loading..." else emptyText)]
  else
    .box "div" "crud-table__wrap"
      [.box "table" "crud-table"
        [tableHead columns actions,
          .el "tbody" [] (rows.map (tableRow columns actions))]]

/-- What a table without rows says, where nothing else was chosen. -/
def defaultEmptyText : String := "Nothing here yet."

def yesNo (b : Bool) : String :=
  if b then "Yes" else "No"

end GrantConsole.Widget
