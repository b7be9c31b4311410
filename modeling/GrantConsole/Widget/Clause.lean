import GrantConsole.Draft.Basic
import GrantConsole.Markup.Node
import GrantConsole.Screen.Basic

/-!
# Clauses of a rule

The rows in which the filters and conditions of a rule are edited. A row is known by its index, so
that removing a clause takes away the last row. While a submit is in flight every input of a row is
disabled.
-/

namespace GrantConsole.Widget

open GrantConsole.Markup GrantConsole.Screen

/-- What happens to a clause. -/
inductive ClauseAct
  | filterField (index : Nat)
  | filterOperator (index : Nat)
  | filterValue (index : Nat)
  | removeFilter (index : Nat)
  | conditionField (index : Nat)
  | conditionOperator (index : Nat)
  | conditionValue (index : Nat)
  | conditionOrder (index : Nat)
  | removeCondition (index : Nat)
  /-- Something was typed into an input that is read later. -/
  | typed (field : LateField)
deriving Repr, DecidableEq

def clauseText (cls placeholder value : String) (disabled : Bool) (typed : ClauseAct) :
    Node ClauseAct :=
  .element "input" [.cls cls, .plain "placeholder" placeholder, .value value, .disabled disabled]
    [.on .input typed] []

def wordOption {α : Type} (word : String) : Node α :=
  .el "option" [.plain "value" word] [.text word]

def clauseOperator (shown : String) (disabled : Bool) (field : LateField) (chosen : ClauseAct) :
    Node ClauseAct :=
  .element "select" [.cls "clause-row__operator", .value shown, .disabled disabled]
    [.on .input (.typed field), .on .change chosen]
    (Operator.offered.map fun op => wordOption op.spelling)

/-- A button without a type, which inside of a form also submits it. -/
def clauseRemove (disabled : Bool) (act : ClauseAct) : Node ClauseAct :=
  .element "button" [.cls "btn btn--small btn--danger", .disabled disabled] [.on .click act]
    [.text "Remove"]

def filterRow (draft : Cell RuleDraft) (index : Nat) : Node ClauseAct :=
  let filter := draft.value.rule.filters[index]?
  let disabled := draft.value.isSubmitting
  let operator := ((filter.map Filter.operator).getD .equal).spelling
  .box "div" "clause-row"
    [clauseText "clause-row__field" "field" ((filter.map Filter.field).getD "") disabled
        (.filterField index),
      clauseOperator (draft.shown (.filterOperator index) operator) disabled
        (.filterOperator index) (.filterOperator index),
      clauseText "clause-row__value" "value" ((filter.map Filter.value).getD "") disabled
        (.filterValue index),
      clauseRemove disabled (.removeFilter index)]

def conditionRow (draft : Cell RuleDraft) (index : Nat) : Node ClauseAct :=
  let condition := draft.value.rule.conditions[index]?
  let disabled := draft.value.isSubmitting
  let operator := ((condition.map Condition.operator).getD .equal).spelling
  let order := (condition.map fun c => toString c.order.toInt).getD ""
  .box "div" "clause-row"
    [clauseText "clause-row__field" "field" ((condition.map Condition.field).getD "") disabled
        (.conditionField index),
      clauseOperator (draft.shown (.conditionOperator index) operator) disabled
        (.conditionOperator index) (.conditionOperator index),
      clauseText "clause-row__value" "value" ((condition.map Condition.value).getD "") disabled
        (.conditionValue index),
      .element "input"
        [.cls "clause-row__order", .plain "type" "number", .plain "step" "1",
          .value (draft.shown (.conditionOrder index) order), .disabled disabled]
        [.on .input (.typed (.conditionOrder index)), .on .change (.conditionOrder index)] [],
      clauseRemove disabled (.removeCondition index)]

end GrantConsole.Widget
