import GrantConsole.Markup.Node

/-!
# Labelled inputs

The inputs of dialogs and forms. Text inputs tell every keystroke; a drop-down tells its choice once
it is made, and what was typed into it before.
-/

namespace GrantConsole.Widget

open GrantConsole.Markup

variable {α : Type}

/-- An input of one line. -/
def textField (label kind placeholder value : String) (typed : α) : Node α :=
  .box "label" "dialog__label"
    [.text label,
      .element "input"
        [.cls "dialog__input", .plain "type" kind, .plain "placeholder" placeholder, .value value]
        [.on .input typed] []]

/-- An input of several lines. -/
def textArea (label value : String) (typed : α) : Node α :=
  .box "label" "dialog__label"
    [.text label, .element "textarea" [.cls "dialog__textarea", .value value] [.on .input typed] []]

/-- A checkbox with its label behind it. -/
def checkField (label : String) (checked : Bool) (toggled : α) : Node α :=
  .box "label" "dialog__check"
    [.element "input" [.plain "type" "checkbox", .checked checked] [.on .change toggled] [],
      .text label]

/-- An option of a drop-down, given by its value and its text. -/
def optionNode (current : String) (option : String × String) : Node α :=
  .el "option" [.plain "value" option.1, .flag "selected" (option.1 == current)] [.text option.2]

/-- A drop-down that shows a value, over options of which the current one is selected. -/
def selectField (label shown current : String) (options : List (String × String))
    (typed chosen : α) : Node α :=
  .box "label" "dialog__label"
    [.text label,
      .element "select" [.cls "dialog__select", .value shown]
        [.on .input typed, .on .change chosen] (options.map (optionNode current))]

end GrantConsole.Widget
