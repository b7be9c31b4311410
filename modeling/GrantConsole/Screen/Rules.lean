import GrantConsole.Api.Operation
import GrantConsole.Form.Basic
import GrantConsole.Screen.Frame
import GrantConsole.Screen.Rows
import GrantConsole.Widget.Dialog
import GrantConsole.Widget.Field
import GrantConsole.Widget.Table

/-!
# The rules page

The rules of the selected grant are listed, switched on and off, deleted, and made from templates
that the server has. Rules are written and changed in the rule editor.
-/

namespace GrantConsole

/-- The rule switched on if it was off, and off if it was on. -/
def Rule.toggled (rule : Rule) : Rule :=
  { rule with active := !rule.active }

/-- A template's name as a label: blanks for underscores, and the first letter a capital. -/
def templateLabel (name : String) : String :=
  match name.toList.map fun c => if c = '_' then ' ' else c with
  | [] => ""
  | c :: cs => String.ofList (capital c :: cs)

end GrantConsole

namespace GrantConsole.Screen

open GrantConsole.Api GrantConsole.Markup GrantConsole.Widget

structure Rules where
  listing : Cell (Listing Rule) := ⟨{}, []⟩
  templates : List String := []
  templateOpen : Bool := false
  template : Cell String := ⟨"", []⟩
  /-- The parameters of the template as they are typed. -/
  parameters : String := "\x7b\x7d"
  /-- The title of the grant that was selected when the page was opened. -/
  scope : String := ""
deriving Repr, DecidableEq

namespace Rules

inductive Act
  | edit (id : String)
  | toggle (id : String)
  | delete (id : String)
  | close
  | confirm
  | openTemplates
  | closeTemplates
  | applyTemplate
  | template
  | parameters
  | typed (field : LateField)
deriving Repr, DecidableEq

inductive Call
  | load (grant : String)
  | toggle (id : String) (rule : Rule)
  | delete (id : String)
  | templates
  | applyTemplate (grant template : String) (parameters : Json)
deriving Repr, BEq

abbrev Call.Answer : Call → Type
  | load _ => Page Rule
  | toggle _ _ => Rule
  | delete _ => Unit
  | templates => List String
  | applyTemplate _ _ _ => Rule

def Call.operation : (c : Call) → Operation c.Answer
  | load grant => .grantRules grant
  | toggle id rule => .replace id rule
  | delete id => .delete Rule id
  | templates => .ruleTemplates
  | applyTemplate grant template parameters => .ruleFromTemplate grant template parameters

def rows : Rows Rules Rule := ⟨listing, fun s listing => { s with listing }⟩

def reload (s : Rules) (session : Session) : Turn Rules Call :=
  match session.selectedGrant? with
  | none => ⟨rows.update (fun l => l.finishLoad (.ok ⟨[], 0⟩)) s, session, []⟩
  | some grant => ⟨rows.update Listing.beginLoad s, session, [.call (.load grant.id)]⟩

/-- The dialog goes with what was typed in it and not read. -/
def closeTemplates (s : Rules) : Rules :=
  { s with templateOpen := false, template := s.template.update id }

/-- The call that the template dialog makes, unless something is missing. -/
def applyCall (s : Rules) (session : Session) : Except FormFault Call := do
  match session.selectedGrant? with
  | none => .error .grantMissing
  | some grant =>
    if s.template.value.isEmpty then .error .templateMissing
    else
      let parameters ← readParameters s.parameters
      .ok (.applyTemplate grant.id s.template.value parameters)

def handle (s : Rules) (session : Session) (act : Act) (entry : Entry) : Turn Rules Call :=
  match act with
  | .edit id => ⟨s, session, [.goto ("/rules/" ++ id)]⟩
  | .toggle id =>
    match (rows.listing s).find? id with
    | none => ⟨s, session, []⟩
    | some rule => ⟨s, session, [.call (.toggle id rule.toggled)]⟩
  | .delete id => ⟨rows.update (fun l => l.openDelete id) s, session, []⟩
  | .close => ⟨rows.update Listing.closeDialog s, session, []⟩
  | .confirm => rows.confirmed .delete s session
  | .openTemplates =>
    ⟨{ s with templateOpen := true, parameters := "\x7b\x7d" }, session, [.call .templates]⟩
  | .closeTemplates => ⟨closeTemplates s, session, []⟩
  | .applyTemplate =>
    match applyCall s session with
    | .ok call => ⟨s, session, [.call call]⟩
    | .error fault => ⟨s, session, [failure fault.message]⟩
  | .template => ⟨{ s with template := s.template.set entry.value }, session, []⟩
  | .parameters => ⟨{ s with parameters := entry.value }, session, []⟩
  | .typed field => ⟨{ s with template := s.template.type field entry.value }, session, []⟩

def settle (state : Option Rules) (session : Session) :
    (c : Call) → Except Failure c.Answer → Turn (Option Rules) Call
  | .load _, result => rows.settleLoad state session result
  | .toggle _ _, result =>
    match (result : Except Failure Rule) with
    | .ok rule =>
      ⟨state.map (rows.update fun l => l.upsert rule), session,
        [success (if rule.active then "Rule activated." else "Rule deactivated.")]⟩
    | .error e => ⟨state, session, [failure e.message]⟩
  | .delete id, result => rows.settleDelete id "Rule deleted." state session result
  | .templates, result =>
    match (result : Except Failure (List String)) with
    | .ok names =>
      let take (s : Rules) : Rules :=
        { s with templates := names, template := s.template.set (names.headD "") }
      ⟨state.map take, session, []⟩
    | .error e => ⟨state, session, [failure ("Could not load templates: " ++ e.message)]⟩
  | .applyTemplate _ _ _, result =>
    match (result : Except Failure Rule) with
    | .ok rule =>
      ⟨state.map fun s => closeTemplates (rows.update (fun l => l.upsert rule) s), session,
        [success "Rule created from template."]⟩
    | .error e => ⟨state, session, [failure e.message]⟩

def columns : List (Column Rule) :=
  [⟨"Name", Rule.name⟩, ⟨"Type", fun r => r.type.spelling⟩,
    ⟨"Aggregator", fun r => (r.aggregator.map Aggregator.spelling).getD ""⟩,
    ⟨"Filters", fun r => toString r.filters.length⟩,
    ⟨"Conditions", fun r => toString r.conditions.length⟩, ⟨"Active", fun r => yesNo r.active⟩]

def actions : List (RowAction Act) :=
  [.normal "Edit" .edit, .normal "Toggle" .toggle, .danger "Delete" .delete]

def dialog (s : Rules) : List (Node Act) :=
  match (rows.listing s).dialog with
  | .confirmDelete _ => [confirmDialog "Delete this rule?" "Delete" .close .confirm]
  | _ => []

def templateDialog (s : Rules) : List (Node Act) :=
  if s.templateOpen then
    [modal "Create rule from template" "" .closeTemplates
      [selectField "Template" (s.template.shown .template s.template.value) s.template.value
          (s.templates.map fun name => (name, templateLabel name)) (.typed .template) .template,
        textArea "Parameters (JSON object)" s.parameters .parameters,
        saveActions .closeTemplates "Create" .applyTemplate]]
  else []

def view (s : Rules) : Node Act :=
  let l := rows.listing s
  frame
    [title "Rules", scopeNode s.scope, .link "btn btn--primary" "/rules/new" "New rule",
      .button "btn" "From template" .openTemplates]
    (table columns actions l.items l.loading "No rules for this grant." ::
      (dialog s ++ templateDialog s))

end Rules

end GrantConsole.Screen
