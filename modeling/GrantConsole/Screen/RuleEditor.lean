import GrantConsole.Api.Operation
import GrantConsole.Draft.Basic
import GrantConsole.Screen.Frame
import GrantConsole.Widget.Clause
import GrantConsole.Widget.Field

/-!
# The rule editor

A rule is drafted and submitted here. The editor of a rule that the server has looks the rule up in
the listing of the selected grant; until it is found there is no form. A rule that was made leads
back to the rules, one that was changed stays in the editor.
-/

namespace GrantConsole.Screen

open GrantConsole.Api GrantConsole.Markup GrantConsole.Widget

/-- Why there is no rule to edit. -/
inductive LocateFault
  | notListed (failure : Failure)
  | notFound (id : String)
deriving Repr, DecidableEq

def LocateFault.message : LocateFault → String
  | notListed failure => "Could not load rule: " ++ failure.message
  | notFound id => "Rule " ++ id ++ " was not found on this grant."

/-- The rule with an id in the listing of its grant. -/
def locateRule (listing : Except Failure (Page Rule)) (id : String) : Except LocateFault Rule :=
  match listing with
  | .error failure => .error (.notListed failure)
  | .ok page =>
    match page.items.find? fun rule => rule.id == some id with
    | some rule => .ok rule
    | none => .error (.notFound id)

structure RuleEditor where
  /-- The id in the address of the page, if it has one. -/
  address : Option String := none
  draft : Cell RuleDraft
  loading : Bool := false
  /-- Why the form is withheld. -/
  problem : Option String := none
deriving Repr, DecidableEq

namespace RuleEditor

inductive Act
  | name
  | description
  | type
  | aggregator
  | complaint
  | active
  | addFilter
  | addCondition
  | clause (act : ClauseAct)
  | submit
deriving Repr, DecidableEq

inductive Call
  | locate (grant id : String)
  | submit (submission : Submission)
deriving Repr, DecidableEq

abbrev Call.Answer : Call → Type
  | locate _ _ => Page Rule
  | submit _ => Rule

def Call.operation : (c : Call) → Operation c.Answer
  | locate grant _ => .grantRules grant
  | submit submission => submission.operation

/-- The page as it is opened: a blank draft for the selected grant. -/
def opened (address : Option String) (session : Session) : RuleEditor :=
  { address, draft := ⟨.new ((session.selectedGrant?.map SelectedGrant.id).getD ""), []⟩ }

def mounted (s : RuleEditor) (session : Session) : Turn RuleEditor Call :=
  match s.address with
  | none => ⟨s, session, []⟩
  | some id =>
    match session.selectedGrant? with
    | none =>
      ⟨{ s with problem := some "No grant selected." }, session,
        [failure "Select a grant before editing its rules.", .goto "/grants"]⟩
    | some grant => ⟨{ s with loading := true }, session, [.call (.locate grant.id id)]⟩

def edit (s : RuleEditor) (f : RuleDraft → RuleDraft) : RuleEditor :=
  { s with draft := s.draft.update f }

def editHeader (s : RuleEditor) (e : HeaderEdit) : RuleEditor :=
  s.edit fun d => d.editHeader e

def editFilter (s : RuleEditor) (index : Nat) (e : FilterEdit) : RuleEditor :=
  s.edit fun d => (d.updateFilter index e).1

/-- An order that is none is told. -/
def editCondition (s : RuleEditor) (session : Session) (index : Nat) (e : ConditionEdit) :
    Turn RuleEditor Call :=
  let (draft, outcome) := s.draft.value.updateCondition index e
  let s := s.edit fun _ => draft
  match outcome with
  | .badOrder raw => ⟨s, session, [failure (badOrderMessage raw)]⟩
  | _ => ⟨s, session, []⟩

def handleClause (s : RuleEditor) (session : Session) (act : ClauseAct) (entry : Entry) :
    Turn RuleEditor Call :=
  match act with
  | .filterField i => ⟨s.editFilter i (.field entry.value), session, []⟩
  | .filterOperator i =>
    match Operator.read entry.value with
    | .ok op => ⟨s.editFilter i (.operator op), session, []⟩
    | .error _ => ⟨s, session, []⟩
  | .filterValue i => ⟨s.editFilter i (.value entry.value), session, []⟩
  | .removeFilter i => ⟨s.edit fun d => (d.removeFilter i).1, session, []⟩
  | .conditionField i => s.editCondition session i (.field entry.value)
  | .conditionOperator i =>
    match Operator.read entry.value with
    | .ok op => s.editCondition session i (.operator op)
    | .error _ => ⟨s, session, []⟩
  | .conditionValue i => s.editCondition session i (.value entry.value)
  | .conditionOrder i => s.editCondition session i (.order entry.value)
  | .removeCondition i => ⟨s.edit fun d => (d.removeCondition i).1, session, []⟩
  | .typed field => ⟨{ s with draft := s.draft.type field entry.value }, session, []⟩

def handle (s : RuleEditor) (session : Session) (act : Act) (entry : Entry) :
    Turn RuleEditor Call :=
  match act with
  | .name => ⟨s.editHeader (.name entry.value), session, []⟩
  | .description => ⟨s.editHeader (.description entry.value), session, []⟩
  | .type =>
    match RuleType.read entry.value with
    | .ok type => ⟨s.editHeader (.type type), session, []⟩
    | .error _ => ⟨s, session, []⟩
  | .aggregator => ⟨s.editHeader (.aggregator (Aggregator.read entry.value).toOption), session, []⟩
  | .complaint => ⟨s.editHeader (.complaint entry.value), session, []⟩
  | .active => ⟨s.editHeader (.active entry.checked), session, []⟩
  | .addFilter => ⟨s.edit RuleDraft.addFilter, session, []⟩
  | .addCondition => ⟨s.edit RuleDraft.addCondition, session, []⟩
  | .clause act => s.handleClause session act entry
  | .submit =>
    let (draft, submission) := s.draft.value.beginSubmit
    let s := s.edit fun _ => draft
    match submission with
    | some submission => ⟨s, session, [.call (.submit submission)]⟩
    | none => ⟨s, session, []⟩

/-- A rule that cannot be edited is told even if the page is gone. -/
def settleLocate (state : Option RuleEditor) (session : Session) (id : String)
    (result : Except Failure (Page Rule)) : Turn (Option RuleEditor) Call :=
  match locateRule result id with
  | .ok rule =>
    ⟨state.map fun s => { s with draft := s.draft.set (.load rule), loading := false }, session, []⟩
  | .error fault =>
    ⟨state.map fun s => { s with problem := some fault.message, loading := false }, session,
      [failure fault.message]⟩

/-- What the operator is told, and where to go, when a submit is done. -/
def submitCommands : SubmitOutcome → List (Command Call)
  | .created rule => [success ("Rule \"" ++ rule.name ++ "\" created."), .goto "/rules"]
  | .updated => [success "Rule saved."]
  | .failed e => [failure e.message]
  | .ignored => []

def settleSubmit (state : Option RuleEditor) (session : Session) (result : Except Failure Rule) :
    Turn (Option RuleEditor) Call :=
  match state with
  | none => ⟨none, session, []⟩
  | some s =>
    let (draft, outcome) := s.draft.value.finishSubmit result
    ⟨some (s.edit fun _ => draft), session, submitCommands outcome⟩

def settle (state : Option RuleEditor) (session : Session) :
    (c : Call) → Except Failure c.Answer → Turn (Option RuleEditor) Call
  | .locate _ id, result => settleLocate state session id result
  | .submit _, result => settleSubmit state session result

/-- The editor is of a rule that the server has, or its address says so. -/
def isExisting (s : RuleEditor) : Bool :=
  s.draft.value.isUpdate || s.address.isSome

def labelled (label : String) (input : Node Act) : Node Act :=
  .box "label" "dialog__label" [.text label, input]

def lineInput (value : String) (typed : Act) : Node Act :=
  .element "input" [.cls "dialog__input", .value value] [.on .input typed] []

def dropDown (shown : String) (field : LateField) (chosen : Act) (options : List (Node Act)) :
    Node Act :=
  .element "select" [.cls "dialog__select", .value shown]
    [.on .input (.clause (.typed field)), .on .change chosen] options

def sectionNode (disabled : Bool) (legend : String) (content : List (Node Act)) : Node Act :=
  .el "fieldset" [.cls "rule-editor__section", .disabled disabled]
    (.el "legend" [] [.text legend] :: content)

def headerFields (s : RuleEditor) : List (Node Act) :=
  let rule := s.draft.value.rule
  let aggregator := (rule.aggregator.map Aggregator.spelling).getD ""
  [labelled "Name" (lineInput rule.name .name),
    labelled "Description"
      (.element "textarea" [.cls "dialog__textarea", .value (rule.description.getD "")]
        [.on .input .description] []),
    labelled "Type"
      (dropDown (s.draft.shown .ruleType rule.type.spelling) .ruleType .type
        (RuleType.all.map fun t => wordOption t.spelling)),
    labelled "Aggregator"
      (dropDown (s.draft.shown .aggregator aggregator) .aggregator .aggregator
        (.el "option" [.plain "value" ""] [.text "None"] ::
          Aggregator.offered.map fun a => wordOption a.spelling)),
    labelled "Error message" (lineInput rule.complaint .complaint),
    checkField "Active" rule.active .active]

def addButton (label : String) (act : Act) : Node Act :=
  .plainButton "btn btn--small" label act

def clauseRows (draft : Cell RuleDraft) (row : Cell RuleDraft → Nat → Node ClauseAct)
    (count : Nat) : List (Node Act) :=
  (List.range count).map fun index => (row draft index).map .clause

def errorNode (draft : RuleDraft) : List (Node Act) :=
  match draft.lastError with
  | some e => [.box "span" "rule-editor__error" [.text e.message]]
  | none => []

def form (s : RuleEditor) : Node Act :=
  let draft := s.draft.value
  let busy := draft.isSubmitting
  .element "form" [.cls "rule-editor__form"] [.on .submit .submit]
    [sectionNode busy "Rule" (headerFields s),
      sectionNode busy "Filters"
        (clauseRows s.draft filterRow draft.rule.filters.length ++
          [addButton "Add filter" .addFilter]),
      sectionNode busy "Conditions"
        (clauseRows s.draft conditionRow draft.rule.conditions.length ++
          [addButton "Add condition" .addCondition]),
      .box "div" "dialog__actions"
        (errorNode draft ++
          [.el "button" [.cls "btn btn--primary", .plain "type" "submit", .disabled busy]
            [.text (if busy then "Saving..." else "Save rule")]])]

/-- The form, or a line that says why there is none. -/
def content (s : RuleEditor) : Node Act :=
  if !s.loading && s.problem.isNone then form s
  else .box "p" "rule-editor__status" [.text (s.problem.getD "Loading rule...")]

def view (s : RuleEditor) : Node Act :=
  .box "section" "resource-page rule-editor"
    [.box "header" "resource-page__header"
      [title (if s.isExisting then "Edit rule" else "New rule"),
        .link "btn" "/rules" "Back to rules"],
      content s]

end RuleEditor

end GrantConsole.Screen
