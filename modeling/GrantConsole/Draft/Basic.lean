import GrantConsole.Api.Failure
import GrantConsole.Api.Operation
import GrantConsole.Domain.Rule
import GrantConsole.Draft.Indexed
import GrantConsole.Text.Whole

/-!
# Drafts of rules

The rule in the editor. Edits change it and mark it as edited; a submit takes a snapshot of it and
is in flight until its answer is taken in, and there is never more than one. A rule that has an id
is replaced under that id, any other is made anew.
-/

namespace GrantConsole

open GrantConsole.Api GrantConsole.Text

inductive SubmitMode
  | create
  | update (id : String)
deriving Repr, DecidableEq

inductive Phase
  /-- As loaded, as blank, or as last saved. -/
  | idle
  | editing
  | submitting (mode : SubmitMode)
deriving Repr, DecidableEq

inductive HeaderEdit
  | name (s : String)
  | description (s : String)
  | type (t : RuleType)
  | aggregator (a : Option Aggregator)
  | complaint (s : String)
  | active (b : Bool)
  | grant (id : String)
deriving Repr, DecidableEq

inductive FilterEdit
  | field (s : String)
  | operator (op : Operator)
  | value (s : String)
deriving Repr, DecidableEq

inductive ConditionEdit
  | field (s : String)
  | operator (op : Operator)
  | value (s : String)
  /-- The order as it was typed. -/
  | order (raw : String)
deriving Repr, DecidableEq

/-- What came of an edit of one clause. -/
inductive EditOutcome
  | applied
  | outOfRange
  /-- The text is no order. -/
  | badOrder (raw : String)
deriving Repr, DecidableEq

/-- What a submit sends. -/
structure Submission where
  mode : SubmitMode
  rule : Rule
deriving Repr, DecidableEq

/-- What came of a submit. -/
inductive SubmitOutcome
  | created (rule : Rule)
  | updated
  | failed (failure : Failure)
  /-- No submit was in flight. -/
  | ignored
deriving Repr, DecidableEq

structure RuleDraft where
  rule : Rule
  phase : Phase := .idle
  lastError : Option Failure := none
deriving Repr, DecidableEq

def badOrderMessage (raw : String) : String :=
  "order must be a whole number: " ++ raw

def HeaderEdit.apply (rule : Rule) : HeaderEdit → Rule
  | name s => { rule with name := s }
  | description s => { rule with description := if s.isEmpty then none else some s }
  | type t => { rule with type := t }
  | aggregator a => { rule with aggregator := a }
  | complaint s => { rule with complaint := s }
  | active b => { rule with active := b }
  | grant id => { rule with grant := id }

def FilterEdit.apply (f : Filter) : FilterEdit → Filter
  | field s => { f with field := s }
  | operator op => { f with operator := op }
  | value s => { f with value := s }

/-- The change that an edit makes to a condition, unless its order is no whole number. -/
def ConditionEdit.apply? : ConditionEdit → Except String (Condition → Condition)
  | field s => .ok fun c => { c with field := s }
  | operator op => .ok fun c => { c with operator := op }
  | value s => .ok fun c => { c with value := s }
  | order raw =>
    match readInt64? (trim raw).toList with
    | some n => .ok fun c => { c with order := n }
    | none => .error raw

/-- A rule of a grant with nothing else said. -/
def Rule.blank (grant : String) : Rule :=
  { grant, active := true }

namespace RuleDraft

def new (grant : String) : RuleDraft :=
  { rule := Rule.blank grant }

def load (rule : Rule) : RuleDraft :=
  { rule }

def isSubmitting (d : RuleDraft) : Bool :=
  match d.phase with
  | .submitting _ => true
  | _ => false

/-- The draft is of a rule that the server has. -/
def isUpdate (d : RuleDraft) : Bool :=
  d.rule.id.isSome

/-- An idle draft becomes an edited one. -/
def touch (d : RuleDraft) : RuleDraft :=
  if d.phase = .idle then { d with phase := .editing } else d

def editHeader (d : RuleDraft) (edit : HeaderEdit) : RuleDraft :=
  { d with rule := edit.apply d.rule }.touch

def withFilters (d : RuleDraft) (filters : List Filter) : RuleDraft :=
  { d with rule := { d.rule with filters } }.touch

def withConditions (d : RuleDraft) (conditions : List Condition) : RuleDraft :=
  { d with rule := { d.rule with conditions } }.touch

def addFilter (d : RuleDraft) : RuleDraft :=
  d.withFilters (d.rule.filters ++ [({} : Filter)])

def addCondition (d : RuleDraft) : RuleDraft :=
  d.withConditions (d.rule.conditions ++ [({} : Condition)])

/-- Takes in changed filters, if the index was in range. -/
def replaceFilters (d : RuleDraft) : Option (List Filter) → RuleDraft × EditOutcome
  | some filters => (d.withFilters filters, .applied)
  | none => (d, .outOfRange)

/-- Takes in changed conditions, if the index was in range. -/
def replaceConditions (d : RuleDraft) : Option (List Condition) → RuleDraft × EditOutcome
  | some conditions => (d.withConditions conditions, .applied)
  | none => (d, .outOfRange)

def updateFilter (d : RuleDraft) (index : Nat) (edit : FilterEdit) : RuleDraft × EditOutcome :=
  d.replaceFilters (editAt? d.rule.filters index fun f => edit.apply f)

def removeFilter (d : RuleDraft) (index : Nat) : RuleDraft × EditOutcome :=
  d.replaceFilters (removeAt? d.rule.filters index)

/-- The index is looked at before the text of an order is. -/
def updateCondition (d : RuleDraft) (index : Nat) (edit : ConditionEdit) :
    RuleDraft × EditOutcome :=
  if index < d.rule.conditions.length then
    match edit.apply? with
    | .ok change => d.replaceConditions (editAt? d.rule.conditions index change)
    | .error raw => (d, .badOrder raw)
  else (d, .outOfRange)

def removeCondition (d : RuleDraft) (index : Nat) : RuleDraft × EditOutcome :=
  d.replaceConditions (removeAt? d.rule.conditions index)

def submitMode (d : RuleDraft) : SubmitMode :=
  match d.rule.id with
  | some id => .update id
  | none => .create

/-- Starts a submit, unless one is in flight. -/
def beginSubmit (d : RuleDraft) : RuleDraft × Option Submission :=
  if d.isSubmitting then (d, none)
  else
    ({ d with phase := .submitting d.submitMode, lastError := none },
      some ⟨d.submitMode, d.rule⟩)

/-- Takes in the answer to the submit in flight. -/
def finishSubmit (d : RuleDraft) (result : Except Failure Rule) : RuleDraft × SubmitOutcome :=
  match d.phase with
  | .submitting mode =>
    match mode, result with
    | .create, .ok created => (new d.rule.grant, .created created)
    | .update _, .ok updated => (load updated, .updated)
    | _, .error failure =>
      ({ d with phase := .editing, lastError := some failure }, .failed failure)
  | _ => (d, .ignored)

end RuleDraft

/-- The call that a submit makes. -/
def Submission.operation (s : Submission) : Operation Rule :=
  match s.mode with
  | .create => .create s.rule
  | .update id => .replace id s.rule

end GrantConsole
