import GrantConsole.Domain.Choice
import GrantConsole.Record.Shape

/-!
# Rules

A rule belongs to a grant. Its filters select the records it looks at, and its conditions, which
have an order of evaluation, say what must hold of them. Ids and times are given by the server, so
what the console makes up has none.
-/

namespace GrantConsole

open GrantConsole.Record

structure Filter where
  id : Option String := none
  field : String := ""
  operator : Operator := .equal
  value : String := ""
  created : Option String := none
  updated : Option String := none
deriving Repr, DecidableEq, Inhabited

structure Condition where
  id : Option String := none
  field : String := ""
  operator : Operator := .equal
  value : String := ""
  /-- The place in the evaluation; it stays when other conditions go. -/
  order : Int64 := 0
  created : Option String := none
  updated : Option String := none
deriving Repr, DecidableEq, Inhabited

structure Rule where
  id : Option String := none
  grant : String := ""
  name : String := ""
  description : Option String := none
  type : RuleType := .expense
  aggregator : Option Aggregator := none
  /-- What is told when the rule is broken. -/
  complaint : String := ""
  active : Bool := false
  filters : List Filter := []
  conditions : List Condition := []
  created : Option String := none
  updated : Option String := none
  author : Option String := none
deriving Repr, DecidableEq, Inhabited

def Operator.shape : Shape Operator := .choice Operator.spelling Operator.all
def Aggregator.shape : Shape Aggregator := .choice Aggregator.spelling Aggregator.all
def RuleType.shape : Shape RuleType := .choice RuleType.spelling RuleType.all

instance : Shaped Operator := ⟨Operator.shape⟩
instance : Shaped Aggregator := ⟨Aggregator.shape⟩
instance : Shaped RuleType := ⟨RuleType.shape⟩

def Filter.shape : Shape Filter :=
  .record "RuleFilter"
    (.cons "id" (.optional .text) .omittable <|
      .cons "field" .text .required <|
      .cons "operator" Operator.shape .required <|
      .cons "value" .text .required <|
      .cons "created_at" (.optional .text) .omittable <|
      .cons "updated_at" (.optional .text) .omittable .nil)
    (fun (id, field, operator, value, created, updated, ()) =>
      ⟨id, field, operator, value, created, updated⟩)
    (fun f => (f.id, f.field, f.operator, f.value, f.created, f.updated, ()))

def Condition.shape : Shape Condition :=
  .record "RuleCondition"
    (.cons "id" (.optional .text) .omittable <|
      .cons "field" .text .required <|
      .cons "operator" Operator.shape .required <|
      .cons "value" .text .required <|
      .cons "order" .whole .required <|
      .cons "created_at" (.optional .text) .omittable <|
      .cons "updated_at" (.optional .text) .omittable .nil)
    (fun (id, field, operator, value, order, created, updated, ()) =>
      ⟨id, field, operator, value, order, created, updated⟩)
    (fun c => (c.id, c.field, c.operator, c.value, c.order, c.created, c.updated, ()))

def Rule.shape : Shape Rule :=
  .record "Rule"
    (.cons "id" (.optional .text) .omittable <|
      .cons "grant_id" .text .required <|
      .cons "name" .text .required <|
      .cons "description" (.optional .text) .nullable <|
      .cons "rule_type" RuleType.shape .required <|
      .cons "aggregator" (.optional Aggregator.shape) .nullable <|
      .cons "error_message" .text .required <|
      .cons "is_active" .flag (.default true) <|
      .cons "filters" (.list Filter.shape) (.default []) <|
      .cons "conditions" (.list Condition.shape) (.default []) <|
      .cons "created_at" (.optional .text) .omittable <|
      .cons "updated_at" (.optional .text) .omittable <|
      .cons "created_by" (.optional .text) .omittable .nil)
    (fun (id, grant, name, description, type, aggregator, complaint, active, filters, conditions,
        created, updated, author, ()) =>
      ⟨id, grant, name, description, type, aggregator, complaint, active, filters, conditions,
        created, updated, author⟩)
    (fun r => (r.id, r.grant, r.name, r.description, r.type, r.aggregator, r.complaint, r.active,
      r.filters, r.conditions, r.created, r.updated, r.author, ()))

instance : Shaped Filter := ⟨Filter.shape⟩
instance : Shaped Condition := ⟨Condition.shape⟩
instance : Shaped Rule := ⟨Rule.shape⟩

end GrantConsole
