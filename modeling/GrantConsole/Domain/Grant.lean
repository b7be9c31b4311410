import GrantConsole.Domain.Choice
import GrantConsole.Record.Shape

/-!
# Grants and their money

Grants, the expenses booked on them, the decisions on expenses, the categories of expenses, and the
projection of a grant's funds.
-/

namespace GrantConsole

open GrantConsole.Number GrantConsole.Record

structure Grant where
  id : Option String := none
  title : String := ""
  agency : String := ""
  start : String := ""
  finish : String := ""
  total : Binary64 := .zero
  status : String := ""
  description : Option String := none
  created : Option String := none
  updated : Option String := none
deriving Repr, DecidableEq, Inhabited

structure Expense where
  id : Option String := none
  amount : Binary64 := .zero
  date : String := ""
  description : String := ""
  category : String := ""
  invoice : Option String := none
  grant : String := ""
  created : Option String := none
  updated : Option String := none
  author : Option String := none
deriving Repr, DecidableEq, Inhabited

/-- A decision on one expense. -/
structure Approval where
  id : Option String := none
  expense : Option String := none
  status : Verdict := .approved
  comments : Option String := none
  created : Option String := none
  updated : Option String := none
deriving Repr, DecidableEq, Inhabited

structure Category where
  id : Option String := none
  name : String := ""
  description : Option String := none
  code : String := ""
  active : Bool := false
deriving Repr, DecidableEq, Inhabited

/-- What is left of a grant's funds now and after the expenses to come. -/
structure Projection where
  grant : String
  total : Binary64
  spent : Binary64
  projected : Binary64
  remainingThen : Binary64
  remainingNow : Binary64
deriving Repr, DecidableEq, Inhabited

def Verdict.shape : Shape Verdict := .choice Verdict.spelling Verdict.all

def Grant.shape : Shape Grant :=
  .record "Grant"
    (.cons "id" (.optional .text) .omittable <|
      .cons "title" .text .required <|
      .cons "funding_agency" .text .required <|
      .cons "start_date" .text .required <|
      .cons "end_date" .text .required <|
      .cons "total_amount" .amount (.default .zero) <|
      .cons "status" .text (.default "active") <|
      .cons "description" (.optional .text) .nullable <|
      .cons "created_at" (.optional .text) .omittable <|
      .cons "updated_at" (.optional .text) .omittable .nil)
    (fun (id, title, agency, start, finish, total, status, description, created, updated, ()) =>
      ⟨id, title, agency, start, finish, total, status, description, created, updated⟩)
    (fun g => (g.id, g.title, g.agency, g.start, g.finish, g.total, g.status, g.description,
      g.created, g.updated, ()))

def Expense.shape : Shape Expense :=
  .record "Expense"
    (.cons "id" (.optional .text) .omittable <|
      .cons "amount" .amount .required <|
      .cons "date" .text .required <|
      .cons "description" .text .required <|
      .cons "category" .text .required <|
      .cons "invoice_number" (.optional .text) .nullable <|
      .cons "grant_id" .text .required <|
      .cons "created_at" (.optional .text) .omittable <|
      .cons "updated_at" (.optional .text) .omittable <|
      .cons "created_by" (.optional .text) .omittable .nil)
    (fun (id, amount, date, description, category, invoice, grant, created, updated, author, ()) =>
      ⟨id, amount, date, description, category, invoice, grant, created, updated, author⟩)
    (fun e => (e.id, e.amount, e.date, e.description, e.category, e.invoice, e.grant, e.created,
      e.updated, e.author, ()))

def Approval.shape : Shape Approval :=
  .record "Approval"
    (.cons "id" (.optional .text) .omittable <|
      .cons "expense_id" (.optional .text) .nullable <|
      .cons "status" Verdict.shape (.default .approved) <|
      .cons "comments" (.optional .text) .nullable <|
      .cons "created_at" (.optional .text) .omittable <|
      .cons "updated_at" (.optional .text) .omittable .nil)
    (fun (id, expense, status, comments, created, updated, ()) =>
      ⟨id, expense, status, comments, created, updated⟩)
    (fun a => (a.id, a.expense, a.status, a.comments, a.created, a.updated, ()))

def Category.shape : Shape Category :=
  .record "Category"
    (.cons "id" (.optional .text) .omittable <|
      .cons "name" .text .required <|
      .cons "description" (.optional .text) .nullable <|
      .cons "code" .text .required <|
      .cons "is_active" .flag (.default true) .nil)
    (fun (id, name, description, code, active, ()) => ⟨id, name, description, code, active⟩)
    (fun c => (c.id, c.name, c.description, c.code, c.active, ()))

def Projection.shape : Shape Projection :=
  .record "Projection"
    (.cons "grant_id" .text .required <|
      .cons "grant_total_funds" .amount .required <|
      .cons "existing_expense_amount" .amount .required <|
      .cons "projected_expense_amount" .amount .required <|
      .cons "grant_projected_remaining_funds" .amount .required <|
      .cons "grant_current_remaining_funds" .amount .required .nil)
    (fun (grant, total, spent, projected, remainingThen, remainingNow, ()) =>
      ⟨grant, total, spent, projected, remainingThen, remainingNow⟩)
    (fun p => (p.grant, p.total, p.spent, p.projected, p.remainingThen, p.remainingNow, ()))

instance : Shaped Verdict := ⟨Verdict.shape⟩
instance : Shaped Grant := ⟨Grant.shape⟩
instance : Shaped Expense := ⟨Expense.shape⟩
instance : Shaped Approval := ⟨Approval.shape⟩
instance : Shaped Category := ⟨Category.shape⟩
instance : Shaped Projection := ⟨Projection.shape⟩

end GrantConsole
