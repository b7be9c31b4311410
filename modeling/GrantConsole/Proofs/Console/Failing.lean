import GrantConsole.Proofs.Console.Changes
import GrantConsole.Proofs.Console.Cost
import GrantConsole.Proofs.Draft.Run
import GrantConsole.Proofs.Screen.Questions

/-!
# Calls that fail

Some calls change what the server keeps, or prepare a change; the others load. When one that changes
fails, the page that made it keeps its rows and their counts, its drafts and what was typed into it:
only the question whether to delete is closed by a deletion that failed. The operator is told once.
-/

namespace GrantConsole

/-- The rows of a listing and their count. -/
structure Contents where
  Row : Type
  items : List Row
  count : Int64

def Listing.contents {R : Type} (l : Listing R) : Contents :=
  ⟨R, l.items, l.count⟩

end GrantConsole

namespace GrantConsole.Console.Page

open GrantConsole.Api GrantConsole.Screen

/-- The call saves a draft, deletes, switches a rule, makes one from a template, decides, fetches a
user to be changed, or submits a rule. -/
def Call.mutates : Call → Bool
  | signIn _ => false
  | grants .load => false
  | grants _ => true
  | overview _ => false
  | expenses (.load _) | expenses .categories => false
  | expenses _ => true
  | approvals .loadPending | approvals .load => false
  | approvals _ => true
  | categories .load => false
  | categories _ => true
  | roles (.load _) | roles .users => false
  | roles _ => true
  | users .load => false
  | users _ => true
  | rules (.load _) | rules .templates => false
  | rules _ => true
  | ruleEditor (.locate _ _) => false
  | ruleEditor (.submit _) => true

/-- What every list of a page holds. -/
def contents : Page → List Contents
  | grants s => [(Grants.rows.listing s).contents]
  | expenses s => [(Expenses.rows.listing s).contents]
  | approvals s => [(Approvals.pendingRows.listing s).contents, (Approvals.rows.listing s).contents]
  | categories s => [(Categories.rows.listing s).contents]
  | roles s => [(Roles.rows.listing s).contents]
  | users s => [(Users.rows.listing s).contents]
  | rules s => [(Rules.rows.listing s).contents]
  | _ => []

/-- The dialog over the rows of a page, with its draft. -/
def dialog? : Page → Option (Σ R : Type, Dialog R)
  | grants s => some ⟨_, (Grants.rows.listing s).dialog⟩
  | expenses s => some ⟨_, (Expenses.rows.listing s).dialog⟩
  | approvals s => some ⟨_, (Approvals.rows.listing s).dialog⟩
  | categories s => some ⟨_, (Categories.rows.listing s).dialog⟩
  | roles s => some ⟨_, (Roles.rows.listing s).dialog⟩
  | users s => some ⟨_, (Users.rows.listing s).dialog⟩
  | rules s => some ⟨_, (Rules.rows.listing s).dialog⟩
  | _ => none

/-- The rule in the editor. -/
def rule? : Page → Option Rule
  | ruleEditor s => some s.draft.value.rule
  | _ => none

/-- The dialog for templates is open. -/
def choosesTemplate : Page → Bool
  | rules s => s.templateOpen
  | _ => false

/-- What stands in inputs that are in no draft: amounts, a password, the comment on a decision, the
template and its parameters. -/
def texts : Page → List String
  | grants s => [s.amount]
  | expenses s => [s.amount]
  | approvals s => [s.comments]
  | users s => [s.password]
  | rules s => [s.template.value, s.parameters]
  | _ => []

/-- What a failure leaves of a page. -/
structure Spared (p q : Page) : Prop where
  contents : q.contents = p.contents
  rule : q.rule? = p.rule?
  choosesTemplate : q.choosesTemplate = p.choosesTemplate
  texts : q.texts = p.texts

/-- What becomes of the dialog over the rows when a call fails: a deletion closes it. -/
def dialogAfter (c : Call) (p : Page) : Option (Σ R : Type, Dialog R) :=
  if c.operation.method = .delete then p.dialog?.map fun d => ⟨d.1, .closed⟩ else p.dialog?

/-- A call that changes something failed: the page is spared, and the failure is told. -/
structure Fails (p : Page) (session : Session) (c : Call) (e : Failure)
    (t : Turn (Option Page) Call) : Prop where
  told : ∃ before, t.commands = [failure (before ++ e.message)]
  session : t.session = session
  page : ∃ q, t.state = some q ∧ p.Spared q ∧ q.dialog? = p.dialogAfter c

section Failing

variable {p : Page} {session : Session} {c : Call} {e : Failure} {t : Turn (Option Page) Call}

theorem Fails.tells {q : Page} (before : String)
    (turn : t = ⟨some q, session, [failure (before ++ e.message)]⟩) (spared : p.Spared q)
    (dialog : q.dialog? = p.dialogAfter c) : p.Fails session c e t := by
  subst turn
  exact ⟨⟨before, rfl⟩, rfl, q, rfl, spared, dialog⟩

/-- The failure is told and nothing before it. -/
theorem Fails.plain {q : Page} (turn : t = ⟨some q, session, [failure e.message]⟩)
    (spared : p.Spared q) (dialog : q.dialog? = p.dialogAfter c) : p.Fails session c e t :=
  .tells "" (by rw [turn, String.empty_append]) spared dialog

/-- The submit in flight failed. -/
theorem submit_fails {s : RuleEditor} (busy : s.draft.value.isSubmitting = true)
    (session : Session) (submission : Submission) (e : Failure) :
    (ruleEditor s).Fails session (.ruleEditor (.submit submission)) e
      (settle (some (ruleEditor s)) session (.ruleEditor (.submit submission)) (.error e)) := by
  have failed := RuleDraft.finishSubmit_error busy e
  have posts : (Call.ruleEditor (.submit submission)).operation.method ≠ .delete := by
    rcases submission.operation_method with post | put
    · exact fun deletes => nomatch post.symm.trans deletes
    · exact fun deletes => nomatch put.symm.trans deletes
  refine .plain (q := ruleEditor (s.edit fun _ => (s.draft.value.finishSubmit (.error e)).1)) ?_
    ⟨rfl, ?_, rfl, rfl⟩ ?_
  · show Turn.map _ _ (RuleEditor.settleSubmit (some s) session (.error e)) = _
    rw [RuleEditor.settleSubmit, failed]
    rfl
  · rw [failed]
    rfl
  · rw [dialogAfter, if_neg posts]
    rfl

/-- A page that takes in the failure of a call of its own that changes something is spared, and
tells the operator once. In the rule editor this is the submit in flight. -/
theorem settle_fails (own : c.kind = p.kind) (mutates : c.mutates = true)
    (busy : ∀ s, p = ruleEditor s → s.draft.value.isSubmitting = true) (session : Session)
    (e : Failure) : p.Fails session c e (settle (some p) session c (.error e)) := by
  cases c with
  | signIn c | overview c => cases mutates
  | grants c =>
    cases p <;> cases own
    cases c with
    | load => cases mutates
    | create _ | replace _ _ | delete _ => exact .plain rfl ⟨rfl, rfl, rfl, rfl⟩ rfl
  | expenses c =>
    cases p <;> cases own
    cases c with
    | load _ | categories => cases mutates
    | create _ | delete _ => exact .plain rfl ⟨rfl, rfl, rfl, rfl⟩ rfl
  | approvals c =>
    cases p <;> cases own
    cases c with
    | loadPending | load => cases mutates
    | decide _ _ _ | delete _ => exact .plain rfl ⟨rfl, rfl, rfl, rfl⟩ rfl
  | categories c =>
    cases p <;> cases own
    cases c with
    | load => cases mutates
    | create _ | delete _ => exact .plain rfl ⟨rfl, rfl, rfl, rfl⟩ rfl
  | roles c =>
    cases p <;> cases own
    cases c with
    | load _ | users => cases mutates
    | assign _ | delete _ => exact .plain rfl ⟨rfl, rfl, rfl, rfl⟩ rfl
  | users c =>
    cases p <;> cases own
    cases c with
    | load => cases mutates
    | fetch _ => exact .tells "Could not load user: " rfl ⟨rfl, rfl, rfl, rfl⟩ rfl
    | create _ | update _ _ | delete _ => exact .plain rfl ⟨rfl, rfl, rfl, rfl⟩ rfl
  | rules c =>
    cases p <;> cases own
    cases c with
    | load _ | templates => cases mutates
    | toggle _ _ | delete _ | applyTemplate _ _ _ => exact .plain rfl ⟨rfl, rfl, rfl, rfl⟩ rfl
  | ruleEditor c =>
    cases p <;> cases own
    cases c with
    | locate _ _ => cases mutates
    | submit submission => exact submit_fails (busy _ rfl) session submission e

end Failing

end GrantConsole.Console.Page
