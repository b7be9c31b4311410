import GrantConsole.Listing.Basic

/-!
# Runs over a listing

What becomes of a listing under a list of actions. What every action preserves holds at the end of
a run.
-/

namespace GrantConsole.Listing

open GrantConsole.Api

variable {R : Type}

/-- What can be done with a listing. -/
inductive Action (R : Type)
  | beginLoad
  | finishLoad (result : Except Failure (Page R))
  | retain (keep : R → Bool)
  | openCreate (draft : R)
  | openEdit (id : String)
  | openDelete (id : String)
  | closeDialog
  | editDraft (f : R → R)
  | upsert (saved : R)
  | finishSave (result : Except Failure R)
  | finishDelete (id : String) (result : Except Failure Unit)

/-- The action brings in rows of a page. -/
def Action.loadsPage : Action R → Bool
  | .finishLoad (.ok _) => true
  | _ => false

variable [Resource R]

/-- The listing after an action. -/
def act (s : Listing R) : Action R → Listing R
  | .beginLoad => s.beginLoad
  | .finishLoad result => s.finishLoad result
  | .retain keep => s.retain keep
  | .openCreate draft => s.openCreate draft
  | .openEdit id => (s.openEdit id).1
  | .openDelete id => s.openDelete id
  | .closeDialog => s.closeDialog
  | .editDraft f => s.editDraft f
  | .upsert saved => s.upsert saved
  | .finishSave result => (s.finishSave result).1
  | .finishDelete id result => (s.finishDelete id result).1

def run (s : Listing R) (actions : List (Action R)) : Listing R :=
  actions.foldl act s

/-- What holds at the start of a run and is kept by each of its actions holds at its end. -/
theorem run_induction {motive : Listing R → Prop} {s : Listing R} {actions : List (Action R)}
    (start : motive s) (step : ∀ s, ∀ action ∈ actions, motive s → motive (s.act action)) :
    motive (s.run actions) :=
  List.foldlRecOn actions act start fun s holds action member => step s action member holds

/-- The rows that an action leaves. -/
inductive RowsAfter (s : Listing R) : Action R → List R → Prop where
  | retained (keep : R → Bool) : RowsAfter s (.retain keep) (s.items.filter keep)
  | upserted (saved : R) : RowsAfter s (.upsert saved) (s.upsert saved).items
  | saved (saved : R) : RowsAfter s (.finishSave (.ok saved)) (s.upsert saved).items
  | deleted (id : String) :
      RowsAfter s (.finishDelete id (.ok ())) (s.items.filter fun r => !hasId id r)
  | loaded (page : Page R) : RowsAfter s (.finishLoad (.ok page)) page.items
  | kept (action : Action R) : RowsAfter s action s.items

theorem openEdit_items (s : Listing R) (id : String) : (s.openEdit id).1.items = s.items := by
  unfold openEdit
  cases s.find? id <;> rfl

theorem rowsAfter_act (s : Listing R) (action : Action R) :
    RowsAfter s action (s.act action).items := by
  cases action with
  | beginLoad => exact .kept _
  | finishLoad result =>
      cases result with
      | error failure => exact .kept _
      | ok page => exact .loaded page
  | retain keep => exact .retained keep
  | openCreate draft => exact .kept _
  | openEdit id =>
      change RowsAfter s _ (s.openEdit id).1.items
      rw [openEdit_items]
      exact .kept _
  | openDelete id => exact .kept _
  | closeDialog => exact .kept _
  | editDraft f => exact .kept _
  | upsert saved => exact .upserted saved
  | finishSave result =>
      cases result with
      | error failure => exact .kept _
      | ok saved => exact .saved saved
  | finishDelete id result =>
      cases result with
      | error failure => exact .kept _
      | ok done => exact .deleted id

end GrantConsole.Listing
