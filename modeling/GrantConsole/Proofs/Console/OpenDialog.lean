import GrantConsole.Proofs.Console.Failures

/-!
# Answers and the open dialog

A page has one dialog over its rows, and an answer does not say from which dialog its call was made.
So it acts on the dialog that is open when it comes: a save that went well and every answer to a
deletion close it, a fetched user takes its place, and no other answer touches it or its draft. An
answer to a call of a page that has been left does nothing to the page at hand.
-/

namespace GrantConsole

open GrantConsole.Api

variable {R : Type}

namespace Listing

variable [Resource R]

@[simp] theorem dialog_upsert (l : Listing R) (saved : R) : (l.upsert saved).dialog = l.dialog := by
  unfold upsert
  split <;> rfl

theorem dialog_openEdit (l : Listing R) (id : String) :
    (l.openEdit id).1.dialog = (l.find? id).elim l.dialog .edit := by
  unfold openEdit
  split <;> simp [*]

/-- What the answers to saves and deletions do to the dialog of a listing, whichever it is. -/
structure GivesUpDialog (l : Listing R) : Prop where
  saved : ∀ saved, (l.finishSave (.ok saved)).1.dialog = .closed
  unsaved : ∀ e, (l.finishSave (.error e)).1 = l
  deleted : ∀ id result, (l.finishDelete id result).1.dialog = .closed

theorem givesUpDialog (l : Listing R) : l.GivesUpDialog where
  saved _ := rfl
  unsaved _ := rfl
  deleted id result := by cases result <;> rfl

end Listing

namespace Screen

theorem Expenses.dialog_reload (s : Expenses) (session : Session) :
    (rows.listing (s.reload session).state).dialog = (rows.listing s).dialog := by
  unfold reload
  split <;> rfl

theorem Roles.dialog_reload (s : Roles) (session : Session) :
    (rows.listing (s.reload session).state).dialog = (rows.listing s).dialog := by
  unfold reload
  split <;> rfl

theorem Approvals.dialog_record (s : Approvals) (expense : String) (approval : Approval) :
    (rows.listing (s.record expense approval)).dialog = (rows.listing s).dialog :=
  Listing.dialog_upsert _ approval

theorem Users.dialog_openFetched (l : Listing User) (id : String) (user : User) :
    (openFetched id user l).dialog = ((l.upsert user).find? id).elim l.dialog .edit := by
  rw [openFetched, Listing.dialog_openEdit, Listing.dialog_upsert]

end Screen

end GrantConsole

namespace GrantConsole.Console.Page

open GrantConsole.Api GrantConsole.Screen

/-- The call saves the draft of a dialog. -/
def Call.saves : Call → Bool
  | grants (.create _) | grants (.replace _ _) => true
  | expenses (.create _) => true
  | categories (.create _) => true
  | roles (.assign _) => true
  | users (.create _) | users (.update _ _) => true
  | _ => false

/-- The answer closes the dialog: a save that went well, or any answer to a deletion. -/
def Call.closes (c : Call) (result : Except Failure c.Answer) : Bool :=
  c.operation.method = .delete || c.saves && result.isOk

/-- The user that was fetched, and the id under which it was asked for. -/
def Call.fetched? : (c : Call) → Except Failure c.Answer → Option (String × User)
  | .users (.fetch id), .ok user => some (id, user)
  | _, _ => none

/-- The dialog over the rows of a page after an answer, whichever was open as it came. A fetched
user takes the place of the dialog if the row that was asked for is found. -/
def dialogMet (p : Page) (c : Call) (result : Except Failure c.Answer) :
    Option (Σ R : Type, Dialog R) :=
  match c.fetched? result, p with
  | some (id, user), users s =>
    let l := Users.rows.listing s
    some ⟨User, ((l.upsert user).find? id).elim l.dialog .edit⟩
  | _, _ => if c.closes result then p.dialog?.map fun d => ⟨d.1, .closed⟩ else p.dialog?

theorem shown_congr {R : Type} {d e : Dialog R} (same : d = e) :
    (some ⟨R, d⟩ : Option (Σ R : Type, Dialog R)) = some ⟨R, e⟩ := by
  rw [same]

theorem dialog?_eq_none {p : Page}
    (none : p.kind = .signIn ∨ p.kind = .overview ∨ p.kind = .ruleEditor) : p.dialog? = .none := by
  cases p <;> simp [kind] at none <;> rfl

theorem dialogMet_of_closes {p : Page} {c : Call} {result : Except Failure c.Answer}
    (closes : c.closes result = true) :
    p.dialogMet c result = p.dialog?.map fun d => ⟨d.1, .closed⟩ := by
  unfold dialogMet
  split
  · rename_i fetched
    unfold Call.fetched? at fetched
    split at fetched
    · cases closes
    · cases fetched
  · rw [if_pos closes]

/-- Where there is no dialog there is none after an answer. -/
theorem dialogMet_of_none {p : Page} (none : p.dialog? = .none) (c : Call)
    (result : Except Failure c.Answer) : p.dialogMet c result = .none := by
  unfold dialogMet
  split
  · cases none
  · split <;> simp [none]

/-- An answer does to the dialog of a page what the call and the result say, and nothing else. -/
theorem dialog?_settle {p : Page} {c : Call} (own : c.kind = p.kind) (session : Session)
    (result : Except Failure c.Answer) :
    ∃ q, (settle (some p) session c result).state = some q ∧ q.dialog? = p.dialogMet c result := by
  have bare (none : c.kind = .signIn ∨ c.kind = .overview ∨ c.kind = .ruleEditor) :
      ∃ q, (settle (some p) session c result).state = some q ∧
        q.dialog? = p.dialogMet c result := by
    have there := (settle_isSome_iff (some p) session c result).mpr ⟨p, rfl, own.symm⟩
    obtain ⟨q, left⟩ := Option.isSome_iff_exists.mp there
    refine ⟨q, left, ?_⟩
    rw [dialogMet_of_none (dialog?_eq_none (own ▸ none)),
      dialog?_eq_none (kind_settle _ session c result q left ▸ none)]
  cases c with
  | signIn c => exact bare (.inl rfl)
  | overview c => exact bare (.inr (.inl rfl))
  | ruleEditor c => exact bare (.inr (.inr rfl))
  | grants c =>
    cases p <;> cases own
    cases c with
    | load | create _ | replace _ _ | delete _ => cases result <;> exact ⟨_, rfl, rfl⟩
  | expenses c =>
    cases p <;> cases own
    rename_i s
    cases c with
    | load _ | categories | delete _ => cases result <;> exact ⟨_, rfl, rfl⟩
    | create _ =>
      cases result with
      | ok saved => exact ⟨_, rfl, shown_congr (Expenses.dialog_reload _ session)⟩
      | error e => exact ⟨_, rfl, rfl⟩
  | approvals c =>
    cases p <;> cases own
    rename_i s
    cases c with
    | loadPending | load | delete _ => cases result <;> exact ⟨_, rfl, rfl⟩
    | decide expense _ _ =>
      cases result with
      | ok approval => exact ⟨_, rfl, shown_congr (s.dialog_record expense approval)⟩
      | error e => exact ⟨_, rfl, rfl⟩
  | categories c =>
    cases p <;> cases own
    cases c with
    | load | create _ | delete _ => cases result <;> exact ⟨_, rfl, rfl⟩
  | roles c =>
    cases p <;> cases own
    rename_i s
    cases c with
    | load _ | users | delete _ => cases result <;> exact ⟨_, rfl, rfl⟩
    | assign _ =>
      cases result with
      | ok saved => exact ⟨_, rfl, shown_congr (Roles.dialog_reload _ session)⟩
      | error e => exact ⟨_, rfl, rfl⟩
  | users c =>
    cases p <;> cases own
    rename_i s
    cases c with
    | load | create _ | update _ _ | delete _ => cases result <;> exact ⟨_, rfl, rfl⟩
    | fetch id =>
      cases result with
      | ok user =>
        exact ⟨_, rfl, shown_congr
          (Users.dialog_openFetched (Users.rows.listing s) id user)⟩
      | error e => exact ⟨_, rfl, rfl⟩
  | rules c =>
    cases p <;> cases own
    rename_i s
    cases c with
    | load _ | templates | delete _ => cases result <;> exact ⟨_, rfl, rfl⟩
    | toggle _ _ | applyTemplate _ _ _ =>
      cases result with
      | ok rule =>
        exact ⟨_, rfl, shown_congr ((Rules.rows.listing s).dialog_upsert rule)⟩
      | error e => exact ⟨_, rfl, rfl⟩

end GrantConsole.Console.Page

namespace GrantConsole.Console.Tab

open GrantConsole.Api GrantConsole.Screen

/-- An operator who saves a category and drafts the next one before the answer comes. -/
def draftsOn : List Step :=
  [.click { look := { tag := some "button", text := some "New category" } },
    .click { look := { tag := some "button", text := some "Save" } },
    .click { look := { tag := some "button", text := some "Cancel" } },
    .click { look := { tag := some "button", text := some "New category" } }]

/-- A server without categories that is late with the answer to a save. -/
def slowServer : Server where
  replies := [some (.answer ⟨200, "\x7b\"data\":[],\"count\":0\x7d"⟩), none]

end GrantConsole.Console.Tab
