import GrantConsole.Proofs.Draft.Flight
import GrantConsole.Proofs.Screen.Turns

/-!
# Acts that are repeated

An act that makes a call makes that one call and does little else. The sign-in page and the rule
editor note that their call is under way, and make no other before it is answered. All other screens
are left such that the same act makes the same call once more; and where the call is to change
something on the server, they show what they showed before.
-/

namespace GrantConsole.Screen

open GrantConsole.Api GrantConsole.Number

variable {S C R : Type} {session : Session} {entry : Entry}

theorem Rows.confirmed_of_call {rows : Rows S R} {delete : String → C} {s : S} {c : C}
    (called : .call c ∈ (rows.confirmed delete s session).commands) :
    rows.confirmed delete s session = ⟨s, session, [.call c]⟩ := by
  unfold confirmed at called ⊢
  split at called
  · cases List.mem_singleton.mp called
    rfl
  · cases called

theorem Categories.handle_of_call {s : Categories} {act : Act} {c : Call}
    (called : .call c ∈ (s.handle session act entry).commands) :
    s.handle session act entry = ⟨s, session, [.call c]⟩ := by
  cases act with
  | save =>
    simp only [handle] at called ⊢
    split at called
    · cases called
    · cases List.mem_singleton.mp called
      rfl
  | confirm => exact Rows.confirmed_of_call called
  | _ => cases called

theorem Expenses.handle_of_call {s : Expenses} {act : Act} {c : Call}
    (called : .call c ∈ (s.handle session act entry).commands) :
    s.handle session act entry = ⟨s, session, [.call c]⟩ := by
  cases act with
  | new =>
    simp only [handle] at called
    split at called <;> simp [failure] at called
  | save =>
    simp only [handle] at called ⊢
    split at called
    · simp [failure] at called
    · split at called
      · cases called
      · cases List.mem_singleton.mp called
        rfl
  | confirm => exact Rows.confirmed_of_call called
  | _ => cases called

theorem Approvals.handle_of_call {s : Approvals} {act : Act} {c : Call}
    (called : .call c ∈ (s.handle session act entry).commands) :
    s.handle session act entry = ⟨s, session, [.call c]⟩ := by
  cases act with
  | approve expense | reject expense =>
    cases List.mem_singleton.mp called
    rfl
  | confirm => exact Rows.confirmed_of_call called
  | _ => cases called

theorem Roles.handle_of_call {s : Roles} {act : Act} {c : Call}
    (called : .call c ∈ (s.handle session act entry).commands) :
    s.handle session act entry = ⟨s, session, [.call c]⟩ := by
  cases act with
  | new =>
    simp only [handle] at called
    split at called <;> simp [failure] at called
  | save =>
    simp only [handle] at called ⊢
    split at called
    · cases called
    · split at called
      · simp [failure] at called
      · cases List.mem_singleton.mp called
        rename_i named
        rw [if_neg named]
  | confirm => exact Rows.confirmed_of_call called
  | _ => cases called

theorem Users.handle_of_call {s : Users} {act : Act} {c : Call}
    (called : .call c ∈ (s.handle session act entry).commands) :
    s.handle session act entry = ⟨s, session, [.call c]⟩ := by
  cases act with
  | edit id =>
    cases List.mem_singleton.mp called
    rfl
  | save =>
    have one : s.saveCommand = [.call c] := by
      simp only [handle] at called
      unfold saveCommand at called ⊢
      split at called
      · cases List.mem_singleton.mp called
        rfl
      · split at called
        · cases List.mem_singleton.mp called
          rfl
        · simp [failure] at called
      · cases called
    simp only [handle, one]
  | confirm => exact Rows.confirmed_of_call called
  | _ => cases called

/-- The dialog of templates opens as they are called for. -/
theorem Rules.handle_of_call {s : Rules} {act : Act} {c : Call}
    (called : .call c ∈ (s.handle session act entry).commands) :
    s.handle session act entry = ⟨s, session, [.call c]⟩ ∨
      act = .openTemplates ∧ c = .templates := by
  cases act with
  | toggle id =>
    simp only [handle] at called ⊢
    split at called
    · cases called
    · cases List.mem_singleton.mp called
      exact .inl rfl
  | confirm => exact .inl (Rows.confirmed_of_call called)
  | openTemplates =>
    cases List.mem_singleton.mp called
    exact .inr ⟨rfl, rfl⟩
  | applyTemplate =>
    simp only [handle] at called ⊢
    split at called
    · cases List.mem_singleton.mp called
      exact .inl rfl
    · simp [failure] at called
  | edit id => simp [handle] at called
  | _ => cases called

/-- The draft of a grant takes the amount that is typed, as it is saved. -/
theorem Grants.handle_of_call {s : Grants} {act : Act} {c : Call}
    (called : .call c ∈ (s.handle session act entry).commands) :
    s.handle session act entry = ⟨s, session, [.call c]⟩ ∨
      act = .save ∧ ∃ total, readAmountText s.amount = .ok total ∧
        s.handle session act entry =
          ⟨s.editDraft fun g => { g with total }, session, [.call c]⟩ := by
  cases act with
  | select id | edit id =>
    simp only [handle] at called
    split at called <;> simp at called
  | save =>
    refine .inr ⟨rfl, ?_⟩
    simp only [handle] at called ⊢
    split at called
    · simp [failure] at called
    · rename_i total read
      split at called
      · cases called
      · cases List.mem_singleton.mp called
        exact ⟨total, read, by simp⟩
  | confirm => exact .inl (Rows.confirmed_of_call called)
  | _ => cases called

/-- The page notes that it waits for a token. -/
theorem SignIn.handle_of_call {s : SignIn} {act : Act} {c : Call}
    (called : .call c ∈ (s.handle session act entry).commands) :
    act = .submit ∧ s.handle session act entry = ⟨{ s with busy := true }, session, [.call c]⟩ := by
  cases act with
  | submit =>
    refine ⟨rfl, ?_⟩
    simp only [handle] at called ⊢
    split at called
    · cases called
    · rename_i free
      split at called
      · simp [failure] at called
      · cases List.mem_singleton.mp called
        simp [free]
  | _ => cases called

/-! ## The same act on the screen that it left -/

theorem Grants.editDraft_editDraft (s : Grants) {f : Grant → Grant} (again : ∀ g, f (f g) = f g) :
    (s.editDraft f).editDraft f = s.editDraft f := by
  obtain ⟨⟨⟨items, count, loading, error, dialog⟩, typed⟩, amount⟩ := s
  cases dialog with
  | create draft | edit draft =>
    simp only [editDraft, rows, Rows.update, Part.modify, Cell.update, Listing.editDraft,
      Dialog.mapDraft, again]
  | closed | confirmDelete id => rfl

/-- A save reads the amount that is typed, whatever the draft had for it. -/
theorem Grants.handle_save_editDraft (entry : Entry) {s : Grants} {total : Binary64}
    (read : readAmountText s.amount = .ok total) :
    (s.editDraft fun g => { g with total }).handle session .save entry =
      s.handle session .save entry := by
  have typed : (s.editDraft fun g => { g with total }).amount = s.amount := rfl
  have twice : (s.editDraft fun g => { g with total }).editDraft (fun g => { g with total }) =
      s.editDraft fun g => { g with total } := s.editDraft_editDraft fun _ => rfl
  simp only [handle, typed, read, twice]

/-- The form shows the amount that is typed, and nothing of the one that the draft has. -/
theorem Grants.view_editDraft (s : Grants) (total : Binary64) :
    (s.editDraft fun g => { g with total }).view = s.view := by
  obtain ⟨⟨⟨items, count, loading, error, dialog⟩, typed⟩, amount⟩ := s
  cases dialog <;> rfl

/-- An editor that has begun to submit begins nothing more. -/
theorem RuleEditor.handle_submit_again {s : RuleEditor} {c : Call}
    (called : .call c ∈ (s.handle session .submit entry).commands) :
    ∃ t, s.handle session .submit entry = ⟨t, session, [.call c]⟩ ∧
      t.handle session .submit entry = ⟨t, session, []⟩ := by
  obtain ⟨-, submission, begun, rfl⟩ := call_handle called
  have waits := (RuleDraft.beginSubmit_snapshot begun).2
  have busy : s.draft.value.beginSubmit.1.isSubmitting = true := by
    unfold RuleDraft.isSubmitting
    rw [waits]
  refine ⟨s.edit fun _ => s.draft.value.beginSubmit.1, by simp [handle, begun], ?_⟩
  have same : (s.edit fun _ => s.draft.value.beginSubmit.1).draft.value.beginSubmit =
      (s.draft.value.beginSubmit.1, none) := RuleDraft.beginSubmit_of_isSubmitting busy
  simp only [handle, same]
  rfl

end GrantConsole.Screen
