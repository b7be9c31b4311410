import GrantConsole.Proofs.Listing.Keyed
import GrantConsole.Proofs.Screen.Turns

/-!
# Questions whether to delete

A listing asks about one record at most, and does so from the act on that record's row until its
dialog closes or another opens: no answer of the server and no other act makes it ask. Only the
answer yes calls for a deletion, and it is the deletion of the record that was asked about.
-/

namespace GrantConsole

open GrantConsole.Api

variable {R : Type}

/-- The record that a dialog asks about. -/
def Dialog.asked? : Dialog R → Option String
  | confirmDelete id => some id
  | _ => none

theorem Dialog.asked?_eq_some_iff {d : Dialog R} {id : String} :
    d.asked? = some id ↔ d = .confirmDelete id := by
  cases d <;> simp [asked?]

namespace Listing

variable (l : Listing R)

/-- The record that a listing asks about. -/
def asked? : Option String :=
  l.dialog.asked?

@[simp] theorem asked?_openDelete (id : String) : (l.openDelete id).asked? = some id := rfl

@[simp] theorem asked?_openCreate (draft : R) : (l.openCreate draft).asked? = none := rfl

@[simp] theorem asked?_closeDialog : l.closeDialog.asked? = none := rfl

@[simp] theorem asked?_beginLoad : l.beginLoad.asked? = l.asked? := rfl

@[simp] theorem asked?_retain (keep : R → Bool) : (l.retain keep).asked? = l.asked? := rfl

@[simp] theorem asked?_editDraft (f : R → R) : (l.editDraft f).asked? = l.asked? := by
  unfold asked? editDraft
  cases l.dialog <;> rfl

@[simp] theorem asked?_finishLoad (result : Except Failure (Page R)) :
    (l.finishLoad result).asked? = l.asked? := by
  cases result <;> rfl

variable [Resource R]

@[simp] theorem asked?_upsert (saved : R) : (l.upsert saved).asked? = l.asked? := by
  unfold upsert
  split <;> rfl

/-- Saving leaves the question or ends it, but asks none. -/
theorem asked?_finishSave {result : Except Failure R} {id : String}
    (asks : (l.finishSave result).1.asked? = some id) : l.asked? = some id := by
  cases result with
  | ok saved => cases asks
  | error e => exact asks

@[simp] theorem asked?_finishDelete (id : String) (result : Except Failure Unit) :
    (l.finishDelete id result).1.asked? = none := by
  cases result <;> rfl

/-- Opening a row leaves the question or ends it. -/
theorem asked?_openEdit {row id : String} (asks : (l.openEdit row).1.asked? = some id) :
    l.asked? = some id := by
  unfold openEdit at asks
  split at asks
  · cases asks
  · exact asks

end Listing

end GrantConsole

namespace GrantConsole.Screen

open GrantConsole.Api

variable {S C R : Type}

namespace Rows

/-- What is put in is what is there, and it is put in its place only. -/
def Lawful (rows : Rows S R) : Prop :=
  ∀ s c, rows.get (rows.put s c) = c

variable {rows : Rows S R}

/-- The answer yes calls for the deletion of the record that was asked about, and for nothing if
none was. -/
theorem call_confirmed {delete : String → C} {s : S} {session : Session} {c : C}
    (called : .call c ∈ (rows.confirmed delete s session).commands) :
    ∃ id, (rows.listing s).asked? = some id ∧ c = delete id := by
  unfold confirmed at called
  split at called
  · rename_i id asked
    refine ⟨id, Dialog.asked?_eq_some_iff.mpr asked, ?_⟩
    simpa using called
  · cases called

theorem confirmed_of_asked {delete : String → C} {s : S} {id : String}
    (asked : (rows.listing s).asked? = some id) (session : Session) :
    rows.confirmed delete s session = ⟨s, session, [.call (delete id)]⟩ := by
  unfold confirmed
  rw [Dialog.asked?_eq_some_iff.mp asked]

@[simp] theorem confirmed_state (delete : String → C) (s : S) (session : Session) :
    (rows.confirmed delete s session).state = s := by
  unfold confirmed
  split <;> rfl

variable (lawful : rows.Lawful)

include lawful

theorem listing_update (f : Listing R → Listing R) (s : S) :
    rows.listing (rows.update f s) = f (rows.listing s) := by
  unfold listing update Part.modify
  rw [lawful]
  rfl

theorem asked?_settleLoad {s t : S} {session : Session} {result : Except Failure (Page R)}
    (loaded : (rows.settleLoad (C := C) (some s) session result).state = some t) :
    (rows.listing t).asked? = (rows.listing s).asked? := by
  cases loaded
  rw [listing_update lawful, Listing.asked?_finishLoad]

variable [Resource R]

theorem asked?_settleSave {reload : S → Session → Turn S C}
    (reloads : ∀ s session,
      (rows.listing (reload s session).state).asked? = (rows.listing s).asked?)
    {text id : String} {s t : S} {session : Session} {result : Except Failure R}
    (saved : (rows.settleSave reload text (some s) session result).state = some t)
    (asks : (rows.listing t).asked? = some id) : (rows.listing s).asked? = some id := by
  have listed := listing_update lawful (fun _ => ((rows.listing s).finishSave result).1) s
  unfold settleSave at saved
  dsimp only at saved
  split at saved
  · rw [Turn.after_state, Turn.map_state] at saved
    cases saved
    rw [reloads, listed] at asks
    exact Listing.asked?_finishSave _ asks
  · cases saved
    rw [listed] at asks
    exact Listing.asked?_finishSave _ asks

theorem asked?_settleDelete {id text : String} {s t : S} {session : Session}
    {result : Except Failure Unit}
    (deleted : (rows.settleDelete (C := C) id text (some s) session result).state = some t) :
    (rows.listing t).asked? = none := by
  have listed := listing_update lawful (fun _ => ((rows.listing s).finishDelete id result).1) s
  unfold settleDelete at deleted
  dsimp only at deleted
  split at deleted
  all_goals
    cases deleted
    rw [listed, Listing.asked?_finishDelete]

end Rows

/-! ## The pages that delete

A record is asked about because the act on its row asks, or because it was before and nothing was
opened or closed since.
-/

namespace Grants

theorem lawful : rows.Lawful := fun _ _ => rfl

theorem asked?_editDraft (s : Grants) (f : Grant → Grant) :
    (rows.listing (s.editDraft f)).asked? = (rows.listing s).asked? :=
  Listing.asked?_editDraft _ f

theorem asked?_reload (s : Grants) (session : Session) :
    (rows.listing (s.reload session).state).asked? = (rows.listing s).asked? := rfl

theorem asked?_handle (s : Grants) {session : Session} {act : Act} {entry : Entry} {id : String}
    (asks : (rows.listing (s.handle session act entry).state).asked? = some id) :
    act = .delete id ∨ (∀ other, act ≠ .delete other) ∧ (rows.listing s).asked? = some id := by
  cases act with
  | delete row => exact .inl (congrArg Act.delete (Option.some.inj asks))
  | new | close => cases asks
  | edit row =>
    have opened : rows.listing (s.handle session (.edit row) entry).state =
        ((rows.listing s).openEdit row).1 := by
      simp only [handle]
      split <;> rfl
    rw [opened] at asks
    exact .inr ⟨nofun, Listing.asked?_openEdit _ asks⟩
  | select row =>
    refine .inr ⟨nofun, ?_⟩
    simp only [handle] at asks
    split at asks <;> exact asks
  | save =>
    refine .inr ⟨nofun, ?_⟩
    simp only [handle] at asks
    split at asks
    · exact asks
    · split at asks <;> exact s.asked?_editDraft _ ▸ asks
  | confirm => exact .inr ⟨nofun, by simpa [handle] using asks⟩
  | amount => exact .inr ⟨nofun, asks⟩
  | _ => exact .inr ⟨nofun, s.asked?_editDraft _ ▸ asks⟩

theorem asked?_settle (s : Grants) {t : Grants} {session : Session} {c : Call}
    {result : Except Failure c.Answer} {id : String}
    (settled : (settle (some s) session c result).state = some t)
    (asks : (rows.listing t).asked? = some id) : (rows.listing s).asked? = some id := by
  cases c with
  | load => exact Rows.asked?_settleLoad lawful settled ▸ asks
  | create grant => exact Rows.asked?_settleSave lawful asked?_reload settled asks
  | replace row grant => exact Rows.asked?_settleSave lawful asked?_reload settled asks
  | delete row => rw [Rows.asked?_settleDelete lawful settled] at asks; cases asks

theorem saveCall_cases (mode : DialogMode) (draft : Grant) :
    (∃ id grant, saveCall mode draft = .replace id grant) ∨
      ∃ grant, saveCall mode draft = .create grant := by
  fun_cases saveCall mode draft
  · exact .inl ⟨_, _, rfl⟩
  · exact .inr ⟨_, rfl⟩

theorem call_delete (s : Grants) {session : Session} {act : Act} {entry : Entry} {c : Call}
    (called : .call c ∈ (s.handle session act entry).commands)
    (deletes : c.operation.method = .delete) :
    act = .confirm ∧ ∃ id, (rows.listing s).asked? = some id ∧ c = .delete id := by
  cases act with
  | confirm =>
    obtain ⟨id, asked, rfl⟩ := Rows.call_confirmed called
    exact ⟨rfl, id, asked, rfl⟩
  | edit row | select row =>
    simp only [handle] at called
    split at called <;> simp at called
  | save =>
    simp only [handle] at called
    split at called
    · simp [failure] at called
    · split at called
      · cases called
      · cases List.mem_singleton.mp called
        rcases saveCall_cases _ _ with ⟨id, grant, saves⟩ | ⟨grant, saves⟩
        · rw [saves] at deletes
          cases deletes
        · rw [saves] at deletes
          cases deletes
  | _ => cases called

end Grants

namespace Expenses

theorem lawful : rows.Lawful := fun _ _ => rfl

theorem asked?_editDraft (s : Expenses) (f : Expense → Expense) :
    (rows.listing (s.editDraft f)).asked? = (rows.listing s).asked? :=
  Listing.asked?_editDraft _ f

theorem asked?_reload (s : Expenses) (session : Session) :
    (rows.listing (s.reload session).state).asked? = (rows.listing s).asked? := by
  unfold reload
  split <;> rfl

theorem asked?_mounted (s : Expenses) (session : Session) :
    (rows.listing (s.mounted session).state).asked? = (rows.listing s).asked? :=
  s.asked?_reload session

theorem asked?_handle (s : Expenses) {session : Session} {act : Act} {entry : Entry} {id : String}
    (asks : (rows.listing (s.handle session act entry).state).asked? = some id) :
    act = .delete id ∨ (∀ other, act ≠ .delete other) ∧ (rows.listing s).asked? = some id := by
  cases act with
  | delete row => exact .inl (congrArg Act.delete (Option.some.inj asks))
  | new =>
    refine .inr ⟨nofun, ?_⟩
    simp only [handle] at asks
    split at asks
    · exact asks
    · cases asks
  | close => cases asks
  | save =>
    refine .inr ⟨nofun, ?_⟩
    simp only [handle] at asks
    split at asks
    · exact asks
    · split at asks <;> exact asks
  | confirm => exact .inr ⟨nofun, by simpa [handle] using asks⟩
  | amount | typed => exact .inr ⟨nofun, asks⟩
  | _ => exact .inr ⟨nofun, s.asked?_editDraft _ ▸ asks⟩

theorem asked?_settle (s : Expenses) {t : Expenses} {session : Session} {c : Call}
    {result : Except Failure c.Answer} {id : String}
    (settled : (settle (some s) session c result).state = some t)
    (asks : (rows.listing t).asked? = some id) : (rows.listing s).asked? = some id := by
  cases c with
  | load grant => exact Rows.asked?_settleLoad lawful settled ▸ asks
  | categories =>
    cases result with
    | ok page => cases settled; exact asks
    | error e => cases settled; exact asks
  | create expense => exact Rows.asked?_settleSave lawful asked?_reload settled asks
  | delete row => rw [Rows.asked?_settleDelete lawful settled] at asks; cases asks

theorem call_delete (s : Expenses) {session : Session} {act : Act} {entry : Entry} {c : Call}
    (called : .call c ∈ (s.handle session act entry).commands)
    (deletes : c.operation.method = .delete) :
    act = .confirm ∧ ∃ id, (rows.listing s).asked? = some id ∧ c = .delete id := by
  cases act with
  | confirm =>
    obtain ⟨id, asked, rfl⟩ := Rows.call_confirmed called
    exact ⟨rfl, id, asked, rfl⟩
  | new =>
    simp only [handle] at called
    split at called <;> simp [failure] at called
  | save =>
    simp only [handle] at called
    split at called
    · simp [failure] at called
    · split at called
      · cases called
      · cases List.mem_singleton.mp called
        cases deletes
  | _ => cases called

end Expenses

namespace Approvals

theorem lawful : rows.Lawful := fun _ _ => rfl

theorem asked?_mounted (s : Approvals) (session : Session) :
    (rows.listing (s.mounted session).state).asked? = (rows.listing s).asked? := rfl

theorem asked?_record (s : Approvals) (expense : String) (approval : Approval) :
    (rows.listing (s.record expense approval)).asked? = (rows.listing s).asked? :=
  Listing.asked?_upsert _ approval

theorem asked?_handle (s : Approvals) {session : Session} {act : Act} {entry : Entry} {id : String}
    (asks : (rows.listing (s.handle session act entry).state).asked? = some id) :
    act = .delete id ∨ (∀ other, act ≠ .delete other) ∧ (rows.listing s).asked? = some id := by
  cases act with
  | delete row => exact .inl (congrArg Act.delete (Option.some.inj asks))
  | close => cases asks
  | confirm => exact .inr ⟨nofun, by simpa [handle] using asks⟩
  | _ => exact .inr ⟨nofun, asks⟩

theorem asked?_settle (s : Approvals) {t : Approvals} {session : Session} {c : Call}
    {result : Except Failure c.Answer} {id : String}
    (settled : (settle (some s) session c result).state = some t)
    (asks : (rows.listing t).asked? = some id) : (rows.listing s).asked? = some id := by
  cases c with
  | loadPending => cases settled; exact asks
  | load => exact Rows.asked?_settleLoad lawful settled ▸ asks
  | decide expense status comments =>
    cases result with
    | ok approval => cases settled; exact s.asked?_record expense approval ▸ asks
    | error e => cases settled; exact asks
  | delete row => rw [Rows.asked?_settleDelete lawful settled] at asks; cases asks

theorem call_delete (s : Approvals) {session : Session} {act : Act} {entry : Entry} {c : Call}
    (called : .call c ∈ (s.handle session act entry).commands)
    (deletes : c.operation.method = .delete) :
    act = .confirm ∧ ∃ id, (rows.listing s).asked? = some id ∧ c = .delete id := by
  cases act with
  | confirm =>
    obtain ⟨id, asked, rfl⟩ := Rows.call_confirmed called
    exact ⟨rfl, id, asked, rfl⟩
  | approve expense | reject expense =>
    cases List.mem_singleton.mp called
    cases deletes
  | _ => cases called

end Approvals

namespace Categories

theorem lawful : rows.Lawful := fun _ _ => rfl

theorem asked?_editDraft (s : Categories) (f : Category → Category) :
    (rows.listing (s.editDraft f)).asked? = (rows.listing s).asked? :=
  Listing.asked?_editDraft _ f

theorem asked?_reload (s : Categories) (session : Session) :
    (rows.listing (s.reload session).state).asked? = (rows.listing s).asked? := rfl

theorem asked?_handle (s : Categories) {session : Session} {act : Act} {entry : Entry} {id : String}
    (asks : (rows.listing (s.handle session act entry).state).asked? = some id) :
    act = .delete id ∨ (∀ other, act ≠ .delete other) ∧ (rows.listing s).asked? = some id := by
  cases act with
  | delete row => exact .inl (congrArg Act.delete (Option.some.inj asks))
  | new | close => cases asks
  | save =>
    refine .inr ⟨nofun, ?_⟩
    simp only [handle] at asks
    split at asks <;> exact asks
  | confirm => exact .inr ⟨nofun, by simpa [handle] using asks⟩
  | _ => exact .inr ⟨nofun, s.asked?_editDraft _ ▸ asks⟩

theorem asked?_settle (s : Categories) {t : Categories} {session : Session} {c : Call}
    {result : Except Failure c.Answer} {id : String}
    (settled : (settle (some s) session c result).state = some t)
    (asks : (rows.listing t).asked? = some id) : (rows.listing s).asked? = some id := by
  cases c with
  | load => exact Rows.asked?_settleLoad lawful settled ▸ asks
  | create category => exact Rows.asked?_settleSave lawful asked?_reload settled asks
  | delete row => rw [Rows.asked?_settleDelete lawful settled] at asks; cases asks

theorem call_delete (s : Categories) {session : Session} {act : Act} {entry : Entry} {c : Call}
    (called : .call c ∈ (s.handle session act entry).commands)
    (deletes : c.operation.method = .delete) :
    act = .confirm ∧ ∃ id, (rows.listing s).asked? = some id ∧ c = .delete id := by
  cases act with
  | confirm =>
    obtain ⟨id, asked, rfl⟩ := Rows.call_confirmed called
    exact ⟨rfl, id, asked, rfl⟩
  | save =>
    simp only [handle] at called
    split at called
    · cases called
    · cases List.mem_singleton.mp called
      cases deletes
  | _ => cases called

end Categories

namespace Roles

theorem lawful : rows.Lawful := fun _ _ => rfl

theorem asked?_editDraft (s : Roles) (f : Role → Role) :
    (rows.listing (s.editDraft f)).asked? = (rows.listing s).asked? :=
  Listing.asked?_editDraft _ f

theorem asked?_reload (s : Roles) (session : Session) :
    (rows.listing (s.reload session).state).asked? = (rows.listing s).asked? := by
  unfold reload
  split <;> rfl

theorem asked?_mounted (s : Roles) (session : Session) :
    (rows.listing (s.mounted session).state).asked? = (rows.listing s).asked? :=
  s.asked?_reload session

theorem asked?_handle (s : Roles) {session : Session} {act : Act} {entry : Entry} {id : String}
    (asks : (rows.listing (s.handle session act entry).state).asked? = some id) :
    act = .delete id ∨ (∀ other, act ≠ .delete other) ∧ (rows.listing s).asked? = some id := by
  cases act with
  | delete row => exact .inl (congrArg Act.delete (Option.some.inj asks))
  | new =>
    refine .inr ⟨nofun, ?_⟩
    simp only [handle] at asks
    split at asks
    · exact asks
    · cases asks
  | close => cases asks
  | save =>
    refine .inr ⟨nofun, ?_⟩
    simp only [handle] at asks
    split at asks
    · exact asks
    · split at asks <;> exact asks
  | confirm => exact .inr ⟨nofun, by simpa [handle] using asks⟩
  | typed => exact .inr ⟨nofun, asks⟩
  | _ => exact .inr ⟨nofun, s.asked?_editDraft _ ▸ asks⟩

theorem asked?_settle (s : Roles) {t : Roles} {session : Session} {c : Call}
    {result : Except Failure c.Answer} {id : String}
    (settled : (settle (some s) session c result).state = some t)
    (asks : (rows.listing t).asked? = some id) : (rows.listing s).asked? = some id := by
  cases c with
  | load grant => exact Rows.asked?_settleLoad lawful settled ▸ asks
  | users =>
    cases result with
    | ok page => cases settled; exact asks
    | error e => cases settled; exact asks
  | assign role => exact Rows.asked?_settleSave lawful asked?_reload settled asks
  | delete row => rw [Rows.asked?_settleDelete lawful settled] at asks; cases asks

theorem call_delete (s : Roles) {session : Session} {act : Act} {entry : Entry} {c : Call}
    (called : .call c ∈ (s.handle session act entry).commands)
    (deletes : c.operation.method = .delete) :
    act = .confirm ∧ ∃ id, (rows.listing s).asked? = some id ∧ c = .delete id := by
  cases act with
  | confirm =>
    obtain ⟨id, asked, rfl⟩ := Rows.call_confirmed called
    exact ⟨rfl, id, asked, rfl⟩
  | new =>
    simp only [handle] at called
    split at called <;> simp [failure] at called
  | save =>
    simp only [handle] at called
    split at called
    · cases called
    · split at called
      · simp [failure] at called
      · cases List.mem_singleton.mp called
        cases deletes
  | _ => cases called

end Roles

namespace Users

theorem lawful : rows.Lawful := fun _ _ => rfl

theorem asked?_editDraft (s : Users) (f : User → User) :
    (rows.listing (s.editDraft f)).asked? = (rows.listing s).asked? :=
  Listing.asked?_editDraft _ f

theorem asked?_reload (s : Users) (session : Session) :
    (rows.listing (s.reload session).state).asked? = (rows.listing s).asked? := rfl

theorem asked?_handle (s : Users) {session : Session} {act : Act} {entry : Entry} {id : String}
    (asks : (rows.listing (s.handle session act entry).state).asked? = some id) :
    act = .delete id ∨ (∀ other, act ≠ .delete other) ∧ (rows.listing s).asked? = some id := by
  cases act with
  | delete row => exact .inl (congrArg Act.delete (Option.some.inj asks))
  | new | close => cases asks
  | confirm => exact .inr ⟨nofun, by simpa [handle] using asks⟩
  | edit | save | password => exact .inr ⟨nofun, asks⟩
  | _ => exact .inr ⟨nofun, s.asked?_editDraft _ ▸ asks⟩

theorem asked?_settle (s : Users) {t : Users} {session : Session} {c : Call}
    {result : Except Failure c.Answer} {id : String}
    (settled : (settle (some s) session c result).state = some t)
    (asks : (rows.listing t).asked? = some id) : (rows.listing s).asked? = some id := by
  cases c with
  | load => exact Rows.asked?_settleLoad lawful settled ▸ asks
  | fetch row =>
    cases result with
    | error e => cases settled; exact asks
    | ok user =>
      cases settled
      have opened := Listing.asked?_openEdit _ asks
      rwa [Listing.asked?_upsert] at opened
  | create user => exact Rows.asked?_settleSave lawful asked?_reload settled asks
  | update row change => exact Rows.asked?_settleSave lawful asked?_reload settled asks
  | delete row => rw [Rows.asked?_settleDelete lawful settled] at asks; cases asks

theorem call_delete (s : Users) {session : Session} {act : Act} {entry : Entry} {c : Call}
    (called : .call c ∈ (s.handle session act entry).commands)
    (deletes : c.operation.method = .delete) :
    act = .confirm ∧ ∃ id, (rows.listing s).asked? = some id ∧ c = .delete id := by
  cases act with
  | confirm =>
    obtain ⟨id, asked, rfl⟩ := Rows.call_confirmed called
    exact ⟨rfl, id, asked, rfl⟩
  | edit row =>
    cases List.mem_singleton.mp called
    cases deletes
  | save =>
    simp only [handle, saveCommand] at called
    split at called
    · cases List.mem_singleton.mp called
      cases deletes
    · split at called
      · cases List.mem_singleton.mp called
        cases deletes
      · simp [failure] at called
    · cases called
  | _ => cases called

end Users

namespace Rules

theorem lawful : rows.Lawful := fun _ _ => rfl

theorem asked?_reload (s : Rules) (session : Session) :
    (rows.listing (s.reload session).state).asked? = (rows.listing s).asked? := by
  unfold reload
  split <;> rfl

theorem asked?_handle (s : Rules) {session : Session} {act : Act} {entry : Entry} {id : String}
    (asks : (rows.listing (s.handle session act entry).state).asked? = some id) :
    act = .delete id ∨ (∀ other, act ≠ .delete other) ∧ (rows.listing s).asked? = some id := by
  cases act with
  | delete row => exact .inl (congrArg Act.delete (Option.some.inj asks))
  | close => cases asks
  | toggle row =>
    refine .inr ⟨nofun, ?_⟩
    simp only [handle] at asks
    split at asks <;> exact asks
  | applyTemplate =>
    refine .inr ⟨nofun, ?_⟩
    simp only [handle] at asks
    split at asks <;> exact asks
  | confirm => exact .inr ⟨nofun, by simpa [handle] using asks⟩
  | _ => exact .inr ⟨nofun, asks⟩

theorem asked?_settle (s : Rules) {t : Rules} {session : Session} {c : Call}
    {result : Except Failure c.Answer} {id : String}
    (settled : (settle (some s) session c result).state = some t)
    (asks : (rows.listing t).asked? = some id) : (rows.listing s).asked? = some id := by
  cases c with
  | load grant => exact Rows.asked?_settleLoad lawful settled ▸ asks
  | toggle row rule =>
    cases result with
    | ok rule => cases settled; exact Listing.asked?_upsert _ rule ▸ asks
    | error e => cases settled; exact asks
  | delete row => rw [Rows.asked?_settleDelete lawful settled] at asks; cases asks
  | templates =>
    cases result with
    | ok names => cases settled; exact asks
    | error e => cases settled; exact asks
  | applyTemplate grant template parameters =>
    cases result with
    | ok rule => cases settled; exact Listing.asked?_upsert _ rule ▸ asks
    | error e => cases settled; exact asks

theorem applyCall_method {s : Rules} {session : Session} {c : Call}
    (applied : s.applyCall session = .ok c) : c.operation.method ≠ .delete := by
  unfold applyCall at applied
  split at applied
  · cases applied
  · split at applied
    · cases applied
    · cases read : readParameters s.parameters with
      | error fault => rw [read] at applied; cases applied
      | ok parameters =>
        rw [read] at applied
        cases applied
        intro same
        cases same

theorem call_delete (s : Rules) {session : Session} {act : Act} {entry : Entry} {c : Call}
    (called : .call c ∈ (s.handle session act entry).commands)
    (deletes : c.operation.method = .delete) :
    act = .confirm ∧ ∃ id, (rows.listing s).asked? = some id ∧ c = .delete id := by
  cases act with
  | confirm =>
    obtain ⟨id, asked, rfl⟩ := Rows.call_confirmed called
    exact ⟨rfl, id, asked, rfl⟩
  | edit row => simp [handle] at called
  | toggle row =>
    simp only [handle] at called
    split at called
    · cases called
    · cases List.mem_singleton.mp called
      cases deletes
  | openTemplates =>
    cases List.mem_singleton.mp called
    cases deletes
  | applyTemplate =>
    simp only [handle] at called
    split at called
    · rename_i applied
      cases List.mem_singleton.mp called
      exact absurd deletes (applyCall_method applied)
    · simp [failure] at called
  | _ => cases called

end Rules

end GrantConsole.Screen
