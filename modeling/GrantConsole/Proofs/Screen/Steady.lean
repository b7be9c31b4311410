import GrantConsole.Proofs.Draft.Flight
import GrantConsole.Proofs.Screen.Turns

/-!
# The calls of an editor and its state

A rule editor looks its rule up once, when it is mounted, and shows no form before it knows what
came of that; it submits one rule at a time. So its state tells which of its calls have not been
answered, and an answer always comes when the editor waits for it.
-/

namespace GrantConsole.Screen

open GrantConsole.Api

variable {S C : Type}

/-- The calls that a turn makes. -/
def Turn.calls (t : Turn S C) : List C :=
  t.commands.filterMap fun
    | .call c => some c
    | _ => none

theorem Turn.mem_calls {t : Turn S C} {c : C} : c ∈ t.calls ↔ .call c ∈ t.commands := by
  unfold calls
  rw [List.mem_filterMap]
  constructor
  · rintro ⟨command, given, same⟩
    cases command <;> cases same
    exact given
  · exact fun given => ⟨.call c, given, rfl⟩

theorem Turn.calls_map {T D : Type} (f : S → T) (g : C → D) (t : Turn S C) :
    (t.map f g).calls = t.calls.map g := by
  unfold calls Turn.map
  rw [List.filterMap_map, List.map_filterMap]
  congr 1
  funext command
  cases command <;> rfl

namespace RuleEditor

def Call.locates : Call → Bool
  | .locate _ _ => true
  | .submit _ => false

def Call.submits : Call → Bool
  | .locate _ _ => false
  | .submit _ => true

/-- The state of an editor agrees with how many of its mounts are due, and how many of its calls
have not been answered. -/
structure Steady (s : RuleEditor) (mounts locates submits : Nat) : Prop where
  /-- The rule is looked up once. -/
  once : mounts + locates ≤ 1
  withheld : 0 < locates → s.loading = true
  free : 0 < mounts + locates → s.draft.value.isSubmitting = false
  busy : submits = s.draft.value.isSubmitting.toNat

variable {s : RuleEditor} {mounts locates submits : Nat}

theorem Steady.fewer {others : Nat} (steady : s.Steady mounts locates submits)
    (le : others ≤ mounts) : s.Steady others locates submits :=
  ⟨Nat.le_trans (Nat.add_le_add_right le _) steady.once, steady.withheld,
    fun some => steady.free (Nat.lt_of_lt_of_le some (Nat.add_le_add_right le _)), steady.busy⟩

theorem steady_opened (address : Option String) (session : Session) :
    Steady (.opened address session) 1 0 0 :=
  ⟨Nat.le_refl 1, nofun, fun _ => rfl, rfl⟩

/-- The mount looks the rule up, if there is one to look up. -/
theorem steady_mounted (steady : s.Steady (mounts + 1) locates submits) (session : Session) :
    (s.mounted session).state.Steady mounts
      (locates + (s.mounted session).calls.countP Call.locates)
      (submits + (s.mounted session).calls.countP Call.submits) := by
  obtain ⟨once, withheld, free, busy⟩ := steady
  have idle := free (by omega)
  fun_cases mounted s session
  · exact ⟨by simp [Turn.calls]; omega, withheld, fun _ => idle, busy⟩
  · exact ⟨by simp [Turn.calls, failure]; omega, withheld, fun _ => idle, busy⟩
  · exact ⟨by simp [Turn.calls, Call.locates]; omega, fun _ => rfl, fun _ => idle, busy⟩

/-- The form is as it was: shown or withheld, and at rest or waiting for an answer. -/
structure SameStage (s t : RuleEditor) : Prop where
  loading : t.loading = s.loading
  isSubmitting : t.draft.value.isSubmitting = s.draft.value.isSubmitting

/-- The draft is edited, or what is typed is noted; all else stays. -/
structure Edited (s t : RuleEditor) : Prop where
  address : t.address = s.address
  loading : t.loading = s.loading
  problem : t.problem = s.problem
  draft : t.draft.value = s.draft.value ∨
    ∃ action, action.isEdit = true ∧ t.draft.value = (s.draft.value.act action).1

theorem Edited.refl (s : RuleEditor) : Edited s s :=
  ⟨rfl, rfl, rfl, .inl rfl⟩

theorem edited_edit (s : RuleEditor) (action : RuleDraft.Action) (isEdit : action.isEdit = true) :
    Edited s (s.edit fun d => (d.act action).1) :=
  ⟨rfl, rfl, rfl, .inr ⟨action, isEdit, rfl⟩⟩

theorem edited_editFilter (s : RuleEditor) (i : Nat) (e : FilterEdit) :
    Edited s (s.editFilter i e) :=
  s.edited_edit (.updateFilter i e) rfl

theorem edited_editCondition (s : RuleEditor) (session : Session) (i : Nat) (e : ConditionEdit) :
    Edited s (s.editCondition session i e).state := by
  have same : (s.editCondition session i e).state =
      s.edit fun d => (d.act (.updateCondition i e)).1 := by
    unfold editCondition
    dsimp only
    split <;> rfl
  rw [same]
  exact s.edited_edit (.updateCondition i e) rfl

theorem edited_handleClause (s : RuleEditor) (session : Session) (act : Widget.ClauseAct)
    (entry : Entry) : Edited s (s.handleClause session act entry).state := by
  fun_cases handleClause s session act entry with
  | case1 i | case2 i | case4 i => exact s.edited_editFilter i _
  | case5 i => exact s.edited_edit (.removeFilter i) rfl
  | case6 i | case7 i | case9 i | case10 i => exact s.edited_editCondition session i _
  | case11 i => exact s.edited_edit (.removeCondition i) rfl
  | case3 | case8 => exact .refl s
  | case12 field => exact ⟨rfl, rfl, rfl, .inl rfl⟩

/-- All that is done in the form but the submit is an edit. -/
theorem edited_handle (s : RuleEditor) (session : Session) {act : Act} (edits : act ≠ .submit)
    (entry : Entry) : Edited s (s.handle session act entry).state := by
  have header (e : HeaderEdit) : Edited s (s.editHeader e) := s.edited_edit (.editHeader e) rfl
  cases act with
  | name | description | aggregator | complaint | active => exact header _
  | type =>
    simp only [handle]
    split
    · exact header _
    · exact .refl s
  | addFilter => exact s.edited_edit .addFilter rfl
  | addCondition => exact s.edited_edit .addCondition rfl
  | clause act => exact s.edited_handleClause session act entry
  | submit => exact absurd rfl edits

/-- An edit neither starts a submit nor ends one. -/
theorem Edited.sameStage {t : RuleEditor} (edited : Edited s t) : SameStage s t where
  loading := edited.loading
  isSubmitting := by
    rcases edited.draft with same | ⟨action, isEdit, same⟩
    · rw [same]
    · rw [same]
      exact RuleDraft.isSubmitting_act_edit isEdit s.draft.value

/-- A turn makes no calls if it neither mounts the editor nor submits. -/
theorem calls_handle (s : RuleEditor) (session : Session) {act : Act} (edits : act ≠ .submit)
    (entry : Entry) : (s.handle session act entry).calls = [] := by
  refine List.eq_nil_iff_forall_not_mem.mpr fun c called => ?_
  exact edits (call_handle (Turn.mem_calls.mp called)).1

/-- An act leaves the editor steady: it submits only where the form is shown, and then only if no
submit is in flight. -/
theorem steady_handle (steady : s.Steady 0 locates submits) (session : Session) {act : Act}
    (shown : act = .submit → s.loading = false) (entry : Entry) :
    (s.handle session act entry).state.Steady 0
      (locates + (s.handle session act entry).calls.countP Call.locates)
      (submits + (s.handle session act entry).calls.countP Call.submits) := by
  obtain ⟨once, withheld, free, busy⟩ := steady
  by_cases submitting : act = .submit
  · subst submitting
    have none : locates = 0 := by
      refine Nat.eq_zero_of_not_pos fun some => ?_
      cases (withheld some).symm.trans (shown rfl)
    subst none
    cases stage : s.draft.value.isSubmitting with
    | false =>
      have begun := RuleDraft.beginSubmit_of_not_isSubmitting stage
      rw [stage] at busy
      simp only [handle, begun]
      exact ⟨by simp [Turn.calls, Call.locates], by simp [Turn.calls, Call.locates],
        by simp [Turn.calls, Call.locates], by rw [busy]; rfl⟩
    | true =>
      have refused := RuleDraft.beginSubmit_of_isSubmitting stage
      simp only [handle, refused]
      exact ⟨by simp [Turn.calls], by simp [Turn.calls], by simp [Turn.calls], busy⟩
  · obtain ⟨loading, isSubmitting⟩ := (s.edited_handle session submitting entry).sameStage
    rw [s.calls_handle session submitting entry]
    exact ⟨once, fun some => loading.trans (withheld some), fun some => isSubmitting.trans (free some),
      by rw [isSubmitting]; exact busy⟩

/-- An answer makes the editor call for nothing. -/
theorem calls_settle (state : Option RuleEditor) (session : Session) (c : Call)
    (result : Except Failure c.Answer) : (settle state session c result).calls = [] := by
  cases c with
  | locate grant id =>
    simp only [settle, settleLocate]
    split <;> rfl
  | submit submission =>
    simp only [settle]
    cases state with
    | none => rfl
    | some s =>
      simp only [settleSubmit]
      cases (s.draft.value.finishSubmit result).2 <;> rfl

/-- The answer to the lookup finds no submit in flight, and leaves none. -/
theorem steady_locate (steady : s.Steady mounts (locates + 1) submits) (session : Session)
    (grant id : String) (result : Except Failure (Page Rule)) :
    ∃ t, (settle (some s) session (.locate grant id) result).state = some t ∧
      t.Steady mounts locates submits := by
  obtain ⟨once, withheld, free, busy⟩ := steady
  have idle := free (by omega)
  simp only [settle, settleLocate]
  split
  · exact ⟨_, rfl, by omega, fun some => by omega, fun _ => rfl, by rw [busy, idle]; rfl⟩
  · exact ⟨_, rfl, by omega, fun some => by omega, fun _ => idle, busy⟩

/-- The answer to a submit ends it. -/
theorem steady_submit (steady : s.Steady mounts locates (submits + 1)) (session : Session)
    (submission : Submission) (result : Except Failure Rule) :
    ∃ t, (settle (some s) session (.submit submission) result).state = some t ∧
      t.Steady mounts locates submits := by
  obtain ⟨once, withheld, free, busy⟩ := steady
  cases stage : s.draft.value.isSubmitting with
  | false => rw [stage] at busy; cases busy
  | true =>
    have ended : (s.draft.value.finishSubmit result).1.isSubmitting = false := by
      cases result with
      | ok rule => rcases RuleDraft.finishSubmit_ok stage rule with made | saved <;> simp [*] <;> rfl
      | error e => rw [RuleDraft.finishSubmit_error stage e]; rfl
    have last : submits = 0 := by
      rw [stage] at busy
      exact Nat.succ.inj busy
    refine ⟨_, rfl, once, fun some => withheld some, fun _ => ended, ?_⟩
    show submits = (s.draft.value.finishSubmit result).1.isSubmitting.toNat
    rw [ended, last]
    rfl

end RuleEditor

end GrantConsole.Screen
