import GrantConsole.Proofs.Listing.Rows
import GrantConsole.Screen.Approvals

/-!
# The count beside the rows

The count of a listing is of all records that the server has, and the rows may be some of them. A
saved record that becomes a row is counted and a deleted one is counted off, each of them once, so
that the records beyond the rows stay as many as they were. Rows that are dropped by a test are not
counted off: from then on the count says that so many more records are not shown.
-/

namespace GrantConsole.Listing

open GrantConsole.Api

variable {R : Type}

/-- How many records the count is ahead of the rows. -/
def surplus (s : Listing R) : Int :=
  s.count.toInt - s.items.length

/-- How many rows an action drops by a test. -/
def dropped (s : Listing R) : Action R → Nat
  | .retain keep => s.items.countP fun r => !keep r
  | _ => 0

variable [Resource R]

/-- The count has no room for an action: it is the largest and a row comes in, or it is the smallest
and a deleted row goes. -/
def Overflows (s : Listing R) : Action R → Prop
  | .upsert saved | .finishSave (.ok saved) =>
      s.count = Int64.maxValue ∧ s.items.length < (s.upsert saved).items.length
  | .finishDelete id (.ok ()) =>
      s.count = Int64.minValue ∧ (s.finishDelete id (.ok ())).1.items.length < s.items.length
  | _ => False

/-- The count has room for every action of a run. -/
def HasRoom (s : Listing R) : List (Action R) → Prop
  | [] => True
  | action :: later => ¬ s.Overflows action ∧ (s.act action).HasRoom later

/-- How many rows a run drops by tests. -/
def droppedBy (s : Listing R) : List (Action R) → Nat
  | [] => 0
  | action :: later => s.dropped action + (s.act action).droppedBy later

/-! ## Counting -/

theorem toInt_add_one {n : Int64} (room : n ≠ Int64.maxValue) : (n + 1).toInt = n.toInt + 1 := by
  have below : n.toInt ≠ 2 ^ 63 - 1 := by
    intro largest
    exact room (Int64.toInt_inj.mp (largest.trans Int64.toInt_maxValue.symm))
  have upper := n.toInt_lt
  have lower := n.le_toInt
  rw [Int64.toInt_add, Int64.toInt_one, Int.bmod_eq_of_le] <;> omega

theorem toInt_sub_one {n : Int64} (room : n ≠ Int64.minValue) : (n - 1).toInt = n.toInt - 1 := by
  have above : n.toInt ≠ -2 ^ 63 := by
    intro smallest
    exact room (Int64.toInt_inj.mp (smallest.trans Int64.toInt_minValue.symm))
  have upper := n.toInt_lt
  have lower := n.le_toInt
  rw [Int64.toInt_sub, Int64.toInt_one, Int.bmod_eq_of_le] <;> omega

/-- A saved record replaces a row, or it becomes a row and is counted. -/
theorem upsert_counts (s : Listing R) (saved : R) :
    ((s.upsert saved).items.length = s.items.length ∧ (s.upsert saved).count = s.count) ∨
      ((s.upsert saved).items.length = s.items.length + 1 ∧
        (s.upsert saved).count = s.count + 1) := by
  unfold upsert
  cases place? s.items saved with
  | some index => exact .inl ⟨List.length_set, rfl⟩
  | none => exact .inr ⟨List.length_append, rfl⟩

/-- A deleted record has no row, or its one row goes and is counted off. -/
theorem finishDelete_counts {s : Listing R} (distinct : DistinctIds s.items) (id : String) :
    ((s.finishDelete id (.ok ())).1.items.length = s.items.length ∧
        (s.finishDelete id (.ok ())).1.count = s.count) ∨
      ((s.finishDelete id (.ok ())).1.items.length + 1 = s.items.length ∧
        (s.finishDelete id (.ok ())).1.count = s.count - 1) := by
  have counted : (s.finishDelete id (.ok ())).1.count =
      if (s.finishDelete id (.ok ())).1.items.length < s.items.length then s.count - 1
      else s.count := rfl
  have deleted := deletedRow_finishDelete distinct id
  cases found : s.find? id with
  | none =>
      have same := deleted.absent found
      refine .inl ⟨by rw [same], ?_⟩
      rw [counted, same, if_neg (Nat.lt_irrefl _)]
  | some row =>
      obtain ⟨first, last, before, after⟩ := deleted.single row found
      have fewer : (s.finishDelete id (.ok ())).1.items.length + 1 = s.items.length := by
        rw [before, after, List.length_append, List.length_append, List.length_cons, Nat.add_assoc]
      refine .inr ⟨fewer, ?_⟩
      rw [counted, if_pos (Nat.lt_of_succ_le (Nat.le_of_eq fewer))]

/-! ## The surplus -/

theorem surplus_upsert (s : Listing R) (saved : R)
    (room : s.items.length < (s.upsert saved).items.length → s.count ≠ Int64.maxValue) :
    (s.upsert saved).surplus = s.surplus := by
  unfold surplus
  rcases upsert_counts s saved with ⟨rows, count⟩ | ⟨rows, count⟩
  · rw [rows, count]
  · have counted := toInt_add_one (room (by omega))
    rw [rows, count, counted]
    omega

theorem surplus_finishDelete {s : Listing R} (distinct : DistinctIds s.items) (id : String)
    (room : (s.finishDelete id (.ok ())).1.items.length < s.items.length →
      s.count ≠ Int64.minValue) :
    (s.finishDelete id (.ok ())).1.surplus = s.surplus := by
  unfold surplus
  rcases finishDelete_counts distinct id with ⟨rows, count⟩ | ⟨rows, count⟩
  · rw [rows, count]
  · have counted := toInt_sub_one (room (by omega))
    rw [← rows, count, counted]
    omega

omit [Resource R] in
theorem surplus_retain (s : Listing R) (keep : R → Bool) :
    (s.retain keep).surplus = s.surplus + s.items.countP fun r => !keep r := by
  have rows := List.length_eq_countP_add_countP keep (l := s.items)
  have kept : (s.retain keep).items.length = s.items.countP keep :=
    List.countP_eq_length_filter.symm
  unfold surplus
  rw [kept]
  change s.count.toInt - _ = _
  simp only [Bool.not_eq_true, Bool.decide_eq_false] at rows
  omega

/-- An action takes the count along with the rows, but for the rows that it drops by a test. -/
theorem surplus_act {s : Listing R} (distinct : DistinctIds s.items) {action : Action R}
    (own : action.loadsPage = false) (room : ¬ s.Overflows action) :
    (s.act action).surplus = s.surplus + s.dropped action := by
  cases action with
  | retain keep => exact surplus_retain s keep
  | upsert saved =>
      have same := surplus_upsert s saved
        fun grows largest => room ⟨largest, grows⟩
      exact same.trans (Int.add_zero _).symm
  | finishSave result =>
      cases result with
      | error failure => exact (Int.add_zero _).symm
      | ok saved =>
          have same := surplus_upsert s saved
            fun grows largest => room ⟨largest, grows⟩
          exact same.trans (Int.add_zero _).symm
  | finishDelete id result =>
      cases result with
      | error failure => exact (Int.add_zero _).symm
      | ok done =>
          have same := surplus_finishDelete distinct id
            fun shrinks smallest => room ⟨smallest, shrinks⟩
          exact same.trans (Int.add_zero _).symm
  | finishLoad result =>
      cases result with
      | error failure => exact (Int.add_zero _).symm
      | ok page => cases own
  | openEdit id =>
      have same : (s.openEdit id).1.surplus = s.surplus := by
        unfold openEdit
        cases s.find? id <;> rfl
      exact same.trans (Int.add_zero _).symm
  | beginLoad | openCreate draft | openDelete id | closeDialog | editDraft f =>
      exact (Int.add_zero _).symm

/-! ## Runs -/

/-- Along a run that loads no page, the count goes with the rows, step by step, but for the rows
that are dropped by tests: by these it is ahead of the rows at the end. -/
theorem surplus_run {s : Listing R} (distinct : DistinctIds s.items) {actions : List (Action R)}
    (own : ∀ action ∈ actions, action.loadsPage = false) (room : s.HasRoom actions) :
    (∀ before action after, actions = before ++ action :: after →
      ((s.run before).act action).surplus =
        (s.run before).surplus + (s.run before).dropped action) ∧
      (s.run actions).surplus = s.surplus + s.droppedBy actions := by
  induction actions generalizing s with
  | nil =>
      constructor
      · intro before action after split
        exact absurd split (List.append_ne_nil_of_right_ne_nil _ (List.cons_ne_nil _ _)).symm
      · exact (Int.add_zero _).symm
  | cons first later ih =>
      have ownFirst := own first List.mem_cons_self
      have step := surplus_act distinct ownFirst room.1
      obtain ⟨steps, total⟩ := ih (distinct.act ownFirst)
        (fun action mem => own action (List.mem_cons_of_mem _ mem)) room.2
      constructor
      · intro before action after split
        cases before with
        | nil =>
            obtain ⟨rfl, -⟩ := List.cons.inj split
            exact step
        | cons same before =>
            obtain ⟨rfl, rest⟩ := List.cons.inj split
            exact steps before action after rest
      · change ((s.act first).run later).surplus = _
        rw [total, step, droppedBy, Int.natCast_add, Int.add_assoc]

/-- Three users of five: one more is made, one is renamed, one is deleted, and a test drops one. -/
theorem surplus_run_users :
    let s : Listing User := { items := [{ id := "u-1" }, { id := "u-2" }, { id := "u-3" }], count := 5 }
    let actions : List (Action User) :=
      [.finishSave (.ok { id := "u-4" }), .upsert { id := "u-1", email := "first" },
        .finishDelete "u-2" (.ok ()), .finishDelete "u-2" (.ok ()),
        .retain fun user => user.id != "u-3"]
    DistinctIds s.items ∧ (∀ action ∈ actions, action.loadsPage = false) ∧ s.HasRoom actions ∧
      (s.run actions).items = [{ id := "u-1", email := "first" }, { id := "u-4" }] ∧
      s.surplus = 2 ∧ (s.run actions).surplus = s.surplus + 1 := by
  intro s actions
  have distinct : DistinctIds s.items := by
    unfold DistinctIds
    decide
  have own : ∀ action ∈ actions, action.loadsPage = false := by
    simp [actions, Action.loadsPage]
  have room : s.HasRoom actions := by
    refine ⟨fun full => absurd full.1 ?_, fun full => absurd full.1 ?_, fun full => absurd full.1 ?_,
      fun full => absurd full.1 ?_, id, trivial⟩ <;> decide
  exact ⟨distinct, own, room, by decide, by decide, (surplus_run distinct own room).2⟩

/-- Not every change of the rows is counted: a test drops one of two categories. -/
theorem surplus_not_kept :
    ¬ ∀ (s : Listing Category) (actions : List (Action Category)), DistinctIds s.items →
      (∀ action ∈ actions, (∃ saved, action = .upsert saved) ∨
        (∃ result, action = .finishSave result) ∨ (∃ id result, action = .finishDelete id result) ∨
          ∃ keep, action = .retain keep) →
        s.HasRoom actions → (s.run actions).surplus = s.surplus := by
  intro all
  have kept := all { items := [{ id := some "a" }, { id := some "b" }], count := 2 }
    [.retain fun category => category.id != some "a"] (by unfold DistinctIds; decide) (by simp)
    ⟨id, trivial⟩
  exact absurd kept (by decide)

end GrantConsole.Listing

namespace GrantConsole.Screen.Approvals

open GrantConsole.Listing

/-- An expense that was decided on leaves the expenses that wait, and is still counted there. -/
theorem surplus_pending_record (s : Approvals) (expense : String) (approval : Approval) :
    (pendingRows.listing (record s expense approval)).surplus =
      (pendingRows.listing s).surplus +
        (pendingRows.listing s).items.countP fun e => e.id == some expense := by
  have dropped := surplus_retain (pendingRows.listing s) fun e => e.id != some expense
  have left : pendingRows.listing (record s expense approval) =
      (pendingRows.listing s).retain fun e => e.id != some expense := rfl
  rw [left, dropped]
  simp only [bne, Bool.not_not]

end GrantConsole.Screen.Approvals
