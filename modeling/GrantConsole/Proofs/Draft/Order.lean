import GrantConsole.Proofs.Draft.Run
import GrantConsole.Proofs.Text.Whole

/-!
# Typed orders

The order of a condition is typed as text. The index is looked at first, then the text: a whole
number of 64 bits between blanks becomes the order of that condition and of no other, and any other
text leaves the draft as it is.
-/

namespace GrantConsole

open GrantConsole.Text

/-- A whole number of 64 bits stands in the text, with blanks alone around it. -/
structure OrderText (raw : String) (n : Int) : Prop where
  stands : ∃ core, Surrounded core raw.toList ∧ DenotesWhole core n
  least : -2 ^ 63 ≤ n
  most : n ≤ 2 ^ 63 - 1

theorem orderText_iff {raw : String} {n : Int} :
    OrderText raw n ↔
      ∃ order : Int64, readInt64? (trim raw).toList = some order ∧ order.toInt = n := by
  constructor
  · rintro ⟨stands, least, most⟩
    have same : (Int64.ofInt n).toInt = n := Int64.toInt_ofInt_of_le least (by omega)
    refine ⟨Int64.ofInt n, ?_, same⟩
    rw [readInt64?_eq_some, same]
    exact denotesWhole_trim.mpr stands
  · rintro ⟨order, read, rfl⟩
    have stands := denotesWhole_trim.mp (readInt64?_eq_some.mp read)
    exact ⟨stands, order.le_toInt, Int.le_sub_one_of_lt order.toInt_lt⟩

namespace RuleDraft

/-- The draft with another order of the condition at an index, as an edited one. -/
def withOrder (d : RuleDraft) (index : Nat) (order : Int64) : RuleDraft where
  rule := { d.rule with
    conditions := d.rule.conditions.modify index fun c => { c with order } }
  phase := if d.phase = .idle then .editing else d.phase
  lastError := d.lastError

theorem touch_eq (d : RuleDraft) :
    d.touch = { d with phase := if d.phase = .idle then .editing else d.phase } := by
  unfold touch
  split <;> rfl

theorem updateCondition_order (d : RuleDraft) (index : Nat) (raw : String) :
    d.updateCondition index (.order raw) =
      if index < d.rule.conditions.length then
        match readInt64? (trim raw).toList with
        | some order => (d.withOrder index order, .applied)
        | none => (d, .badOrder raw)
      else (d, .outOfRange) := by
  rw [updateCondition_eq, ConditionEdit.apply?]
  split
  · cases readInt64? (trim raw).toList with
    | some order => exact congrArg (·, EditOutcome.applied) (touch_eq _)
    | none => rfl
  · rfl

/-- What an order that is typed for the condition at an index does to a draft. -/
structure OrderEdit (d : RuleDraft) (index : Nat) (raw : String) (after : RuleDraft)
    (outcome : EditOutcome) : Prop where
  /-- Past the end nothing else matters. -/
  outOfRange : outcome = .outOfRange ↔ d.rule.conditions.length ≤ index
  applied : outcome = .applied ↔ index < d.rule.conditions.length ∧ ∃ n, OrderText raw n
  refused : outcome = .badOrder raw ↔ index < d.rule.conditions.length ∧ ¬ ∃ n, OrderText raw n
  /-- An order that is taken is the number that was typed. -/
  exactly : outcome = .applied → ∀ n, OrderText raw n →
    ∃ order : Int64, order.toInt = n ∧ after = d.withOrder index order
  unchanged : outcome ≠ .applied → after = d

/-- Orders are taken exactly, or refused without effect. -/
theorem orderEdit_updateCondition (d : RuleDraft) (index : Nat) (raw : String) :
    OrderEdit d index raw (d.updateCondition index (.order raw)).1
      (d.updateCondition index (.order raw)).2 := by
  rw [updateCondition_order]
  by_cases inRange : index < d.rule.conditions.length
  · rw [if_pos inRange]
    have within_ : ¬ d.rule.conditions.length ≤ index := Nat.not_le.mpr inRange
    cases read : readInt64? (trim raw).toList with
    | some order =>
        have number : ∃ n, OrderText raw n := ⟨_, orderText_iff.mpr ⟨order, read, rfl⟩⟩
        refine ⟨by simp [within_], by simp [inRange, number], by simp [number], ?_,
          fun other => absurd rfl other⟩
        intro _ n denotes
        obtain ⟨order', read', rfl⟩ := orderText_iff.mp denotes
        cases read.symm.trans read'
        exact ⟨order, rfl, rfl⟩
    | none =>
        have noNumber : ¬ ∃ n, OrderText raw n := by
          rintro ⟨n, denotes⟩
          obtain ⟨order, read', -⟩ := orderText_iff.mp denotes
          cases read.symm.trans read'
        exact ⟨by simp [within_], by simp [noNumber], by simp [inRange, noNumber], nofun,
          fun _ => rfl⟩
  · rw [if_neg inRange]
    have beyond : d.rule.conditions.length ≤ index := Nat.not_lt.mp inRange
    exact ⟨by simp [beyond], by simp [inRange], by simp [inRange], nofun, fun _ => rfl⟩

example :
    ((load { conditions := [{}] }).updateCondition 0 (.order " -007 ")).1.rule.conditions =
      [{ order := -7 }] := by
  decide +kernel

end RuleDraft

end GrantConsole
