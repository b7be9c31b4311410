import GrantConsole.Proofs.Console.Course
import GrantConsole.Proofs.Draft.Retry

/-!
# Submits without an answer

An editor makes a submit only when it is told to and has none in flight; no other act, no answer and
no piece of work makes one. So the submits that have not been answered are those that were begun,
and an editor that waits for one is mounted and has its rule.
-/

namespace GrantConsole.RuleDraft

open GrantConsole.Api

/-- The draft waits for what comes of a submission, and its rule is the one that was sent. -/
structure Awaits (d : RuleDraft) (submission : Submission) : Prop where
  phase : d.phase = .submitting submission.mode
  rule : d.rule = submission.rule

theorem awaits_beginSubmit {d : RuleDraft} {submission : Submission}
    (begun : d.beginSubmit.2 = some submission) : d.beginSubmit.1.Awaits submission := by
  obtain ⟨-, underWay, rfl⟩ := beginSubmit_eq_some begun
  rw [underWay]
  exact ⟨rfl, rfl⟩

/-- Nothing is in flight once the answer is taken in. -/
theorem isSubmitting_finishSubmit (d : RuleDraft) (result : Except Failure Rule) :
    (d.finishSubmit result).1.isSubmitting = false := by
  cases busy : d.isSubmitting with
  | false => rw [finishSubmit_of_not_isSubmitting busy, busy]
  | true =>
    cases result with
    | error failure => rw [finishSubmit_error busy]; rfl
    | ok rule =>
      rcases finishSubmit_ok busy rule with made | saved
      · rw [made]; rfl
      · rw [saved]; rfl

end GrantConsole.RuleDraft

namespace GrantConsole.Console

open GrantConsole.Api GrantConsole.Markup GrantConsole.Screen

namespace Page

/-- What comes of a call makes no editor submit. -/
theorem no_submit_settle {page : Option Page} {session : Session} {c : Call}
    {result : Except Failure c.Answer} {submission : Submission} :
    .call (.ruleEditor (.submit submission)) ∉ (settle page session c result).commands := by
  intro called
  have own := call_kind_settle called
  cases c <;> cases own
  have none := Turn.mem_calls.mpr called
  simp only [settle, Turn.calls_map, RuleEditor.calls_settle] at none
  cases none

theorem no_submit_mounted {p : Page} {session : Session} {submission : Submission} :
    .call (.ruleEditor (.submit submission)) ∉ (p.mounted session).commands := by
  intro called
  have own := call_kind_mounted called
  cases p <;> cases own
  rename_i s
  unfold mounted at called
  simp only [isGuarded, if_true] at called
  split at called
  · obtain ⟨c, made, same⟩ := (Turn.call_mem_map _ _ _).mp called
    cases same
    unfold RuleEditor.mounted at made
    split at made
    · cases made
    · split at made <;> simp [Screen.failure] at made
  · simp at called

/-- An editor submits what its draft begins to submit, and only when it is told to. -/
theorem submit_handle {p : Page} {session : Session} {a : Act} {entry : Entry}
    {submission : Submission}
    (called : .call (.ruleEditor (.submit submission)) ∈ (p.handle session a entry).commands) :
    a = .ruleEditor .submit ∧
      ∃ s, p = ruleEditor s ∧ s.draft.value.beginSubmit.2 = some submission := by
  have own := call_kind_handle called
  by_cases fits : a.kind = p.kind
  · cases p <;> cases own
    cases a <;> cases fits
    rename_i s a
    obtain ⟨c, made, same⟩ := (Turn.call_mem_map _ _ _).mp called
    obtain ⟨rfl, submission, begun, rfl⟩ := RuleEditor.call_handle made
    cases same
    exact ⟨rfl, s, rfl, begun⟩
  · rw [handle_of_kind_ne fits] at called
    cases called

end Page

namespace Tab

variable {tab after : Tab} {page : Nat} {due : Due} {rest : List Due}

/-! ## Submits without an answer -/

/-- A submit of a page has not been answered. -/
def Submits (tab : Tab) (page : Nat) (submission : Submission) : Prop :=
  ⟨page, .ruleEditor (.submit submission)⟩ ∈ tab.calls

/-- No submit is added to those that have not been answered. -/
def AddsNoSubmit (tab after : Tab) : Prop :=
  ∀ page submission, after.Submits page submission → tab.Submits page submission

/-- A submit of the page at hand is one of the editor that it is, which waits for it. -/
theorem Submits.busy {submission : Submission} (submits : tab.Submits tab.number submission)
    (sound : tab.Sound) :
    ∃ s, tab.page = .ruleEditor s ∧ s.draft.value.isSubmitting = true := by
  have own := sound.own _ submits rfl
  cases shown : tab.page with
  | ruleEditor s => exact ⟨s, rfl, sound.busy submits rfl s shown⟩
  | _ => rw [shown] at own; cases own

section Editor

variable {s : RuleEditor} (sound : tab.Sound) (shown : tab.page = .ruleEditor s)
  (busy : s.draft.value.isSubmitting = true)

include sound shown busy

theorem submits_of_busy : ∃ submission, tab.Submits tab.number submission := by
  have counted := (sound.steady s shown).busy
  rw [busy] at counted
  have some : 0 < tab.calls.countP (Flight.isOf tab.number Page.Call.submits) :=
    Nat.lt_of_lt_of_eq Nat.one_pos counted.symm
  obtain ⟨⟨maker, c⟩, mem, sort⟩ := List.countP_pos_iff.mp some
  obtain ⟨here, submits⟩ := (Bool.and_eq_true _ _).mp sort
  cases eq_of_beq here
  cases c with
  | ruleEditor c =>
    cases c with
    | locate grant id => cases submits
    | submit submission => exact ⟨submission, mem⟩
  | _ => cases submits

/-- An editor that submits has been mounted, and its rule has been looked up. -/
theorem mounted_of_busy : Mounted tab.number tab where
  past := Nat.le_refl _
  done mem := by
    have mounts : 0 < tab.mounts.count tab.number :=
      List.count_pos_iff.mpr (List.mem_filterMap.mpr ⟨_, mem, rfl⟩)
    have free := (sound.steady s shown).free (Nat.lt_of_lt_of_le mounts (Nat.le_add_right _ _))
    cases free.symm.trans busy

theorem not_locates_of_busy (grant id : String) :
    ⟨tab.number, .ruleEditor (.locate grant id)⟩ ∉ tab.calls := by
  intro mem
  have locates : 0 < tab.calls.countP (Flight.isOf tab.number Page.Call.locates) :=
    List.countP_pos_iff.mpr
      ⟨_, mem, by simp [Flight.isOf, Page.Call.locates, RuleEditor.Call.locates]⟩
  have free := (sound.steady s shown).free (Nat.lt_of_lt_of_le locates (Nat.le_add_left _ _))
  cases free.symm.trans busy

end Editor

theorem AddsNoSubmit.trans {between : Tab} (first : AddsNoSubmit tab between)
    (second : AddsNoSubmit between after) : AddsNoSubmit tab after :=
  fun page submission submits => first page submission (second page submission submits)

theorem takeTurn_addsNoSubmit {t : Turn Page Page.Call}
    (silent : ∀ submission, .call (.ruleEditor (.submit submission)) ∉ t.commands) :
    AddsNoSubmit tab (tab.takeTurn t) := fun _ submission submits =>
  (mem_calls_takeTurn.mp submits).resolve_right fun made => silent submission made.2

theorem settleCall_addsNoSubmit (page : Nat) (c : Page.Call) (outcome : Outcome c.Answer) :
    AddsNoSubmit tab (tab.settleCall page c outcome) := by
  intro maker submission submits
  rcases List.mem_append.mp ((settleCall_calls page c outcome).mem_iff.mpr submits) with old | made
  · exact old
  · obtain ⟨call, called, same⟩ := List.mem_map.mp made
    cases same
    exact absurd (Turn.mem_calls.mp called) Page.no_submit_settle

theorem send_addsNoSubmit {c : Page.Call} (first : tab.due = .call page c :: rest) :
    AddsNoSubmit tab ({ tab with due := rest }.send page c) := by
  intro maker submission submits
  rcases send_cases { tab with due := rest } page c with
    ⟨-, sent⟩ | ⟨request, -, ⟨r, server, -, sent⟩ | ⟨server, -, sent⟩⟩
  · rw [sent] at submits
    exact mem_calls_of_rest first (settleCall_addsNoSubmit page c _ maker submission submits)
  · rw [sent] at submits
    have old := settleCall_addsNoSubmit page c _ maker submission submits
    exact mem_calls_of_rest first old
  · rw [sent] at submits
    rcases @mem_calls_waiting { tab with due := rest } _ _ _ _ _ submits with old | new
    · exact mem_calls_of_rest first old
    · cases new
      exact mem_calls_of_first first

theorem goto_addsNoSubmit (location : GrantConsole.Url.Location) :
    AddsNoSubmit tab (tab.goto location) := fun _ _ submits => by
  unfold Submits at submits
  rwa [goto_calls] at submits

theorem Works.addsNoSubmit (first : tab.due = due :: rest)
    (works : Works { tab with due := rest } due after) : AddsNoSubmit tab after := by
  have left : AddsNoSubmit tab { tab with due := rest } := fun _ _ submits =>
    mem_calls_of_rest first submits
  cases works with
  | mounts => exact left.trans (takeTurn_addsNoSubmit fun _ => Page.no_submit_mounted)
  | calls page c => exact send_addsNoSubmit first
  | goes path => exact left.trans (goto_addsNoSubmit _)
  | signsOut => exact left.trans (goto_addsNoSubmit _)
  | expires =>
    exact left.trans (@goto_addsNoSubmit { tab with due := rest, expired := false } _)
  | left own elsewhere => exact left
  | seen => exact left

end Tab

end GrantConsole.Console
