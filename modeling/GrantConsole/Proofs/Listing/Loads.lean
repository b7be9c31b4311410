import Mathlib.Data.List.Perm.Basic
import GrantConsole.Domain.Resource
import GrantConsole.Proofs.Listing.Run

/-!
# Loads that overlap

A listing may be loaded again while an earlier load has no answer yet. An answer does not say which
load it is for, so the rows are those of the success that came last, be it the answer to an older
load. The first answer after a beginning ends the loading, and an error stays until the next load
begins.
-/

namespace GrantConsole.Listing

open GrantConsole.Api

variable {R : Type}

/-- The action begins a load or takes in its answer. -/
def Action.isOfLoad : Action R → Bool
  | .beginLoad => true
  | .finishLoad _ => true
  | _ => false

/-- What happens to a listing while loads of it are under way. -/
inductive LoadEvent (R : Type)
  | begins
  /-- The answer to a load, by the number of the load in the order of their beginnings. -/
  | answers (load : Nat) (result : Except Failure (Page R))
  /-- Anything else that is done with the listing. -/
  | does (action : Action R) (other : action.isOfLoad = false)

namespace LoadEvent

def action : LoadEvent R → Action R
  | begins => .beginLoad
  | answers _ result => .finishLoad result
  | does action _ => action

def isAnswer : LoadEvent R → Bool
  | answers _ _ => true
  | _ => false

/-- The answer to a load that brings rows. -/
def brings : LoadEvent R → Bool
  | answers _ (.ok _) => true
  | _ => false

/-- The event decides whether an error is shown: a load begins or fails. -/
def marks : LoadEvent R → Bool
  | begins => true
  | answers _ (.error _) => true
  | _ => false

/-- A load begins or is answered. -/
def isOfLoad : LoadEvent R → Bool
  | does _ _ => false
  | _ => true

/-- The failure that an event leaves. -/
def failure? : LoadEvent R → Option Failure
  | answers _ (.error e) => some e
  | _ => none

end LoadEvent

/-- The loads that are answered in a trace, in the order of their answers. -/
def answered : List (LoadEvent R) → List Nat
  | [] => []
  | .answers load _ :: later => load :: answered later
  | _ :: later => answered later

/-- How the loads of a trace stand: how many have begun, and which of them have no answer. -/
inductive Overlap : List (LoadEvent R) → (begun : Nat) → (waiting : List Nat) → Prop
  | none : Overlap [] 0 []
  | begins {trace : List (LoadEvent R)} {begun : Nat} {waiting : List Nat}
      (earlier : Overlap trace begun waiting) :
      Overlap (trace ++ [.begins]) (begun + 1) (waiting ++ [begun])
  | answers {trace : List (LoadEvent R)} {begun load : Nat} {waiting : List Nat}
      (earlier : Overlap trace begun waiting) (held : load ∈ waiting)
      (result : Except Failure (Page R)) :
      Overlap (trace ++ [.answers load result]) begun (waiting.erase load)
  | does {trace : List (LoadEvent R)} {begun : Nat} {waiting : List Nat}
      (earlier : Overlap trace begun waiting) (action : Action R)
      (other : action.isOfLoad = false) :
      Overlap (trace ++ [.does action other]) begun waiting

/-- The last event of a kind in a trace, and the events after it. -/
structure LastOf (kind : LoadEvent R → Bool) (trace : List (LoadEvent R)) (event : LoadEvent R)
    (later : List (LoadEvent R)) : Prop where
  among : ∃ before, trace = before ++ event :: later
  alike : kind event = true
  none : ∀ other ∈ later, kind other = false

/-- Two listings show the same rows with the same count. -/
structure SameRows (s t : Listing R) : Prop where
  items : s.items = t.items
  count : s.count = t.count

theorem answered_append (first second : List (LoadEvent R)) :
    answered (first ++ second) = answered first ++ answered second := by
  induction first with
  | nil => rfl
  | cons event rest ih => cases event <;> simp [answered, ih]

theorem isAnswer_of_answered {trace : List (LoadEvent R)} (none : answered trace = []) :
    ∀ event ∈ trace, event.isAnswer = false := by
  induction trace with
  | nil => nofun
  | cons event rest ih =>
    cases event with
    | answers load result => cases none
    | begins | does action other => exact List.forall_mem_cons.mpr ⟨rfl, ih none⟩

section SameRows

variable {s t u : Listing R}

theorem SameRows.refl (s : Listing R) : SameRows s s := ⟨rfl, rfl⟩

theorem SameRows.trans (first : SameRows s t) (second : SameRows t u) : SameRows s u :=
  ⟨first.items.trans second.items, first.count.trans second.count⟩

/-- The rows that a success brings do not depend on what was there. -/
theorem sameRows_finishLoad (s t : Listing R) (page : Page R) :
    SameRows (s.finishLoad (.ok page)) (t.finishLoad (.ok page)) := ⟨rfl, rfl⟩

end SameRows

variable [Resource R]

/-- The listing after the events of a trace. -/
def after (s : Listing R) (trace : List (LoadEvent R)) : Listing R :=
  s.run (trace.map LoadEvent.action)

/-- Where the events of a trace have brought a listing. -/
structure Settled (s : Listing R) (trace : List (LoadEvent R)) (begun : Nat) (waiting : List Nat) :
    Prop where
  /-- The rows are those of the success that came last, with all but loads that came after it. -/
  rows : ∀ load page later, LastOf LoadEvent.brings trace (.answers load (.ok page)) later →
    ∀ other : Listing R, SameRows (s.after trace)
      ((other.finishLoad (.ok page)).after (later.filter fun event => !event.isOfLoad))
  /-- Without a success they are those of the start. -/
  unloaded : (∀ event ∈ trace, event.brings = false) →
    SameRows (s.after trace) (s.after (trace.filter fun event => !event.isOfLoad))
  /-- The error is the failure that came last since the last beginning. -/
  error : ∀ event later, LastOf LoadEvent.marks trace event later →
    (s.after trace).error = event.failure?
  /-- Loading lasts from a beginning to the next answer, whatever load that is for. -/
  loading : ∀ event later, LastOf LoadEvent.isOfLoad trace event later →
    (s.after trace).loading = !event.isAnswer
  /-- Loading is over when all loads are answered. -/
  rests : 0 < begun → waiting = [] → (s.after trace).loading = false
  /-- Where the loads are answered in their order, the newest decides if it succeeded. -/
  ordered : waiting = [] → (answered trace).Pairwise (· < ·) →
    ∀ load page, load + 1 = begun → .answers load (.ok page) ∈ trace →
      ∃ later, LastOf LoadEvent.brings trace (.answers load (.ok page)) later

section Events

variable {s t : Listing R}

@[simp] theorem after_nil (s : Listing R) : s.after [] = s := rfl

theorem after_append (s : Listing R) (first second : List (LoadEvent R)) :
    s.after (first ++ second) = (s.after first).after second := by
  simp only [after, run, List.map_append, List.foldl_append]

theorem after_cons (s : Listing R) (event : LoadEvent R) (later : List (LoadEvent R)) :
    s.after (event :: later) = (s.act event.action).after later := rfl

/-- What an action does to the rows depends on them alone. -/
theorem SameRows.act (same : SameRows s t) (action : Action R) :
    SameRows (s.act action) (t.act action) := by
  have upserted (saved : R) : SameRows (s.upsert saved) (t.upsert saved) := by
    unfold upsert
    rw [same.items, same.count]
    split
    · exact ⟨rfl, rfl⟩
    · exact ⟨rfl, rfl⟩
  have opened (u : Listing R) (id : String) : SameRows (u.openEdit id).1 u := by
    unfold openEdit
    split <;> exact ⟨rfl, rfl⟩
  cases action with
  | finishLoad result =>
    cases result with
    | ok page => exact sameRows_finishLoad s t page
    | error failure => exact ⟨same.items, same.count⟩
  | retain keep => exact ⟨congrArg (List.filter keep) same.items, same.count⟩
  | openEdit id => exact ⟨(opened s id).items.trans (same.items.trans (opened t id).items.symm),
      (opened s id).count.trans (same.count.trans (opened t id).count.symm)⟩
  | upsert saved => exact upserted saved
  | finishSave result =>
    cases result with
    | ok saved => exact ⟨(upserted saved).items, (upserted saved).count⟩
    | error failure => exact same
  | finishDelete id result =>
    cases result with
    | ok done =>
      simp only [Listing.act, finishDelete, closeDialog, same.items, same.count]
      exact ⟨rfl, rfl⟩
    | error failure => exact ⟨same.items, same.count⟩
  | _ => exact ⟨same.items, same.count⟩

/-- A load that begins or fails leaves the rows. -/
theorem sameRows_act_of_load (s : Listing R) {event : LoadEvent R} (load : event.isOfLoad = true)
    (empty : event.brings = false) : SameRows (s.act event.action) s := by
  cases event with
  | begins => exact ⟨rfl, rfl⟩
  | answers nth result =>
    cases result with
    | ok page => cases empty
    | error failure => exact ⟨rfl, rfl⟩
  | does action other => cases load

/-- As long as no load brings rows, only what else is done counts for them. -/
theorem SameRows.after (same : SameRows s t) (trace : List (LoadEvent R))
    (empty : ∀ event ∈ trace, event.brings = false) :
    SameRows (s.after trace) (t.after (trace.filter fun event => !event.isOfLoad)) := by
  induction trace generalizing s t with
  | nil => exact same
  | cons event later ih =>
    obtain ⟨here, others⟩ := List.forall_mem_cons.mp empty
    cases load : event.isOfLoad with
    | true =>
      rw [List.filter_cons_of_neg (by simp [load])]
      exact ih ((s.sameRows_act_of_load load here).trans same) others
    | false =>
      rw [List.filter_cons_of_pos (by simp [load])]
      exact ih (same.act event.action) others

/-- What is not of a load leaves error and loading. -/
theorem act_of_other (s : Listing R) {action : Action R} (other : action.isOfLoad = false) :
    (s.act action).error = s.error ∧ (s.act action).loading = s.loading := by
  cases action with
  | beginLoad | finishLoad result => cases other
  | openEdit id =>
    simp only [act, openEdit]
    split <;> exact ⟨rfl, rfl⟩
  | upsert saved =>
    simp only [act, upsert]
    split <;> exact ⟨rfl, rfl⟩
  | finishSave result =>
    cases result with
    | ok saved =>
      simp only [act, finishSave, closeDialog, upsert]
      split <;> exact ⟨rfl, rfl⟩
    | error failure => exact ⟨rfl, rfl⟩
  | finishDelete id result => cases result <;> exact ⟨rfl, rfl⟩
  | _ => exact ⟨rfl, rfl⟩

theorem act_error (s : Listing R) (event : LoadEvent R) :
    (s.act event.action).error = if event.marks then event.failure? else s.error := by
  cases event with
  | begins => rfl
  | answers load result => cases result <;> rfl
  | does action other => exact (s.act_of_other other).1

theorem act_loading (s : Listing R) (event : LoadEvent R) :
    (s.act event.action).loading = if event.isOfLoad then !event.isAnswer else s.loading := by
  cases event with
  | begins => rfl
  | answers load result => cases result <;> rfl
  | does action other => exact (s.act_of_other other).2

/-- What only events of a kind change is as the last of them has left it. -/
theorem LastOf.field {α : Type} {kind : LoadEvent R → Bool} {trace later : List (LoadEvent R)}
    {event : LoadEvent R} (last : LastOf kind trace event later) (field : Listing R → α)
    (value : LoadEvent R → α)
    (set : ∀ s event, field (s.act event.action) = if kind event then value event else field s) :
    field (s.after trace) = value event := by
  have kept (s : Listing R) (none : ∀ other ∈ later, kind other = false) :
      field (s.after later) = field s := by
    clear last
    induction later generalizing s with
    | nil => rfl
    | cons event later ih =>
      obtain ⟨here, others⟩ := List.forall_mem_cons.mp none
      rw [after_cons, ih _ others, set, here]
      rfl
  obtain ⟨before, rfl⟩ := last.among
  rw [after_append, after_cons, kept _ last.none, set, if_pos last.alike]

end Events

namespace Overlap

variable {trace : List (LoadEvent R)} {begun : Nat} {waiting : List Nat} {s : Listing R}

/-- A listing that loads has a load without an answer. -/
theorem waits (overlap : Overlap trace begun waiting) (some : 0 < begun)
    (loading : (s.after trace).loading = true) : waiting ≠ [] := by
  induction overlap with
  | none => cases some
  | begins earlier ih => simp
  | answers earlier held result ih =>
    rw [after_append, after_cons, after_nil, act_loading] at loading
    cases loading
  | does earlier action other ih =>
    rw [after_append, after_cons, after_nil, act_loading] at loading
    exact ih some loading

omit [Resource R] in
/-- Each load is answered once or waits. -/
theorem answered_perm (overlap : Overlap trace begun waiting) :
    (answered trace ++ waiting).Perm (List.range begun) := by
  induction overlap with
  | none => exact .refl _
  | begins earlier ih =>
    rw [answered_append, List.range_succ]
    simpa [answered] using ih.append_right [_]
  | answers earlier held result ih =>
    rw [answered_append]
    refine .trans ?_ ih
    simpa [answered] using (List.perm_cons_erase held).symm.append_left _
  | does earlier action other ih =>
    rw [answered_append]
    simpa [answered] using ih

omit [Resource R] in
/-- With the loads answered in their order no answer follows the one to the newest. -/
theorem newest_last {before later : List (LoadEvent R)} {load : Nat}
    {result : Except Failure (Page R)}
    (overlap : Overlap (before ++ .answers load result :: later) (load + 1) [])
    (ordered : (answered (before ++ .answers load result :: later)).Pairwise (· < ·)) :
    answered later = [] := by
  have all := overlap.answered_perm
  rw [List.append_nil] at all
  rw [answered_append, answered] at all ordered
  refine List.eq_nil_iff_forall_not_mem.mpr fun other late => ?_
  have beyond : load < other :=
    (List.pairwise_cons.mp (List.pairwise_append.mp ordered).2.1).1 other late
  have below : other < load + 1 := List.mem_range.mp
    (all.mem_iff.mp (List.mem_append_right _ (List.mem_cons_of_mem _ late)))
  omega

end Overlap

/-- Whatever loads of a listing overlap and in whatever order they are answered: the rows come from
the success that came last, the error from the failure that came last since the last beginning, and
the loading ends with the first answer after a beginning. -/
theorem settled_of_overlap (s : Listing R) {trace : List (LoadEvent R)} {begun : Nat}
    {waiting : List Nat} (overlap : Overlap trace begun waiting) :
    Settled s trace begun waiting where
  rows load page later last other := by
    obtain ⟨before, rfl⟩ := last.among
    rw [after_append, after_cons]
    exact (sameRows_finishLoad _ other page).after later last.none
  unloaded empty := (SameRows.refl s).after trace empty
  error event later last := last.field error LoadEvent.failure? act_error
  loading event later last := last.field loading (fun event => !event.isAnswer) act_loading
  rests some none := by
    rw [← Bool.not_eq_true]
    exact fun loading => overlap.waits some loading none
  ordered none ordered load page newest mem := by
    subst none newest
    obtain ⟨before, later, rfl⟩ := List.append_of_mem mem
    refine ⟨later, ⟨before, rfl⟩, rfl, fun event mem => ?_⟩
    have unanswered := isAnswer_of_answered (overlap.newest_last ordered) event mem
    cases event with
    | answers other result => cases unanswered
    | begins | does action other => rfl

/-! ## Two loads -/

/-- Two loads that overlap, and the answers to them. -/
def twoLoads (answers : List (LoadEvent R)) : List (LoadEvent R) :=
  .begins :: .begins :: answers

omit [Resource R] in
theorem overlap_two (result : Except Failure (Page R)) (load : Nat) (held : load ∈ [0, 1]) :
    Overlap (twoLoads [.answers load result]) 2 ([0, 1].erase load) :=
  .answers (.begins (.begins .none)) held result

omit [Resource R] in
theorem overlap_reordered (first second : Except Failure (Page R)) :
    Overlap (twoLoads [.answers 1 first, .answers 0 second]) 2 [] :=
  .answers (overlap_two first 1 (by decide)) (by decide) second

omit [Resource R] in
theorem overlap_ordered (first second : Except Failure (Page R)) :
    Overlap (twoLoads [.answers 0 first, .answers 1 second]) 2 [] :=
  .answers (overlap_two first 0 (by decide)) (by decide) second

/-- The rows before a category was made, and those with it. -/
def older : Page Category := ⟨[{ id := some "a" }], 1⟩

def newer : Page Category := ⟨[{ id := some "a" }, { id := some "b" }], 2⟩

/-- The answer to the older of two loads comes last, and its rows stay. -/
theorem settled_of_overlap_reordered :
    ∃ trace : List (LoadEvent Category), Overlap trace 2 [] ∧ Settled {} trace 2 [] ∧
      (after {} trace).items = older.items :=
  ⟨_, overlap_reordered (.ok newer) (.ok older),
    settled_of_overlap {} (overlap_reordered (.ok newer) (.ok older)), rfl⟩

/-- Neither are the rows always those of the newest load, nor is its success free of the failure of
an older one, nor is a listing shown to load until all loads are answered. -/
theorem newest_load_undecided :
    (¬ ∀ (trace : List (LoadEvent Category)) (newest : Nat) (page : Page Category),
      (∀ event ∈ trace, event.isOfLoad = true) → Overlap trace (newest + 1) [] →
        .answers newest (.ok page) ∈ trace →
          (after {} trace).items = page.items ∧ (after {} trace).count = page.count) ∧
    (¬ ∀ (trace : List (LoadEvent Category)) (newest : Nat) (page : Page Category),
      (∀ event ∈ trace, event.isOfLoad = true) → Overlap trace (newest + 1) [] →
        .answers newest (.ok page) ∈ trace → (after {} trace).error = none) ∧
    ¬ ∀ (trace : List (LoadEvent Category)) (begun : Nat) (waiting : List Nat),
      (∀ event ∈ trace, event.isOfLoad = true) → Overlap trace begun waiting →
        waiting ≠ [] → (after {} trace).loading = true := by
  refine ⟨fun all => ?_, fun all => ?_, fun all => ?_⟩
  · have rows := all _ 1 newer (by simp [twoLoads, LoadEvent.isOfLoad])
      (overlap_reordered (.ok newer) (.ok older)) (by simp [twoLoads])
    exact absurd rows.1 (by decide)
  · have clean := all _ 1 newer (by simp [twoLoads, LoadEvent.isOfLoad])
      (overlap_ordered (.error (.ofStatus 500 "")) (.ok newer)) (by simp [twoLoads])
    cases clean
  · have loading := all _ 2 [1] (by simp [twoLoads, LoadEvent.isOfLoad])
      (overlap_two (.ok older) 0 (by decide)) (by decide)
    cases loading

end GrantConsole.Listing
