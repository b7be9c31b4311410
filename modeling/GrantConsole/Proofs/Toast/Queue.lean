import GrantConsole.Toast.Basic

/-!
# The queue of toasts

However toasts are pushed and dismissed, the queue holds the latest of them in the order of their
pushes, and no more than it has room for. A toast leaves when it is dismissed by its own number, or
when it is the oldest in a full queue and another one is pushed; it does not come back. So a
dismissal that comes late, for a toast that has left, does nothing.
-/

namespace GrantConsole.Toasts

/-- What can be done with toasts. -/
inductive Action
  | push (kind : ToastKind) (text : String)
  | dismiss (id : Nat)
deriving DecidableEq

/-- The toasts after an action. -/
def act (t : Toasts) : Action → Toasts
  | .push kind text => t.push kind text
  | .dismiss id => t.dismiss id

def run (t : Toasts) (actions : List Action) : Toasts :=
  actions.foldl act t

/-- The toast that the next push makes. -/
def fresh (t : Toasts) (kind : ToastKind) (text : String) : Toast :=
  ⟨t.next, kind, text⟩

/-- All toasts that a run pushes, in the order of the pushes. -/
def pushed (t : Toasts) : List Action → List Toast
  | [] => []
  | .push kind text :: later => t.fresh kind text :: (t.push kind text).pushed later
  | .dismiss id :: later => (t.dismiss id).pushed later

/-- A toast leaves the queue with an action. -/
inductive Leaves (t : Toasts) (toast : Toast) : Action → Prop
  | dismissed : Leaves t toast (.dismiss toast.id)
  /-- The sixth toast drives out the oldest. -/
  | drivenOut (full : t.queue.length = capacity) (oldest : t.queue.head? = some toast)
      (kind : ToastKind) (text : String) : Leaves t toast (.push kind text)

/-- No more toasts are queued than there is room for, in the order of their numbers. -/
structure Orderly (t : Toasts) : Prop where
  capacity : t.queue.length ≤ capacity
  increasing : t.queue.Pairwise fun first second => first.id < second.id
  numbered : ∀ toast ∈ t.queue, toast.id < t.next

variable {t : Toasts}

/-! ## One action -/

theorem push_eq (t : Toasts) (kind : ToastKind) (text : String) :
    t.push kind text =
      ⟨(t.queue ++ [t.fresh kind text]).drop (t.queue.length + 1 - capacity), t.next + 1⟩ := by
  have length : (t.queue ++ [t.fresh kind text]).length = t.queue.length + 1 :=
    List.length_append
  rw [← length]
  rfl

/-- A push adds a toast at the end, and takes the oldest away if the queue is full. -/
theorem push_cases (room : t.queue.length ≤ capacity) (kind : ToastKind) (text : String) :
    (t.queue.length < capacity ∧
      t.push kind text = ⟨t.queue ++ [t.fresh kind text], t.next + 1⟩) ∨
    ∃ oldest others, t.queue = oldest :: others ∧ t.queue.length = capacity ∧
      t.push kind text = ⟨others ++ [t.fresh kind text], t.next + 1⟩ := by
  rw [push_eq]
  rcases Nat.lt_or_eq_of_le room with free | full
  · left
    rw [Nat.sub_eq_zero_of_le free, List.drop_zero]
    exact ⟨free, rfl⟩
  · right
    cases queue : t.queue with
    | nil =>
        rw [queue] at full
        cases full
    | cons oldest others =>
        rw [queue] at full
        refine ⟨oldest, others, rfl, full, ?_⟩
        rw [full, Nat.add_sub_cancel_left]
        rfl

theorem next_le_act (t : Toasts) (action : Action) : t.next ≤ (t.act action).next := by
  cases action with
  | push kind text => exact Nat.le_succ _
  | dismiss id => exact Nat.le_refl _

/-- What is in the queue after an action was in it before, or has just been pushed. -/
theorem mem_queue_act {action : Action} {toast : Toast} (member : toast ∈ (t.act action).queue) :
    toast ∈ t.queue ∨ toast.id = t.next := by
  cases action with
  | push kind text =>
      have there := List.mem_of_mem_drop member
      rcases List.mem_append.mp there with old | new
      · exact .inl old
      · obtain rfl := List.mem_singleton.mp new
        exact .inr rfl
  | dismiss id => exact .inl (List.mem_filter.mp member).1

theorem Orderly.act (orderly : Orderly t) (action : Action) : Orderly (t.act action) := by
  obtain ⟨room, increasing, numbered⟩ := orderly
  constructor
  case capacity =>
    cases action with
    | push kind text =>
        change (t.push kind text).queue.length ≤ _
        rcases push_cases room kind text with ⟨free, after⟩ | ⟨oldest, others, queue, full, after⟩
        · rw [after, List.length_append]
          exact free
        · rw [after, List.length_append, ← full, queue]
          exact Nat.le_refl _
    | dismiss id => exact Nat.le_trans (List.length_filter_le ..) room
  case increasing =>
    cases action with
    | push kind text =>
        have appended : (t.queue ++ [t.fresh kind text]).Pairwise fun a b => a.id < b.id := by
          rw [List.pairwise_append]
          refine ⟨increasing, List.pairwise_singleton _ _, ?_⟩
          intro old present new member
          rw [List.mem_singleton.mp member]
          exact numbered old present
        change (t.push kind text).queue.Pairwise _
        rw [push_eq]
        exact appended.sublist (List.drop_sublist ..)
    | dismiss id => exact increasing.sublist List.filter_sublist
  case numbered =>
    intro toast member
    rcases mem_queue_act member with old | new
    · exact Nat.lt_of_lt_of_le (numbered toast old) (next_le_act t action)
    · cases action with
      | push kind text => exact Nat.lt_succ_of_le (Nat.le_of_eq new)
      | dismiss id => exact numbered toast (List.mem_filter.mp member).1

/-- A toast leaves the queue for the two reasons alone, and for each of them. -/
theorem Orderly.not_mem_act_iff (orderly : Orderly t) {toast : Toast} (member : toast ∈ t.queue)
    (action : Action) : toast ∉ (t.act action).queue ↔ t.Leaves toast action := by
  cases action with
  | push kind text =>
      change toast ∉ (t.push kind text).queue ↔ _
      rcases push_cases orderly.capacity kind text with
        ⟨free, after⟩ | ⟨oldest, others, queue, full, after⟩
      · rw [after]
        constructor
        · exact fun gone => absurd (List.mem_append_left _ member) gone
        · rintro (_ | ⟨full, -⟩)
          exact absurd full (Nat.ne_of_lt free)
      · rw [after]
        have increasing := orderly.increasing
        rw [queue] at increasing member
        constructor
        · intro gone
          rcases List.mem_cons.mp member with rfl | other
          · exact .drivenOut full (by rw [queue, List.head?_cons]) kind text
          · exact absurd (List.mem_append_left _ other) gone
        · rintro (_ | ⟨-, first⟩) there
          rw [queue, List.head?_cons, Option.some.injEq] at first
          subst first
          rcases List.mem_append.mp there with other | new
          · exact Nat.lt_irrefl _ ((List.pairwise_cons.mp increasing).1 oldest other)
          · have numbered := orderly.numbered oldest (queue ▸ List.mem_cons_self)
            rw [List.mem_singleton.mp new] at numbered
            exact Nat.lt_irrefl _ numbered
  | dismiss id =>
      have there : toast ∈ (t.act (.dismiss id)).queue ↔ toast.id ≠ id := by
        refine List.mem_filter.trans ?_
        rw [bne_iff_ne]
        exact and_iff_right member
      rw [there, Decidable.not_not]
      constructor
      · rintro rfl
        exact .dismissed
      · rintro ⟨⟩
        rfl

/-- A dismissal of a toast that is not in the queue does nothing. -/
theorem dismiss_of_absent {id : Nat} (absent : ∀ toast ∈ t.queue, toast.id ≠ id) :
    t.dismiss id = t := by
  have kept : t.queue.filter (fun toast => toast.id != id) = t.queue := by
    rw [List.filter_eq_self]
    exact fun toast member => bne_iff_ne.mpr (absent toast member)
  change Toasts.mk (t.queue.filter _) t.next = t
  rw [kept]

/-- What has just been pushed is the last in the queue. -/
theorem getLast?_push (room : t.queue.length ≤ capacity) (kind : ToastKind) (text : String) :
    (t.push kind text).queue.getLast? = some (t.fresh kind text) := by
  rcases push_cases room kind text with ⟨-, after⟩ | ⟨oldest, others, -, -, after⟩
  · rw [after, List.getLast?_concat]
  · rw [after, List.getLast?_concat]

/-! ## Runs -/

theorem orderly_empty : Orderly {} :=
  ⟨Nat.zero_le _, .nil, fun _ member => absurd member List.not_mem_nil⟩

theorem Orderly.run (orderly : Orderly t) (actions : List Action) : Orderly (t.run actions) := by
  induction actions generalizing t with
  | nil => exact orderly
  | cons action later ih => exact ih (orderly.act action)

theorem run_append (t : Toasts) (before after : List Action) :
    t.run (before ++ after) = (t.run before).run after :=
  List.foldl_append

/-- A toast does not come back. -/
theorem not_mem_run {toast : Toast} (numbered : toast.id < t.next) (gone : toast ∉ t.queue)
    (actions : List Action) : toast ∉ (t.run actions).queue := by
  induction actions generalizing t with
  | nil => exact gone
  | cons action later ih =>
      apply ih (Nat.lt_of_lt_of_le numbered (next_le_act t action))
      intro member
      rcases mem_queue_act member with old | new
      · exact gone old
      · exact absurd new (Nat.ne_of_lt numbered)

/-- A toast in the queue is there after a run if it leaves with none of the actions. -/
theorem Orderly.mem_run_iff (orderly : Orderly t) {toast : Toast} (member : toast ∈ t.queue)
    (actions : List Action) :
    toast ∈ (t.run actions).queue ↔
      ∀ before action after, actions = before ++ action :: after →
        ¬ (t.run before).Leaves toast action := by
  induction actions generalizing t with
  | nil =>
      refine iff_of_true member ?_
      intro before action after split
      cases before <;> cases split
  | cons first later ih =>
      have step := orderly.not_mem_act_iff member first
      by_cases stays : toast ∈ (t.act first).queue
      · refine (ih (orderly.act first) stays).trans ?_
        constructor
        · intro none before action after split
          cases before with
          | nil =>
              obtain ⟨rfl, -⟩ := List.cons.inj split
              exact fun leaves => step.mpr leaves stays
          | cons same before =>
              obtain ⟨rfl, rest⟩ := List.cons.inj split
              exact none before action after rest
        · intro none before action after split
          exact none (first :: before) action after (congrArg _ split)
      · refine iff_of_false ?_ ?_
        · have numbered := Nat.lt_of_lt_of_le (orderly.numbered toast member) (next_le_act t first)
          exact not_mem_run numbered stays later
        · exact fun none => none [] first later rfl (step.mp stays)

/-- What has just been pushed is there after a run if it leaves with none of the actions. -/
theorem Orderly.fresh_mem_run_iff (orderly : Orderly t) (kind : ToastKind) (text : String)
    (actions : List Action) :
    t.fresh kind text ∈ (t.run (.push kind text :: actions)).queue ↔
      ∀ before action after, actions = before ++ action :: after →
        ¬ (t.run (.push kind text :: before)).Leaves (t.fresh kind text) action := by
  have shown := List.mem_of_getLast? (getLast?_push orderly.capacity kind text)
  exact (orderly.act (.push kind text)).mem_run_iff shown actions

/-- What has been pushed and then dismissed is gone, whatever else is done. -/
theorem Orderly.fresh_not_mem_run (orderly : Orderly t) (kind : ToastKind) (text : String)
    {actions : List Action} (dismissed : .dismiss t.next ∈ actions) :
    t.fresh kind text ∉ (t.run (.push kind text :: actions)).queue := by
  intro there
  obtain ⟨before, after, split⟩ := List.append_of_mem dismissed
  exact (orderly.fresh_mem_run_iff kind text actions).mp there before _ after split .dismissed

/-! ## What a run pushes -/

/-- Toasts are numbered in the order of their pushes. -/
theorem map_id_pushed (t : Toasts) (actions : List Action) :
    (t.pushed actions).map Toast.id = List.range' t.next (t.pushed actions).length := by
  induction actions generalizing t with
  | nil => rfl
  | cons action later ih =>
      cases action with
      | push kind text =>
          rw [pushed, List.map_cons, ih, List.length_cons, List.range'_succ]
          rfl
      | dismiss id => exact ih (t.dismiss id)

theorem mem_pushed {toast : Toast} {actions : List Action} (member : toast ∈ t.pushed actions) :
    ∃ before kind text after, actions = before ++ .push kind text :: after ∧
      toast = (t.run before).fresh kind text := by
  induction actions generalizing t with
  | nil => cases member
  | cons action later ih =>
      have inLater (among : toast ∈ (t.act action).pushed later) :
          ∃ before kind text after, action :: later = before ++ .push kind text :: after ∧
            toast = (t.run before).fresh kind text := by
        obtain ⟨before, kind, text, after, rfl, same⟩ := ih among
        exact ⟨action :: before, kind, text, after, rfl, same⟩
      cases action with
      | push kind text =>
          rcases List.mem_cons.mp member with here | among
          · exact ⟨[], kind, text, later, rfl, here⟩
          · exact inLater among
      | dismiss id => exact inLater member

/-- The queue keeps the order of the pushes. -/
theorem queue_run_sublist (t : Toasts) (actions : List Action) :
    (t.run actions).queue.Sublist (t.queue ++ t.pushed actions) := by
  induction actions generalizing t with
  | nil => exact List.sublist_append_left ..
  | cons action later ih =>
      refine (ih (t.act action)).trans ?_
      cases action with
      | push kind text =>
          have added : (t.push kind text).queue.Sublist (t.queue ++ [t.fresh kind text]) := by
            rw [push_eq]
            exact List.drop_sublist ..
          rw [pushed, List.append_cons]
          exact added.append_right _
      | dismiss id => exact List.filter_sublist.append_right _

/-! ## The queue after any run -/

/-- What holds of the toasts after the actions of a run. -/
structure Kept (actions : List Action) (t : Toasts) : Prop where
  capacity : t.queue.length ≤ 5
  distinct : (t.queue.map Toast.id).Nodup
  order : t.queue.Sublist (pushed {} actions)
  numbers : ((pushed {} actions).map Toast.id).Nodup
  /-- A toast is in the queue when it has just been pushed, after all others. -/
  shown : ∀ kind text, (t.push kind text).queue.getLast? = some (t.fresh kind text)
  /-- A toast leaves with its dismissal, or as the oldest of six, and with nothing else. -/
  leaves : ∀ toast ∈ t.queue, ∀ action, toast ∉ (t.act action).queue ↔ t.Leaves toast action
  /-- Dismissing what is not in the queue does nothing. -/
  late : ∀ id, (∀ toast ∈ t.queue, toast.id ≠ id) → t.dismiss id = t
  /-- What was pushed is there still if it has left with none of the actions since. -/
  stays : ∀ before kind text after, actions = before ++ .push kind text :: after →
    ((run {} before).fresh kind text ∈ t.queue ↔
      ∀ since action later, after = since ++ action :: later →
        ¬ (run {} (before ++ .push kind text :: since)).Leaves ((run {} before).fresh kind text)
          action)
  /-- When every toast has been dismissed after its push, none is left. -/
  empty : (∀ before kind text after, actions = before ++ .push kind text :: after →
    .dismiss (run {} before).next ∈ after) → t.queue = []

/-- However toasts are pushed and dismissed, the queue is kept. -/
theorem kept_run (actions : List Action) : Kept actions (run {} actions) := by
  have orderly := orderly_empty.run actions
  have order : (run {} actions).queue.Sublist (pushed {} actions) := queue_run_sublist {} actions
  have numbers : ((pushed {} actions).map Toast.id).Nodup := by
    rw [map_id_pushed]
    exact List.nodup_range'
  constructor
  case capacity => exact orderly.capacity
  case distinct => exact numbers.sublist (order.map Toast.id)
  case order => exact order
  case numbers => exact numbers
  case shown => exact getLast?_push orderly.capacity
  case leaves => exact fun toast member action => orderly.not_mem_act_iff member action
  case late => exact fun id absent => dismiss_of_absent absent
  case stays =>
    rintro before kind text after rfl
    simp only [run_append]
    exact (orderly_empty.run before).fresh_mem_run_iff kind text after
  case empty =>
    intro dismissed
    rw [List.eq_nil_iff_forall_not_mem]
    intro toast member
    obtain ⟨before, kind, text, after, rfl, rfl⟩ := mem_pushed (order.subset member)
    rw [run_append] at member
    have later := dismissed before kind text after rfl
    exact (orderly_empty.run before).fresh_not_mem_run kind text later member

end GrantConsole.Toasts
