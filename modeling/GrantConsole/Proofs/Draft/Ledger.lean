import Mathlib.Data.List.InsertIdx
import Mathlib.Data.List.Nodup

/-!
# Ledgers of changing lists

A list changes by new entries at its end, edits of one entry and removals of one entry, the latter
two by index. A ledger numbers the entries as they come, the original ones first, and follows them
as removals shift them. It tells of every entry of the list which one it is and what was last
written to it.
-/

namespace GrantConsole

variable {α β ε : Type}

/-- A change of a list, with edits of some kind. -/
inductive Change (ε : Type)
  | added
  | edited (index : Nat) (edit : ε)
  | removed (index : Nat)

namespace Change

def isAdded : Change ε → Bool
  | added => true
  | _ => false

def isRemoved : Change ε → Bool
  | removed _ => true
  | _ => false

end Change

/-- A change takes one list to another. The entry that it is aimed at is there. -/
inductive Changes (apply : ε → α → α) (blank : α) : List α → Change ε → List α → Prop where
  | added (items : List α) : Changes apply blank items .added (items ++ [blank])
  | edited {items : List α} {index : Nat} (edit : ε) (inRange : index < items.length) :
      Changes apply blank items (.edited index edit) (items.modify index (apply edit))
  | removed {items : List α} {index : Nat} (inRange : index < items.length) :
      Changes apply blank items (.removed index) (items.eraseIdx index)

/-- A list is changed as told, or not at all where nothing is told. -/
inductive ChangesAsTold (apply : ε → α → α) (blank : α) :
    List α → Option (Change ε) → List α → Prop where
  | kept (items : List α) : ChangesAsTold apply blank items none items
  | changed {items after : List α} {change : Change ε}
      (changes : Changes apply blank items change after) :
      ChangesAsTold apply blank items (some change) after

structure Ledger (ε : Type) where
  /-- The numbers of the entries that are there, in the order of the list. -/
  numbers : List Nat
  /-- How many entries have come; the next one gets this number. -/
  total : Nat
  /-- The edits, the first one first, each with the number of its entry. -/
  edits : List (Nat × ε)

namespace Ledger

/-- The ledger of a list with so many entries. -/
def opening (length : Nat) : Ledger ε :=
  ⟨List.range length, length, []⟩

def record (l : Ledger ε) : Change ε → Ledger ε
  | .added => { l with numbers := l.numbers ++ [l.total], total := l.total + 1 }
  | .edited index edit =>
      { l with edits := l.edits ++ (l.numbers[index]?.map fun number => (number, edit)).toList }
  | .removed index => { l with numbers := l.numbers.eraseIdx index }

/-- The ledger after changes of a list that had so many entries. -/
def ofChanges (length : Nat) (changes : List (Change ε)) : Ledger ε :=
  changes.foldl record (opening length)

/-- The edits of one entry, the first one first. -/
def editsOf (l : Ledger ε) (number : Nat) : List ε :=
  l.edits.filterMap fun entry => if entry.1 = number then some entry.2 else none

/-- What the last edit of an entry wrote to some place of it. -/
def last? (l : Ledger ε) (written? : ε → Option β) (number : Nat) : Option β :=
  ((l.editsOf number).filterMap written?).getLast?

/-- An entry with all its edits made. -/
def entry (apply : ε → α → α) (blank : α) (original : List α) (l : Ledger ε) (number : Nat) : α :=
  (l.editsOf number).foldl (fun a edit => apply edit a) (original[number]?.getD blank)

/-- A ledger with one more edit of an entry. -/
def noted (l : Ledger ε) (number : Nat) (edit : ε) : Ledger ε :=
  { l with edits := l.edits ++ [(number, edit)] }

theorem entry_noted_self (apply : ε → α → α) (blank : α) (original : List α) (l : Ledger ε)
    (number : Nat) (edit : ε) :
    (l.noted number edit).entry apply blank original number =
      apply edit (l.entry apply blank original number) := by
  simp [entry, editsOf, noted]

theorem entry_noted_ne (apply : ε → α → α) (blank : α) (original : List α) (l : Ledger ε)
    {number other : Nat} (different : number ≠ other) (edit : ε) :
    (l.noted number edit).entry apply blank original other =
      l.entry apply blank original other := by
  simp [entry, editsOf, noted, different]

theorem ofChanges_append (length : Nat) (changes : List (Change ε)) (change : Change ε) :
    ofChanges length (changes ++ [change]) = (ofChanges length changes).record change :=
  List.foldl_append ..

/-- The last edit that writes to a place decides what stands there. -/
theorem get_foldl {apply : ε → α → α} {get : α → β} {written? : ε → Option β}
    (writes : ∀ edit a, get (apply edit a) = (written? edit).getD (get a)) (edits : List ε) (a : α) :
    get (edits.foldl (fun a edit => apply edit a) a) =
      (edits.filterMap written?).getLast?.getD (get a) := by
  induction edits generalizing a with
  | nil => rfl
  | cons edit rest ih =>
      rw [List.foldl_cons, ih, writes]
      cases wrote : written? edit with
      | none => rw [List.filterMap_cons_none wrote, Option.getD_none]
      | some b => rw [List.filterMap_cons_some wrote, List.getLast?_cons, Option.getD_some,
          Option.getD_some]

/-- What stands in a place of an entry that edits write to. -/
theorem get_entry_of_writes {apply : ε → α → α} {get : α → β} {written? : ε → Option β}
    (writes : ∀ edit a, get (apply edit a) = (written? edit).getD (get a)) (blank : α)
    (original : List α) (l : Ledger ε) (number : Nat) :
    get (l.entry apply blank original number) =
      (l.last? written? number).getD ((original[number]?.map get).getD (get blank)) := by
  unfold entry last?
  rw [get_foldl writes]
  cases original[number]? <;> rfl

/-- What stands in a place of an entry that no edit writes to and that a blank one leaves empty. -/
theorem get_entry_of_keeps {apply : ε → α → α} {get : α → Option β}
    (keeps : ∀ edit a, get (apply edit a) = get a) {blank : α} (empty : get blank = none)
    (original : List α) (l : Ledger ε) (number : Nat) :
    get (l.entry apply blank original number) = original[number]?.bind get := by
  unfold entry
  have silent : ∀ edit a, get (apply edit a) = (none : Option (Option β)).getD (get a) := keeps
  rw [get_foldl silent, List.filterMap_none]
  cases original[number]? with
  | none => exact empty
  | some first => rfl

end Ledger

/-! ## Following the entries of a list -/

/-- The ledger gives the list that the changes of the original one have led to. -/
structure Tracks (apply : ε → α → α) (blank : α) (original : List α) (changes : List (Change ε))
    (l : Ledger ε) (items : List α) : Prop where
  numbered : l.numbers.Sublist (List.range l.total)
  total : l.total = original.length + changes.countP Change.isAdded
  aimed : ∀ edit ∈ l.edits, edit.1 < l.total
  entries : items = l.numbers.map (l.entry apply blank original)
  length : items.length + changes.countP Change.isRemoved =
    original.length + changes.countP Change.isAdded

namespace Tracks

variable {apply : ε → α → α} {blank : α} {original items after : List α}
  {changes : List (Change ε)} {l : Ledger ε}

theorem opening : Tracks apply blank original [] (Ledger.opening original.length) original := by
  refine ⟨List.Sublist.refl _, rfl, fun edit none => absurd none List.not_mem_nil, ?_, rfl⟩
  apply List.ext_getElem
  · simp [Ledger.opening]
  · intro i inOriginal inNumbers
    simp [Ledger.opening, Ledger.entry, Ledger.editsOf, inOriginal]

theorem length_eq (tracks : Tracks apply blank original changes l items) :
    items.length = l.numbers.length := by
  rw [tracks.entries, List.length_map]

theorem added (tracks : Tracks apply blank original changes l items) :
    Tracks apply blank original (changes ++ [.added]) (l.record .added) (items ++ [blank]) := by
  have unused : l.editsOf l.total = [] := by
    unfold Ledger.editsOf
    rw [List.filterMap_eq_nil_iff]
    intro edit member
    rw [if_neg (Nat.ne_of_lt (tracks.aimed edit member))]
  have fresh : l.entry apply blank original l.total = blank := by
    unfold Ledger.entry
    rw [unused, tracks.total, List.getElem?_eq_none (Nat.le_add_right _ _)]
    rfl
  constructor
  · change (l.numbers ++ [l.total]).Sublist (List.range (l.total + 1))
    rw [List.range_succ]
    exact tracks.numbered.append (List.Sublist.refl _)
  · change l.total + 1 = _
    rw [tracks.total, List.countP_append]
    rfl
  · intro edit member
    exact Nat.lt_succ_of_lt (tracks.aimed edit member)
  · change items ++ [blank] = (l.numbers ++ [l.total]).map (l.entry apply blank original)
    rw [List.map_append, ← tracks.entries, List.map_singleton, fresh]
  · have before := tracks.length
    rw [List.countP_append, List.countP_append, List.length_append]
    change items.length + 1 + (_ + 0) = original.length + (_ + 1)
    omega

theorem removed (tracks : Tracks apply blank original changes l items) {index : Nat}
    (inRange : index < items.length) :
    Tracks apply blank original (changes ++ [.removed index]) (l.record (.removed index))
      (items.eraseIdx index) := by
  constructor
  · exact (List.eraseIdx_sublist l.numbers index).trans tracks.numbered
  · rw [List.countP_append]
    exact tracks.total
  · exact tracks.aimed
  · change items.eraseIdx index =
      (l.numbers.eraseIdx index).map (l.entry apply blank original)
    rw [tracks.entries, List.eraseIdx_map]
  · have before := tracks.length
    rw [List.countP_append, List.countP_append, List.length_eraseIdx_of_lt inRange]
    change items.length - 1 + (_ + 1) = original.length + (_ + 0)
    omega

theorem edited (tracks : Tracks apply blank original changes l items) {index : Nat} (edit : ε)
    (inRange : index < items.length) :
    Tracks apply blank original (changes ++ [.edited index edit])
      (l.record (.edited index edit)) (items.modify index (apply edit)) := by
  have here : index < l.numbers.length := tracks.length_eq ▸ inRange
  have recorded : l.record (.edited index edit) = l.noted l.numbers[index] edit := by
    simp [Ledger.record, Ledger.noted, here]
  -- Numbers come once, so the edit is of the entry at the index and of no other.
  have distinct : l.numbers.Nodup := tracks.numbered.nodup List.nodup_range
  rw [recorded]
  constructor
  · exact tracks.numbered
  · rw [List.countP_append]
    exact tracks.total
  · intro noted member
    rcases List.mem_append.mp member with old | new
    · exact tracks.aimed noted old
    · rw [List.mem_singleton.mp new]
      exact List.mem_range.mp (tracks.numbered.subset (List.getElem_mem here))
  · change items.modify index (apply edit) =
      l.numbers.map ((l.noted l.numbers[index] edit).entry apply blank original)
    apply List.ext_getElem
    · rw [List.length_modify, List.length_map, tracks.length_eq]
    · intro j inItems inNumbers
      rw [List.length_map] at inNumbers
      rw [List.length_modify] at inItems
      have entry : items[j] = l.entry apply blank original l.numbers[j] := by
        simp [tracks.entries]
      rw [List.getElem_modify, List.getElem_map, entry]
      split
      · rename_i same
        subst same
        rw [Ledger.entry_noted_self]
      · rename_i other
        rw [Ledger.entry_noted_ne]
        intro same
        exact other ((List.getElem_inj distinct).mp same)
  · have before := tracks.length
    rw [List.countP_append, List.countP_append, List.length_modify]
    exact before

/-- What the ledger gives stays the list under every change of it. -/
theorem step (tracks : Tracks apply blank original changes l items) {change : Change ε}
    (changed : Changes apply blank items change after) :
    Tracks apply blank original (changes ++ [change]) (l.record change) after := by
  cases changed with
  | added => exact tracks.added
  | edited edit inRange => exact tracks.edited edit inRange
  | removed inRange => exact tracks.removed inRange

theorem step_told (tracks : Tracks apply blank original changes
      (Ledger.ofChanges original.length changes) items) {change? : Option (Change ε)}
    (changed : ChangesAsTold apply blank items change? after) :
    Tracks apply blank original (changes ++ change?.toList)
      (Ledger.ofChanges original.length (changes ++ change?.toList)) after := by
  cases changed with
  | kept =>
      rw [Option.toList_none, List.append_nil]
      exact tracks
  | changed changed =>
      rw [Option.toList_some, Ledger.ofChanges_append]
      exact tracks.step changed

/-- The entries that are left of the original ones, in their order, and then those left of the ones
that were added, in theirs. -/
theorem order (tracks : Tracks apply blank original changes l items) :
    ∃ kept added, l.numbers = kept ++ added ∧ kept.Sublist (List.range original.length) ∧
      added.Sublist (List.range' original.length (changes.countP Change.isAdded)) := by
  have numbered := tracks.numbered
  rw [tracks.total, List.range_eq_range', ← List.range'_append_1, Nat.zero_add,
    ← List.range_eq_range'] at numbered
  obtain ⟨kept, added, split, first, second⟩ := List.sublist_append_iff.mp numbered
  exact ⟨kept, added, split, first, second⟩

end Tracks

end GrantConsole
