import Mathlib.Data.List.Count
import GrantConsole.Proofs.Listing.Keyed
import GrantConsole.Proofs.Listing.Run

/-!
# Answers that cross

Saves and deletions are answered in any order. What an answer does depends on the rows with the id
of its record alone, and it changes no others. So two answers about different records come to the
same listing whichever is taken in first, but for the order of rows with different ids; and nothing
that is done with the listing afterwards depends on that order.
-/

namespace GrantConsole.Listing

open GrantConsole.Api

variable {R : Type} [Resource R]

/-! ## The rows under an id -/

/-- The rows that have an id, or those that have none, in their order. -/
def under (key : Option String) (items : List R) : List R :=
  items.filter fun r => Resource.id? r == key

theorem under_append (key : Option String) (before after : List R) :
    under key (before ++ after) = under key before ++ under key after :=
  List.filter_append ..

theorem under_cons_self {key : Option String} {r : R} (own : Resource.id? r = key) (rest : List R) :
    under key (r :: rest) = r :: under key rest :=
  List.filter_cons_of_pos (beq_iff_eq.mpr own)

theorem under_cons_of_ne {key : Option String} {r : R} (other : Resource.id? r ≠ key)
    (rest : List R) : under key (r :: rest) = under key rest :=
  List.filter_cons_of_neg (mt beq_iff_eq.mp other)

theorem under_eq_nil_iff {id : String} {items : List R} :
    under (some id) items = [] ↔ ∀ r ∈ items, hasId id r = false := by
  unfold under
  rw [List.filter_eq_nil_iff]
  exact forall₂_congr fun r _ => iff_of_eq (Bool.not_eq_true (hasId id r))

theorem find?_eq_head?_under (s : Listing R) (id : String) :
    s.find? id = (under (some id) s.items).head? :=
  List.head?_filter.symm

/-- Rows that stand in the same order under each id are the same rows. -/
theorem perm_of_under {first second : List R} (same : ∀ key, under key first = under key second) :
    first.Perm second := by
  classical
  rw [List.perm_iff_count]
  intro r
  have counted (items : List R) : (under (Resource.id? r) items).count r = items.count r :=
    List.count_filter (p := fun other => Resource.id? other == Resource.id? r) (beq_self_eq_true _)
  rw [← counted first, same, counted second]

/-- Saving a record changes rows and count alone. -/
theorem upsert_frame (s : Listing R) (saved : R) :
    s.upsert saved =
      { s with items := (s.upsert saved).items, count := (s.upsert saved).count } := by
  unfold upsert
  cases place? s.items saved <;> rfl

theorem under_upsert_of_ne (s : Listing R) {saved : R} {key : Option String}
    (other : Resource.id? saved ≠ key) : under key (s.upsert saved).items = under key s.items := by
  have added (items : List R) : under key (items ++ [saved]) = under key items := by
    rw [under_append, under_cons_of_ne other]
    exact List.append_nil _
  cases known : Resource.id? saved with
  | none =>
      rw [s.upsert_of_unknown known]
      exact added s.items
  | some id =>
      rcases rows_cases s.items id with absent | ⟨before, row, after, split, has, others⟩
      · rw [s.upsert_of_absent known absent]
        exact added s.items
      · have row_ne : Resource.id? row ≠ key := by
          rw [(hasId_iff id row).mp has, ← known]
          exact other
        rw [s.upsert_of_first known split has others, split, under_append, under_append,
          under_cons_of_ne other, under_cons_of_ne row_ne]

/-- A saved record is the first one under its id. -/
theorem under_upsert_self (s : Listing R) {saved : R} {id : String}
    (known : Resource.id? saved = some id) :
    under (some id) (s.upsert saved).items = saved :: (under (some id) s.items).tail := by
  rcases rows_cases s.items id with absent | ⟨before, row, after, split, has, others⟩
  · rw [s.upsert_of_absent known absent, under_append, under_eq_nil_iff.mpr absent,
      under_cons_self known]
    rfl
  · rw [s.upsert_of_first known split has others, split, under_append, under_append,
      under_eq_nil_iff.mpr others, under_cons_self known,
      under_cons_self ((hasId_iff id row).mp has)]
    rfl

theorem under_upsert_of_unknown (s : Listing R) {saved : R} (unknown : Resource.id? saved = none) :
    under none (s.upsert saved).items = under none s.items ++ [saved] := by
  rw [s.upsert_of_unknown unknown, under_append, under_cons_self unknown]
  rfl

theorem count_upsert (s : Listing R) {saved : R} {id : String}
    (known : Resource.id? saved = some id) :
    (s.upsert saved).count = s.count + if (under (some id) s.items).isEmpty then 1 else 0 := by
  rcases rows_cases s.items id with absent | ⟨before, row, after, split, has, others⟩
  · rw [s.upsert_of_absent known absent, under_eq_nil_iff.mpr absent]
    rfl
  · have present : (under (some id) s.items).isEmpty = false := by
      rw [List.isEmpty_eq_false_iff, split, under_append,
        under_cons_self ((hasId_iff id row).mp has)]
      exact List.append_ne_nil_of_right_ne_nil _ (List.cons_ne_nil _ _)
    rw [s.upsert_of_first known split has others, present]
    exact (Int64.add_zero _).symm

theorem under_finishDelete_of_ne (s : Listing R) {id : String} {key : Option String}
    (other : key ≠ some id) :
    under key (s.finishDelete id (.ok ())).1.items = under key s.items := by
  rw [items_finishDelete, under, under, List.filter_filter]
  apply List.filter_congr
  intro r _
  by_cases own : Resource.id? r = key
  · simp [hasId, own, other]
  · simp [own]

theorem under_finishDelete_self (s : Listing R) (id : String) :
    under (some id) (s.finishDelete id (.ok ())).1.items = [] := by
  rw [under_eq_nil_iff, items_finishDelete]
  intro r member
  exact (Bool.not_eq_true' _).mp (List.mem_filter.mp member).2

theorem count_finishDelete (s : Listing R) (id : String) :
    (s.finishDelete id (.ok ())).1.count =
      s.count + if (under (some id) s.items).isEmpty then 0 else -1 := by
  have counted : (s.finishDelete id (.ok ())).1.count =
      if (s.items.filter fun r => !hasId id r).length < s.items.length then s.count - 1
      else s.count := rfl
  have shrinks : (s.items.filter fun r => !hasId id r).length < s.items.length ↔
      under (some id) s.items ≠ [] := by
    rw [List.length_filter_lt_length_iff_exists, ne_eq, under_eq_nil_iff]
    simp
  rw [counted]
  by_cases absent : under (some id) s.items = []
  · rw [if_neg (fun less => shrinks.mp less absent), absent]
    exact (Int64.add_zero _).symm
  · rw [if_pos (shrinks.mpr absent), List.isEmpty_eq_false_iff.mpr absent]
    exact Int64.sub_eq_add_neg ..

/-! ## Listings that differ in the order of rows alone -/

/-- Two listings that differ at most in how rows with different ids stand to each other. -/
structure Alike (s t : Listing R) : Prop where
  rows : ∀ key, under key s.items = under key t.items
  count : s.count = t.count
  loading : s.loading = t.loading
  error : s.error = t.error
  dialog : s.dialog = t.dialog

namespace Alike

variable {s t : Listing R}

theorem find? (alike : Alike s t) (id : String) : s.find? id = t.find? id := by
  rw [find?_eq_head?_under, find?_eq_head?_under, alike.rows]

theorem perm (alike : Alike s t) : s.items.Perm t.items :=
  perm_of_under alike.rows

theorem retain (alike : Alike s t) (keep : R → Bool) : Alike (s.retain keep) (t.retain keep) := by
  have kept (items : List R) (key : Option String) :
      under key (items.filter keep) = (under key items).filter keep := by
    unfold under
    rw [List.filter_filter, List.filter_filter]
    exact List.filter_congr fun r _ => Bool.and_comm _ _
  refine ⟨fun key => ?_, alike.count, alike.loading, alike.error, alike.dialog⟩
  exact (kept _ key).trans ((congrArg _ (alike.rows key)).trans (kept _ key).symm)

theorem openEdit (alike : Alike s t) (id : String) : Alike (s.openEdit id).1 (t.openEdit id).1 := by
  unfold Listing.openEdit
  rw [alike.find? id]
  cases t.find? id with
  | none => exact alike
  | some row => exact ⟨alike.rows, alike.count, alike.loading, alike.error, rfl⟩

theorem closeDialog (alike : Alike s t) : Alike s.closeDialog t.closeDialog :=
  ⟨alike.rows, alike.count, alike.loading, alike.error, rfl⟩

theorem upsert (alike : Alike s t) (saved : R) : Alike (s.upsert saved) (t.upsert saved) := by
  rw [s.upsert_frame saved, t.upsert_frame saved]
  refine ⟨fun key => ?_, ?_, alike.loading, alike.error, alike.dialog⟩
  · by_cases own : Resource.id? saved = key
    · subst own
      cases known : Resource.id? saved with
      | none => rw [s.under_upsert_of_unknown known, t.under_upsert_of_unknown known, alike.rows]
      | some id => rw [s.under_upsert_self known, t.under_upsert_self known, alike.rows]
    · rw [s.under_upsert_of_ne own, t.under_upsert_of_ne own, alike.rows]
  · cases known : Resource.id? saved with
    | none =>
        rw [s.upsert_of_unknown known, t.upsert_of_unknown known]
        exact congrArg (· + 1) alike.count
    | some id => rw [s.count_upsert known, t.count_upsert known, alike.rows, alike.count]

theorem finishDelete (alike : Alike s t) (id : String) :
    Alike (s.finishDelete id (.ok ())).1 (t.finishDelete id (.ok ())).1 := by
  refine ⟨fun key => ?_, ?_, alike.loading, alike.error, rfl⟩
  · exact (alike.retain fun r => !hasId id r).rows key
  · rw [s.count_finishDelete, t.count_finishDelete, alike.rows, alike.count]

/-- Nothing that is done with a listing depends on how rows with different ids stand. -/
theorem act (alike : Alike s t) (action : Action R) : Alike (s.act action) (t.act action) := by
  cases action with
  | beginLoad => exact ⟨alike.rows, alike.count, rfl, rfl, alike.dialog⟩
  | finishLoad result =>
      cases result with
      | error failure => exact ⟨alike.rows, alike.count, rfl, rfl, alike.dialog⟩
      | ok page => exact ⟨fun _ => rfl, rfl, rfl, alike.error, alike.dialog⟩
  | retain keep => exact alike.retain keep
  | openCreate draft => exact ⟨alike.rows, alike.count, alike.loading, alike.error, rfl⟩
  | openEdit id => exact alike.openEdit id
  | openDelete id => exact ⟨alike.rows, alike.count, alike.loading, alike.error, rfl⟩
  | closeDialog => exact alike.closeDialog
  | editDraft f =>
      exact ⟨alike.rows, alike.count, alike.loading, alike.error,
        congrArg (Dialog.mapDraft f) alike.dialog⟩
  | upsert saved => exact alike.upsert saved
  | finishSave result =>
      cases result with
      | error failure => exact alike
      | ok saved => exact (alike.upsert saved).closeDialog
  | finishDelete id result =>
      cases result with
      | error failure => exact alike.closeDialog
      | ok done => exact alike.finishDelete id

theorem run (alike : Alike s t) (actions : List (Action R)) :
    Alike (s.run actions) (t.run actions) := by
  induction actions generalizing s t with
  | nil => exact alike
  | cons action later ih => exact ih (alike.act action)

end Alike

/-! ## Answers about one record -/

/-- The action takes in a success about the record with an id. -/
inductive About (id : String) : Action R → Prop
  | upserted {saved : R} (known : Resource.id? saved = some id) : About id (.upsert saved)
  | saved {saved : R} (known : Resource.id? saved = some id) : About id (.finishSave (.ok saved))
  | deleted : About id (.finishDelete id (.ok ()))

/-- What an action does that is about an id: it changes the rows under the id and moves the count by
what those rows say, and it leaves the dialog or closes it. -/
structure ActsUnder (id : String) (action : Action R) : Prop where
  own : ∃ change : List R → List R, ∀ s : Listing R,
    under (some id) (s.act action).items = change (under (some id) s.items)
  others : ∀ (s : Listing R) (key : Option String), key ≠ some id →
    under key (s.act action).items = under key s.items
  count : ∃ more : List R → Int64, ∀ s : Listing R,
    (s.act action).count = s.count + more (under (some id) s.items)
  loading : ∀ s : Listing R, (s.act action).loading = s.loading
  error : ∀ s : Listing R, (s.act action).error = s.error
  dialog : (∀ s : Listing R, (s.act action).dialog = s.dialog) ∨
    ∀ s : Listing R, (s.act action).dialog = .closed

theorem About.actsUnder {id : String} {action : Action R} (about : About id action) :
    ActsUnder id action := by
  have upserts {saved : R} (known : Resource.id? saved = some id) :
      ActsUnder id (.upsert saved) := by
    constructor
    case own => exact ⟨fun rows => saved :: rows.tail, fun s => s.under_upsert_self known⟩
    case others =>
      intro s key other
      exact s.under_upsert_of_ne fun same => other (same.symm.trans known)
    case count =>
      exact ⟨fun rows => if rows.isEmpty then 1 else 0, fun s => s.count_upsert known⟩
    case loading => exact fun s => (congrArg Listing.loading (s.upsert_frame saved) :)
    case error => exact fun s => (congrArg Listing.error (s.upsert_frame saved) :)
    case dialog => exact .inl fun s => (congrArg Listing.dialog (s.upsert_frame saved) :)
  cases about with
  | upserted known => exact upserts known
  | saved known =>
      obtain ⟨own, others, count, loading, error, -⟩ := upserts known
      exact ⟨own, others, count, loading, error, .inr fun _ => rfl⟩
  | deleted =>
      constructor
      case own => exact ⟨fun _ => [], fun s => s.under_finishDelete_self id⟩
      case others => exact fun s key other => s.under_finishDelete_of_ne other
      case count =>
        exact ⟨fun rows => if rows.isEmpty then 0 else -1, fun s => s.count_finishDelete id⟩
      case loading => exact fun _ => rfl
      case error => exact fun _ => rfl
      case dialog => exact .inr fun _ => rfl

/-- Two actions that are about different ids come to listings that are alike in either order. -/
theorem ActsUnder.alike {a b : String} {first second : Action R} (one : ActsUnder a first)
    (other : ActsUnder b second) (apart : a ≠ b) (s : Listing R) :
    Alike ((s.act first).act second) ((s.act second).act first) := by
  have a_ne_b : some a ≠ some b := fun same => apart (Option.some.inj same)
  constructor
  case rows =>
    intro key
    by_cases isA : key = some a
    · subst isA
      obtain ⟨change, own⟩ := one.own
      rw [other.others _ _ a_ne_b, own, own, other.others _ _ a_ne_b]
    · by_cases isB : key = some b
      · subst isB
        obtain ⟨change, own⟩ := other.own
        rw [own, one.others _ _ isA, one.others _ _ isA, own]
      · rw [other.others _ _ isB, one.others _ _ isA, one.others _ _ isA, other.others _ _ isB]
  case count =>
    obtain ⟨moreOfA, ofA⟩ := one.count
    obtain ⟨moreOfB, ofB⟩ := other.count
    rw [ofB, ofA, ofA, ofB, one.others _ _ a_ne_b.symm, other.others _ _ a_ne_b]
    ac_rfl
  case loading => rw [other.loading, one.loading, one.loading, other.loading]
  case error => rw [other.error, one.error, one.error, other.error]
  case dialog =>
    rcases one.dialog with keeps | closes <;> rcases other.dialog with keeps' | closes'
    · rw [keeps', keeps, keeps, keeps']
    · rw [closes', keeps, closes']
    · rw [keeps', closes, closes]
    · rw [closes', closes]

/-- Answers about different records may be taken in in either order: the count, the record found
under each id, the dialog and the rows, but for their order, are the same, and they stay so whatever
is done with the listing later. -/
theorem answers_cross (s : Listing R) {a b : String} (apart : a ≠ b) {first second : Action R}
    (one : About a first) (other : About b second) (later : List (Action R)) :
    let forth := s.run (first :: second :: later)
    let back := s.run (second :: first :: later)
    forth.count = back.count ∧ (∀ id, forth.find? id = back.find? id) ∧
      forth.items.Perm back.items ∧ forth.dialog = back.dialog ∧
      forth.loading = back.loading ∧ forth.error = back.error := by
  have alike : Alike (s.run (first :: second :: later)) (s.run (second :: first :: later)) :=
    (one.actsUnder.alike other.actsUnder apart s).run later
  exact ⟨alike.count, alike.find?, alike.perm, alike.dialog, alike.loading, alike.error⟩

/-- Two users are made, and later one is deleted who has two rows. -/
theorem answers_cross_users :
    let s : Listing User :=
      { items := [{ id := "u-1" }, { email := "new" }, { id := "u-2" }, { id := "u-2" }],
        count := 4 }
    let first : Action User := .finishSave (.ok { id := "u-3" })
    let second : Action User := .upsert { id := "u-4" }
    let later : List (Action User) := [.finishDelete "u-2" (.ok ()), .openEdit "u-4"]
    "u-3" ≠ "u-4" ∧ About "u-3" first ∧ About "u-4" second ∧
      (s.run (first :: second :: later)).items =
        [{ id := "u-1" }, { email := "new" }, { id := "u-3" }, { id := "u-4" }] ∧
      (s.run (second :: first :: later)).items =
        [{ id := "u-1" }, { email := "new" }, { id := "u-4" }, { id := "u-3" }] ∧
      (s.run (first :: second :: later)).count = 5 ∧
      (s.run (second :: first :: later)).count = 5 ∧
      (s.run (second :: first :: later)).dialog = .edit { id := "u-4" } := by
  intro s first second later
  have apart : "u-3" ≠ "u-4" := by decide
  have one : About "u-3" first := .saved rfl
  have other : About "u-4" second := .upserted rfl
  obtain ⟨count, -, -, dialog, -⟩ := answers_cross s apart one other later
  refine ⟨apart, one, other, by decide, by decide, by decide, ?_, ?_⟩
  · exact count.symm.trans (by decide)
  · exact dialog.symm.trans (by decide)

end GrantConsole.Listing
