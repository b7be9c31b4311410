import GrantConsole.Proofs.Listing.Keyed
import GrantConsole.Proofs.Listing.Run

/-!
# The rows of a listing

From a page without doubled ids on, whatever is done with a listing, its rows stay a map by id that
keeps its order: a saved record takes the place of its row or becomes the last one, a deleted one
leaves, and a failure moves nothing.
-/

namespace GrantConsole.Listing

open GrantConsole.Api

variable {R : Type} [Resource R]

theorem DistinctIds.act {s : Listing R} (distinct : DistinctIds s.items) {action : Action R}
    (own : action.loadsPage = false) : DistinctIds (s.act action).items := by
  have rows := rowsAfter_act s action
  -- The index of `rows` has to be a variable for the cases on it.
  generalize (s.act action).items = items at rows
  cases rows with
  | retained keep => exact distinct.filter keep
  | upserted saved => exact distinct.upsert saved
  | saved saved => exact distinct.upsert saved
  | deleted id => exact distinct.filter _
  | loaded page => cases own
  | kept => exact distinct

/-- What saving a record does to the rows. -/
structure SavedInPlace (s after : Listing R) (saved : R) : Prop where
  map : ∀ id, Resource.id? saved = some id → keyed after.items = put id saved (keyed s.items)
  find : ∀ id, Resource.id? saved = some id →
    ∀ other, after.find? other = if other = id then some saved else s.find? other
  replaced : ∀ id row, Resource.id? saved = some id → s.find? id = some row →
    ∃ first last, s.items = first ++ row :: last ∧ after.items = first ++ saved :: last
  appended : ∀ id, Resource.id? saved = some id → s.find? id = none →
    after.items = s.items ++ [saved]
  unkeyed : Resource.id? saved = none → after.items = s.items ++ [saved]

/-- What deleting the record with an id does to the rows. -/
structure DeletedRow (s after : Listing R) (id : String) : Prop where
  map : keyed after.items = drop id (keyed s.items)
  find : ∀ other, after.find? other = if other = id then none else s.find? other
  others : after.items = s.items.filter fun r => Resource.id? r ≠ some id
  single : ∀ row, s.find? id = some row →
    ∃ first last, s.items = first ++ row :: last ∧ after.items = first ++ last
  absent : s.find? id = none → after.items = s.items

/-- The rows of a listing are a map by id, and every way to change them is one of the map. -/
structure MapById (s : Listing R) : Prop where
  distinct : DistinctIds s.items
  find : ∀ id, s.find? id = (keyed s.items).lookup id
  upsert : ∀ saved, SavedInPlace s (s.upsert saved) saved
  save : ∀ saved, SavedInPlace s (s.finishSave (.ok saved)).1 saved
  delete : ∀ id, DeletedRow s (s.finishDelete id (.ok ())).1 id
  retain : ∀ keep, keyed (s.retain keep).items = (keyed s.items).filter fun entry => keep entry.2
  failedSave : ∀ failure, (s.finishSave (.error failure)).1 = s
  failedDelete : ∀ id failure, (s.finishDelete id (.error failure)).1.items = s.items ∧
    (s.finishDelete id (.error failure)).1.count = s.count
  failedLoad : ∀ failure, (s.finishLoad (.error failure)).items = s.items ∧
    (s.finishLoad (.error failure)).count = s.count

theorem find?_eq_some_split {s : Listing R} {id : String} {row : R} (found : s.find? id = some row) :
    ∃ first last, s.items = first ++ row :: last ∧ hasId id row = true ∧
      ∀ r ∈ first, hasId id r = false := by
  rcases rows_cases s.items id with absent | ⟨first, row', last, split, has, others⟩
  · rw [find?, find?_of_absent absent] at found
    cases found
  · rw [find?, split, find?_of_first has others] at found
    obtain rfl := Option.some.inj found
    exact ⟨first, last, split, has, others⟩

theorem absent_of_find?_eq_none {s : Listing R} {id : String} (missing : s.find? id = none) :
    ∀ r ∈ s.items, hasId id r = false := by
  intro r member
  rw [← Bool.not_eq_true]
  exact List.find?_eq_none.mp missing r member

theorem savedInPlace_upsert (s : Listing R) (saved : R) :
    SavedInPlace s (s.upsert saved) saved where
  map := fun _ known => s.keyed_upsert known
  find := fun _ known => s.find?_upsert known
  replaced := by
    intro id row known found
    obtain ⟨first, last, split, has, others⟩ := find?_eq_some_split found
    exact ⟨first, last, split, by rw [s.upsert_of_first known split has others]⟩
  appended := by
    intro id known missing
    rw [s.upsert_of_absent known (absent_of_find?_eq_none missing)]
  unkeyed := by
    intro unknown
    rw [s.upsert_of_unknown unknown]

theorem deletedRow_finishDelete {s : Listing R} (distinct : DistinctIds s.items) (id : String) :
    DeletedRow s (s.finishDelete id (.ok ())).1 id where
  map := keyed_filter_hasId id s.items
  find := s.find?_finishDelete id
  others := by
    rw [items_finishDelete]
    congr 1
    funext r
    rw [Bool.eq_iff_iff]
    simp [hasId]
  single := by
    intro row found
    obtain ⟨first, last, split, has, others⟩ := find?_eq_some_split found
    refine ⟨first, last, split, ?_⟩
    rw [items_finishDelete, split]
    exact filter_hasId_of_distinct (split ▸ distinct) has others
  absent := by
    intro missing
    rw [items_finishDelete, List.filter_eq_self]
    intro r member
    rw [absent_of_find?_eq_none missing r member]
    rfl

theorem mapById_of_distinct {s : Listing R} (distinct : DistinctIds s.items) : MapById s where
  distinct := distinct
  find := find?_eq_lookup s.items
  upsert := savedInPlace_upsert s
  save := fun saved =>
    have inPlace := savedInPlace_upsert s saved
    ⟨inPlace.map, inPlace.find, inPlace.replaced, inPlace.appended, inPlace.unkeyed⟩
  delete := deletedRow_finishDelete distinct
  retain := fun keep => keyed_filter keep s.items
  failedSave := fun _ => rfl
  failedDelete := fun _ _ => ⟨rfl, rfl⟩
  failedLoad := fun _ => ⟨rfl, rfl⟩

/-- After a page without doubled ids, every run of a listing keeps a map by id. -/
theorem mapById_run (before : Listing R) {page : Page R} (distinct : DistinctIds page.items)
    {actions : List (Action R)} (own : ∀ action ∈ actions, action.loadsPage = false) :
    MapById ((before.finishLoad (.ok page)).run actions) := by
  apply mapById_of_distinct
  apply run_induction (motive := fun s => DistinctIds s.items)
  · exact distinct
  · intro s action member held
    exact held.act (own action member)

/-- A saved user takes the row of the user, and a user without an id stays when another leaves. -/
theorem mapById_run_users :
    let page : Page User :=
      { items := [{ id := "u-1" }, { email := "new" }, { id := "u-2" }], count := 3 }
    let saved : User := { id := "u-1", email := "first" }
    let actions : List (Action User) :=
      [.openDelete "u-2", .finishDelete "u-2" (.ok ()), .finishSave (.ok saved),
        .finishLoad (.error .unavailable), .upsert { id := "u-3" }]
    DistinctIds page.items ∧ (∀ action ∈ actions, action.loadsPage = false) ∧
      ((({} : Listing User).finishLoad (.ok page)).run actions).items =
        [saved, { email := "new" }, { id := "u-3" }] ∧
      MapById ((({} : Listing User).finishLoad (.ok page)).run actions) := by
  intro page saved actions
  have distinct : DistinctIds page.items := by
    unfold DistinctIds
    decide
  have own : ∀ action ∈ actions, action.loadsPage = false := by
    simp [actions, Action.loadsPage]
  exact ⟨distinct, own, by decide, mapById_run {} distinct own⟩

end GrantConsole.Listing
