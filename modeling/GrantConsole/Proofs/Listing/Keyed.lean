import GrantConsole.Listing.Basic
import GrantConsole.Proofs.Lookup

/-!
# Listings as maps by id

The rows of a listing that have an id make up a map that keeps its keys in the order in which they
came. Saving a record puts it under its id, deleting one drops its id, and rows without an id stand
where they are.
-/

namespace GrantConsole.Listing

variable {R : Type}

/-! ## Maps that keep the order of their keys -/

/-- Puts a record under an id: in the place of the one that is there, or after all others. -/
def put (id : String) (r : R) : List (String × R) → List (String × R)
  | [] => [(id, r)]
  | (key, old) :: rest => if key = id then (id, r) :: rest else (key, old) :: put id r rest

/-- Drops the record under an id. -/
def drop (id : String) (entries : List (String × R)) : List (String × R) :=
  entries.filter fun entry => entry.1 != id

theorem put_append_of_absent {id : String} {before : List (String × R)}
    (absent : ∀ entry ∈ before, entry.1 ≠ id) (r : R) (after : List (String × R)) :
    put id r (before ++ after) = before ++ put id r after := by
  induction before with
  | nil => rfl
  | cons entry rest ih =>
      rw [List.cons_append, put, if_neg (absent entry List.mem_cons_self),
        ih fun entry member => absent entry (List.mem_cons_of_mem _ member), List.cons_append]

theorem lookup_put (id other : String) (r : R) (entries : List (String × R)) :
    (put id r entries).lookup other = if other = id then some r else entries.lookup other := by
  induction entries with
  | nil => exact lookup_cons_eq_ite id other r []
  | cons entry rest ih =>
      obtain ⟨key, old⟩ := entry
      unfold put
      split
      · rename_i same
        subst same
        simp only [lookup_cons_eq_ite]
        split <;> rfl
      · simp only [lookup_cons_eq_ite, ih]
        grind

theorem lookup_drop (id other : String) (entries : List (String × R)) :
    (drop id entries).lookup other = if other = id then none else entries.lookup other :=
  lookup_filter_ne id other entries

/-- A key keeps its place; a new one comes last. -/
theorem keys_put (id : String) (r : R) (entries : List (String × R)) :
    (put id r entries).map Prod.fst =
      if id ∈ entries.map Prod.fst then entries.map Prod.fst
      else entries.map Prod.fst ++ [id] := by
  induction entries with
  | nil => rfl
  | cons entry rest ih =>
      obtain ⟨key, old⟩ := entry
      unfold put
      split
      · rename_i same
        simp [same]
      · rename_i different
        simp only [List.map_cons, ih, List.mem_cons, Ne.symm different, false_or]
        split <;> simp

theorem nodup_keys_put {id : String} {entries : List (String × R)}
    (distinct : (entries.map Prod.fst).Nodup) (r : R) :
    ((put id r entries).map Prod.fst).Nodup := by
  rw [keys_put]
  split
  · exact distinct
  · rename_i fresh
    rw [List.nodup_append]
    refine ⟨distinct, List.pairwise_singleton _ id, ?_⟩
    intro key old other new same
    rw [List.mem_singleton] at new
    exact fresh (new ▸ same ▸ old)

variable [Resource R]

/-! ## Rows by id -/

/-- The ids of rows, in the order of the rows. -/
def ids (items : List R) : List String :=
  items.filterMap Resource.id?

/-- No two rows have the same id. -/
def DistinctIds (items : List R) : Prop :=
  (ids items).Nodup

theorem hasId_iff (id : String) (r : R) : hasId id r = true ↔ Resource.id? r = some id := by
  unfold hasId
  exact beq_iff_eq

theorem hasId_eq_false_iff (id : String) (r : R) :
    hasId id r = false ↔ Resource.id? r ≠ some id := by
  rw [← Bool.not_eq_true, hasId_iff]

/-- An id belongs to no row, or there is a first row that has it. -/
theorem rows_cases (items : List R) (id : String) :
    (∀ r ∈ items, hasId id r = false) ∨
    ∃ before row after, items = before ++ row :: after ∧ hasId id row = true ∧
      ∀ r ∈ before, hasId id r = false := by
  cases found : items.find? (hasId id) with
  | none =>
      left
      intro r member
      exact Bool.not_eq_true _ ▸ List.find?_eq_none.mp found r member
  | some row =>
      right
      obtain ⟨has, before, after, split, others⟩ := List.find?_eq_some_iff_append.mp found
      refine ⟨before, row, after, split, has, ?_⟩
      intro r member
      exact (Bool.not_eq_true' _).mp (others r member)

theorem find?_of_absent {items : List R} {id : String} (absent : ∀ r ∈ items, hasId id r = false) :
    items.find? (hasId id) = none := by
  rw [List.find?_eq_none]
  intro r member
  rw [absent r member]
  exact Bool.false_ne_true

theorem find?_of_first {before after : List R} {row : R} {id : String}
    (has : hasId id row = true) (others : ∀ r ∈ before, hasId id r = false) :
    (before ++ row :: after).find? (hasId id) = some row := by
  rw [List.find?_append, find?_of_absent others, Option.none_or, List.find?_cons_of_pos has]

theorem place?_of_absent {items : List R} {saved : R} {id : String}
    (known : Resource.id? saved = some id) (absent : ∀ r ∈ items, hasId id r = false) :
    place? items saved = none := by
  unfold place?
  rw [known]
  exact List.findIdx?_eq_none_iff.mpr absent

theorem place?_of_first {before after : List R} {row saved : R} {id : String}
    (known : Resource.id? saved = some id) (has : hasId id row = true)
    (others : ∀ r ∈ before, hasId id r = false) :
    place? (before ++ row :: after) saved = some before.length := by
  unfold place?
  rw [known]
  simp only [List.findIdx?_append, List.findIdx?_eq_none_iff.mpr others, List.findIdx?_cons, has]
  simp

/-! ## The map of the rows -/

/-- The rows that have an id, under their ids. -/
def keyed (items : List R) : List (String × R) :=
  items.filterMap fun r => (Resource.id? r).map fun id => (id, r)

theorem keyed_append (before after : List R) :
    keyed (before ++ after) = keyed before ++ keyed after :=
  List.filterMap_append

theorem keyed_cons_of_known {r : R} {id : String} (known : Resource.id? r = some id)
    (rest : List R) : keyed (r :: rest) = (id, r) :: keyed rest := by
  unfold keyed
  rw [List.filterMap_cons_some (by rw [known, Option.map_some])]

theorem keyed_cons_of_unknown {r : R} (unknown : Resource.id? r = none) (rest : List R) :
    keyed (r :: rest) = keyed rest := by
  unfold keyed
  rw [List.filterMap_cons_none (by rw [unknown, Option.map_none])]

theorem keys_keyed (items : List R) : (keyed items).map Prod.fst = ids items := by
  unfold keyed ids
  rw [List.map_filterMap]
  congr 1
  funext r
  cases Resource.id? r <;> rfl

theorem keyed_absent {items : List R} {id : String} (absent : ∀ r ∈ items, hasId id r = false) :
    ∀ entry ∈ keyed items, entry.1 ≠ id := by
  intro entry member same
  obtain ⟨r, present, known⟩ := List.mem_filterMap.mp member
  obtain ⟨key, found, pair⟩ := Option.map_eq_some_iff.mp known
  have key : Resource.id? r = some id := by
    rw [found, ← same, ← pair]
  exact (hasId_eq_false_iff id r).mp (absent r present) key

theorem find?_eq_lookup (items : List R) (id : String) :
    items.find? (hasId id) = (keyed items).lookup id := by
  induction items with
  | nil => rfl
  | cons r rest ih =>
      cases known : Resource.id? r with
      | none =>
          have other : hasId id r = false := (hasId_eq_false_iff id r).mpr (by simp [known])
          rw [keyed_cons_of_unknown known, List.find?_cons_of_neg (by simp [other]), ih]
      | some key =>
          rw [keyed_cons_of_known known, List.lookup_cons, List.find?_cons, ih]
          have test : hasId id r = (id == key) := by
            rw [Bool.eq_iff_iff, hasId_iff, known, beq_iff_eq, Option.some.injEq, eq_comm]
          rw [test]

theorem keyed_filter (keep : R → Bool) (items : List R) :
    keyed (items.filter keep) = (keyed items).filter fun entry => keep entry.2 := by
  unfold keyed
  rw [List.filterMap_filter, List.filter_filterMap]
  congr 1
  funext r
  cases Resource.id? r <;> cases kept : keep r <;> simp [Option.filter, kept]

theorem keyed_filter_hasId (id : String) (items : List R) :
    keyed (items.filter fun r => !hasId id r) = drop id (keyed items) := by
  unfold keyed drop
  rw [List.filterMap_filter, List.filter_filterMap]
  congr 1
  funext r
  cases known : Resource.id? r with
  | none => simp [hasId, known]
  | some key => by_cases same : key = id <;> simp [hasId, known, same, Option.filter]

/-! ## Changes of the rows -/

/-- A record without an id becomes the last row. -/
theorem upsert_of_unknown (s : Listing R) {saved : R} (unknown : Resource.id? saved = none) :
    s.upsert saved = { s with items := s.items ++ [saved], count := s.count + 1 } := by
  unfold upsert place?
  rw [unknown]

/-- A record with a new id becomes the last row. -/
theorem upsert_of_absent (s : Listing R) {saved : R} {id : String}
    (known : Resource.id? saved = some id) (absent : ∀ r ∈ s.items, hasId id r = false) :
    s.upsert saved = { s with items := s.items ++ [saved], count := s.count + 1 } := by
  unfold upsert
  rw [place?_of_absent known absent]

/-- A record takes the place of the row with its id. -/
theorem upsert_of_first (s : Listing R) {saved row : R} {id : String} {before after : List R}
    (known : Resource.id? saved = some id) (split : s.items = before ++ row :: after)
    (has : hasId id row = true) (others : ∀ r ∈ before, hasId id r = false) :
    s.upsert saved = { s with items := before ++ saved :: after } := by
  unfold upsert
  rw [split, place?_of_first known has others]
  simp

theorem keyed_upsert_of_unknown (s : Listing R) {saved : R}
    (unknown : Resource.id? saved = none) : keyed (s.upsert saved).items = keyed s.items := by
  rw [s.upsert_of_unknown unknown, keyed_append, keyed_cons_of_unknown unknown]
  exact List.append_nil _

theorem keyed_upsert (s : Listing R) {saved : R} {id : String}
    (known : Resource.id? saved = some id) :
    keyed (s.upsert saved).items = put id saved (keyed s.items) := by
  rcases rows_cases s.items id with absent | ⟨before, row, after, split, has, others⟩
  · rw [s.upsert_of_absent known absent, keyed_append, keyed_cons_of_known known]
    have last := put_append_of_absent (keyed_absent absent) saved []
    rw [List.append_nil] at last
    exact last.symm
  · rw [s.upsert_of_first known split has others, split, keyed_append, keyed_append,
      keyed_cons_of_known known, keyed_cons_of_known ((hasId_iff id row).mp has),
      put_append_of_absent (keyed_absent others), put, if_pos rfl]

theorem find?_upsert (s : Listing R) {saved : R} {id : String}
    (known : Resource.id? saved = some id) (other : String) :
    (s.upsert saved).find? other = if other = id then some saved else s.find? other := by
  unfold find?
  rw [find?_eq_lookup, find?_eq_lookup, s.keyed_upsert known, lookup_put]

theorem items_finishDelete (s : Listing R) (id : String) :
    (s.finishDelete id (.ok ())).1.items = s.items.filter fun r => !hasId id r :=
  rfl

theorem find?_finishDelete (s : Listing R) (id other : String) :
    (s.finishDelete id (.ok ())).1.find? other = if other = id then none else s.find? other := by
  unfold find?
  rw [find?_eq_lookup, find?_eq_lookup, items_finishDelete, keyed_filter_hasId, lookup_drop]

theorem distinctIds_iff (items : List R) :
    DistinctIds items ↔ ((keyed items).map Prod.fst).Nodup := by
  unfold DistinctIds
  rw [keys_keyed]

theorem DistinctIds.upsert {s : Listing R} (distinct : DistinctIds s.items) (saved : R) :
    DistinctIds (s.upsert saved).items := by
  rw [distinctIds_iff] at distinct ⊢
  cases known : Resource.id? saved with
  | none =>
      rw [s.keyed_upsert_of_unknown known]
      exact distinct
  | some id =>
      rw [s.keyed_upsert known]
      exact nodup_keys_put distinct saved

theorem DistinctIds.filter {items : List R} (distinct : DistinctIds items) (keep : R → Bool) :
    DistinctIds (items.filter keep) :=
  List.Nodup.sublist (List.filter_sublist.filterMap _) distinct

/-- Where no two rows have the same id, just the one row with an id goes. -/
theorem filter_hasId_of_distinct {before after : List R} {row : R} {id : String}
    (distinct : DistinctIds (before ++ row :: after)) (has : hasId id row = true)
    (others : ∀ r ∈ before, hasId id r = false) :
    (before ++ row :: after).filter (fun r => !hasId id r) = before ++ after := by
  have absent : ∀ r ∈ after, hasId id r = false := by
    intro r member
    rw [hasId_eq_false_iff]
    intro known
    rw [distinctIds_iff, keyed_append, keyed_cons_of_known ((hasId_iff id row).mp has),
      List.map_append, List.map_cons] at distinct
    have fresh := (List.nodup_cons.mp (List.nodup_append.mp distinct).2.1).1
    rw [keys_keyed] at fresh
    exact fresh (List.mem_filterMap.mpr ⟨r, member, known⟩)
  have keeps (items : List R) (none : ∀ r ∈ items, hasId id r = false) :
      items.filter (fun r => !hasId id r) = items := by
    rw [List.filter_eq_self]
    intro r member
    rw [none r member]
    rfl
  rw [List.filter_append, List.filter_cons_of_neg (by simp [has]), keeps before others,
    keeps after absent]

end GrantConsole.Listing
