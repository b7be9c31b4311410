import GrantConsole.Proofs.Host.Relayed
import GrantConsole.Proofs.Url.Segments
import Mathlib.Data.List.TakeWhile

/-!
# The path of a record

The id of a record is the last segment of its path. Encoded, it holds no slash and no mark, so that
the path stays as it is when it is brought into normal form, by a browser or by anything else that
sends requests. Two ids are excepted, since dots are not encoded: a single dot leads to the
collection, and two dots lead to what is above it.
-/

namespace GrantConsole.Url

/-! ## Encoded segments -/

/-- No character of an encoded text is changed in a path, and none of them parts it. -/
theorem plain_encode (s : String) :
    ∀ c ∈ (encode s).toList, isPathReserved c = false ∧ isWebSlash c = false := by
  intro c mem
  rcases mem_encode mem with plain | rfl
  · exact isPathReserved_of_isUnreserved plain
  · decide

/-- The encoded text is taken for a place near it only if the text is one of dots. -/
theorem ofChars_encode (s : String) :
    Segment.ofChars (encode s).toList =
      if s = "." then .here else if s = ".." then .above else .name (encode s).toList := by
  have told : decode? (String.ofList (encode s).toList) = some s := by
    rw [String.ofList_toList, decode?_encode]
  split
  · rename_i one
    rw [one]
    rfl
  · rename_i one
    split
    · rename_i two
      rw [two]
      rfl
    · rename_i two
      rcases segment_cases (encode s).toList with here | above | names
      · exact absurd (Option.some.inj (told.symm.trans (decode?_of_here here))) one
      · exact absurd (Option.some.inj (told.symm.trans (decode?_of_above above))) two
      · rw [names, encodeReserved_of_free fun c mem => (plain_encode s c mem).1]

theorem toList_encode_eq_iff {w : String} (plain : encode w = w) (s : String) :
    (encode s).toList = w.toList ↔ s = w := by
  refine ⟨fun same => ?_, fun same => by rw [same, plain]⟩
  have encoded : encode s = encode w := (String.toList_injective same).trans plain.symm
  have told := decode?_encode s
  rw [encoded, decode?_encode] at told
  exact (Option.some.inj told).symm

end GrantConsole.Url

namespace GrantConsole.Api

open GrantConsole.Url

/-! ## Paths of records -/

/-- A segment that is the same in every normal form. -/
structure Fixed (segment : List Char) : Prop where
  names : Segment.ofChars segment = .name segment
  whole : ∀ c ∈ segment, isWebSlash c = false

theorem Fixed.encoded {segment : List Char} (fixed : Fixed segment) :
    NamesSegment segment ∧ encodeReserved isPathReserved segment = segment := by
  rcases segment_cases segment with here | above | names
  · cases here.symm.trans fixed.names
  · cases above.symm.trans fixed.names
  · exact ⟨names, Segment.name.inj (names.symm.trans fixed.names)⟩

theorem Fixed.noDots {segment : List Char} (fixed : Fixed segment) : NoDots segment :=
  noDots_of_names (fun slash => by cases fixed.whole '/' slash) fixed.encoded.1

/-- The segments of the base path. -/
def baseSegments : List (List Char) :=
  ["api".toList, "v1".toList]

theorem fixed_baseSegments : ∀ s ∈ baseSegments, Fixed s := by
  rw [baseSegments, List.forall_mem_cons, List.forall_mem_singleton]
  exact ⟨⟨rfl, free_of_any rfl⟩, ⟨rfl, free_of_any rfl⟩⟩

/-- The path of a collection is its name under the base path, with a slash after it. -/
theorem Served.collection_path {R : Type} [Resource R] (served : Served R) :
    ∃ name, Fixed name ∧ isDrive name = false ∧
      (Endpoint.collection R).toList = pathText (baseSegments ++ [name]) ++ ['/'] := by
  cases served with
  | grant => exact ⟨"grants".toList, ⟨rfl, free_of_any rfl⟩, rfl, by decide⟩
  | expense => exact ⟨"grant-expenses".toList, ⟨rfl, free_of_any rfl⟩, rfl, by decide⟩
  | approval => exact ⟨"grant-approvals".toList, ⟨rfl, free_of_any rfl⟩, rfl, by decide⟩
  | category => exact ⟨"grant-categories".toList, ⟨rfl, free_of_any rfl⟩, rfl, by decide⟩
  | role => exact ⟨"grant-roles".toList, ⟨rfl, free_of_any rfl⟩, rfl, by decide⟩
  | rule => exact ⟨"rules".toList, ⟨rfl, free_of_any rfl⟩, rfl, by decide⟩
  | user => exact ⟨"users".toList, ⟨rfl, free_of_any rfl⟩, rfl, by decide⟩

/-- What becomes of the path of a record when dot segments are resolved. -/
def resolvedItem (R : Type) [Resource R] (id : String) : String :=
  if id = "." then Endpoint.collection R
  else if id = ".." then basePath ++ "/"
  else Endpoint.item R id

variable {R : Type} [Resource R]

theorem item_ne_collection {id : String} (some : id ≠ "") :
    Endpoint.item R id ≠ Endpoint.collection R := by
  intro same
  have lengths := congrArg String.length same
  rw [Endpoint.item, String.length_append] at lengths
  have none : (encode id).toList = "".toList :=
    String.toList_eq_nil_iff.mpr (String.length_eq_zero_iff.mp (by omega))
  exact some ((toList_encode_eq_iff (by decide) id).mp none)

section Served

variable (served : Served R) (id : String)

include served

/-- The path of a record is its segments, of which the last one is its id. -/
theorem Served.item_path : ∃ name, Fixed name ∧ isDrive name = false ∧
    (Endpoint.collection R).toList = pathText (baseSegments ++ [name]) ++ ['/'] ∧
    (Endpoint.item R id).toList = pathText (baseSegments ++ [name] ++ [(encode id).toList]) := by
  obtain ⟨name, fixed, noDrive, path⟩ := served.collection_path
  refine ⟨name, fixed, noDrive, path, ?_⟩
  rw [Endpoint.item, String.toList_append, path, pathText_append _ [(encode id).toList]]
  simp

theorem normalPath_item : normalPath (Endpoint.item R id).toList = resolvedItem R id := by
  obtain ⟨name, fixed, noDrive, collection, path⟩ := served.item_path id
  have fixed : ∀ s ∈ baseSegments ++ [name], Fixed s := by
    rw [List.forall_mem_append, List.forall_mem_singleton]
    exact ⟨fixed_baseSegments, fixed⟩
  have same : (baseSegments ++ [name]).map (encodeReserved isPathReserved) =
      baseSegments ++ [name] :=
    (List.map_congr_left fun s mem => (fixed s mem).encoded.2).trans (List.map_id _)
  have free : ∀ s ∈ baseSegments ++ [name] ++ [(encode id).toList],
      ∀ c ∈ s, isWebSlash c = false := by
    rw [List.forall_mem_append, List.forall_mem_singleton]
    exact ⟨fun s mem => (fixed s mem).whole, fun c mem => (plain_encode id c mem).2⟩
  have above : (dropLastSegment (baseSegments ++ [name]).reverse).reverse = baseSegments := by
    rw [List.reverse_append, List.reverse_singleton, List.singleton_append, dropLastSegment,
      noDrive]
    rfl
  have slash : isWebSlash '/' = true := rfl
  have normal := normalPathBy_concat slash free fun s mem => (fixed s mem).encoded.1
  rw [same, ofChars_encode, ← path] at normal
  refine String.toList_injective ?_
  rw [normalPath, String.toList_ofList, normal]
  unfold resolvedItem
  by_cases one : id = "."
  · simp only [if_pos one]
    exact collection.symm
  · simp only [if_neg one]
    by_cases two : id = ".."
    · simp only [if_pos two, above]
      rfl
    · simp only [if_neg two]
      exact path.symm

theorem removeDotSegments_item :
    removeDotSegments [] (Endpoint.item R id).toList = (resolvedItem R id).toList := by
  obtain ⟨name, fixed, -, collection, path⟩ := served.item_path id
  have plain : ∀ s ∈ baseSegments ++ [name], NoDots s := by
    rw [List.forall_mem_append, List.forall_mem_singleton]
    exact ⟨fun s mem => (fixed_baseSegments s mem).noDots, fixed.noDots⟩
  have free : '/' ∉ (encode id).toList := not_mem_encode (by decide) (by decide) id
  rw [path, removeDotSegments_concat plain free, withoutLastSegment_pathText _ fixed.noDots.free]
  have one : (encode id).toList = ['.'] ↔ id = "." :=
    toList_encode_eq_iff (w := ".") (by decide) id
  have two : (encode id).toList = ['.', '.'] ↔ id = ".." :=
    toList_encode_eq_iff (w := "..") (by decide) id
  unfold resolvedItem
  simp only [one, two]
  split
  · exact collection.symm
  · split
    · rfl
    · exact path.symm

/-- A client takes path and query apart, and brings the path into normal form. -/
theorem withRest_item (u : Absolute) :
    (u.withRest (normalPathBy isWebSlash) (Endpoint.item R id).toList).path =
      resolvedItem R id := by
  obtain ⟨tail, whole, -, plain⟩ := served.underStart_item id
  have within : (Endpoint.item R id).toList.all isPathChar = true := by
    rw [whole, String.toList_append, List.all_append, plain]
    decide
  have free (mark : Char) (other : isPathChar mark = false) :
      (Endpoint.item R id).toList.takeWhile (· != mark) = (Endpoint.item R id).toList := by
    refine List.takeWhile_eq_self_iff.mpr fun c mem => bne_iff_ne.mpr fun same => ?_
    have inside := List.all_eq_true.mp within c mem
    rw [same, other] at inside
    cases inside
  rw [Absolute.withRest, free '#' (by decide), free '?' (by decide)]
  exact normalPath_item served id

theorem Served.length_above_lt :
    (basePath ++ "/").length < (Endpoint.collection R).length := by
  cases served <;> decide

theorem item_ne_above : Endpoint.item R id ≠ basePath ++ "/" := by
  intro same
  have longer := served.length_above_lt
  rw [← same, Endpoint.item, String.length_append] at longer
  omega

theorem resolvedItem_eq_iff : resolvedItem R id = Endpoint.item R id ↔ id ≠ "." ∧ id ≠ ".." := by
  unfold resolvedItem
  split
  · rename_i one
    rw [one]
    exact iff_of_false (item_ne_collection (by decide)).symm fun names => names.1 rfl
  · rename_i one
    split
    · rename_i two
      rw [two]
      exact iff_of_false (item_ne_above served "..").symm fun names => names.2 rfl
    · rename_i two
      exact iff_of_true rfl ⟨one, two⟩

theorem resolvedItem_eq_collection_iff (some : id ≠ "") :
    resolvedItem R id = Endpoint.collection R ↔ id = "." := by
  unfold resolvedItem
  split
  · rename_i one
    exact iff_of_true rfl one
  · rename_i one
    refine iff_of_false ?_ one
    split
    · exact fun same => served.length_above_lt.ne (congrArg String.length same)
    · exact item_ne_collection some

theorem resolvedItem_eq_above_iff :
    resolvedItem R id = basePath ++ "/" ↔ id = ".." := by
  unfold resolvedItem
  split
  · rename_i one
    rw [one]
    exact iff_of_false (fun same => served.length_above_lt.ne' (congrArg String.length same))
      (by decide)
  · split
    · rename_i two
      exact iff_of_true rfl two
    · rename_i two
      exact iff_of_false (item_ne_above served id) two

end Served

/-! ## Requests about records -/

/-- The operation is about the record with this id. -/
inductive Operation.IsAbout : (R : Type) → [Resource R] → String → {α : Type} → Operation α → Prop
  | fetch {R : Type} [Resource R] (id : String) : IsAbout R id (.fetch R id)
  | replace {R : Type} [Resource R] (id : String) (record : R) :
    IsAbout R id (.replace id record)
  | delete {R : Type} [Resource R] (id : String) : IsAbout R id (.delete R id)
  | updateUser (id : String) (update : UserUpdate) : IsAbout User id (.updateUser id update)

theorem Operation.IsAbout.url_eq {id : String} {α : Type} {op : Operation α}
    (about : op.IsAbout R id) : op.url = Endpoint.item R id := by
  cases about <;> rfl

/-- Where a request about a record goes. -/
structure Addressed (R : Type) [Resource R] (id : String) {α : Type} (op : Operation α) :
    Prop where
  asked : op.url = Endpoint.item R id
  /-- So it is read where nothing but dot segments is resolved, -/
  dotFree : String.ofList (removeDotSegments [] op.url.toList) = resolvedItem R id
  /-- in a browser, -/
  normal : normalPath op.url.toList = resolvedItem R id
  /-- and by whoever sends requests to a host of the web. -/
  sent : ∀ u : Absolute,
    (u.withRest (normalPathBy isWebSlash) op.url.toList).path = resolvedItem R id
  kept : resolvedItem R id = op.url ↔ id ≠ "." ∧ id ≠ ".."
  collection : id ≠ "" → (resolvedItem R id = Endpoint.collection R ↔ id = ".")
  above : resolvedItem R id = basePath ++ "/" ↔ id = ".."

end GrantConsole.Api
