import GrantConsole.Proofs.Url.Target
import GrantConsole.Url.Query

/-!
# Plain text in a request target

Encoded text consists of characters that stand for themselves in a path and in a query. A target of
such characters is read as it is written, without a fragment.
-/

namespace GrantConsole.Url

/-! ## Encoded text -/

theorem hexDigit_isAlphanum : ∀ {n : Nat}, n < 16 → (hexDigit n).isAlphanum = true := by
  decide

theorem isUnreserved_hexDigit {n : Nat} (small : n < 16) : isUnreserved (hexDigit n) = true := by
  simp only [isUnreserved, hexDigit_isAlphanum small, Bool.true_or]

theorem mem_encodeByte {b : UInt8} {c : Char} (inside : c ∈ encodeByte b) :
    isUnreserved c = true ∨ c = '%' := by
  have bound : b.toNat < 256 := b.toNat_lt
  simp only [encodeByte, List.mem_cons, List.not_mem_nil, or_false] at inside
  rcases inside with rfl | rfl | rfl
  · exact .inr rfl
  · exact .inl (isUnreserved_hexDigit (by omega))
  · exact .inl (isUnreserved_hexDigit (by omega))

theorem mem_encode {s : String} {c : Char} (inside : c ∈ (encode s).toList) :
    isUnreserved c = true ∨ c = '%' := by
  rw [encode, String.toList_ofList, encodeChars] at inside
  obtain ⟨source, -, inside⟩ := List.mem_flatMap.mp inside
  rw [encodeChar] at inside
  split at inside
  case isTrue plain =>
    rw [List.mem_singleton.mp inside]
    exact .inl plain
  case isFalse =>
    obtain ⟨byte, -, inside⟩ := List.mem_flatMap.mp inside
    exact mem_encodeByte inside

theorem isAlphanum_iff {c : Char} :
    c.isAlphanum = true ↔ (0x41 ≤ c.toNat ∧ c.toNat ≤ 0x5A) ∨ (0x61 ≤ c.toNat ∧ c.toNat ≤ 0x7A) ∨
      (0x30 ≤ c.toNat ∧ c.toNat ≤ 0x39) := by
  have ranges : c.isAlphanum =
      (decide ('A'.val ≤ c.val ∧ c.val ≤ 'Z'.val) ||
        (decide ('a'.val ≤ c.val) && decide (c.val ≤ 'z'.val)) ||
        (decide ('0'.val ≤ c.val) && decide (c.val ≤ '9'.val))) := rfl
  rw [ranges]
  simp only [Bool.or_eq_true, Bool.and_eq_true, decide_eq_true_eq, UInt32.le_iff_toNat_le,
    or_assoc]
  exact Iff.rfl

/-- The characters that stand for themselves in a query; a fragment begins with its mark. -/
def isPlainQueryChar (c : Char) : Bool :=
  isQueryChar c && c != '#'

/-- What stands for itself in encoded text does so in a path and in a query. -/
theorem plain_of_isUnreserved {c : Char} (plain : isUnreserved c = true) :
    isPathChar c = true ∧ isPlainQueryChar c = true := by
  simp only [isUnreserved, Bool.or_eq_true, beq_iff_eq] at plain
  rcases plain with (((letter | rfl) | rfl) | rfl) | rfl
  · have ranges := isAlphanum_iff.mp letter
    have noMark : c ≠ '#' := by
      rintro rfl
      exact absurd letter (by decide)
    constructor
    · simp only [isPathChar, Bool.or_eq_true, Bool.and_eq_true, decide_eq_true_eq]
      omega
    · simp only [isPlainQueryChar, isQueryChar, Bool.or_eq_true, Bool.and_eq_true,
        decide_eq_true_eq, bne_iff_ne]
      exact ⟨by omega, noMark⟩
  all_goals decide

/-- Encoded text stands for itself in a path and in a query. -/
theorem plain_of_mem_encode {s : String} {c : Char} (inside : c ∈ (encode s).toList) :
    isPathChar c = true ∧ isPlainQueryChar c = true := by
  rcases mem_encode inside with plain | rfl
  · exact plain_of_isUnreserved plain
  · decide

/-! ## Plain paths and queries -/

/-- Nothing or a query of characters that stand for themselves. -/
inductive PlainQuery : List Char → Prop
  | none : PlainQuery []
  | asked {query : List Char} (plain : query.all isPlainQueryChar = true) :
      PlainQuery ('?' :: query)

theorem readQuery_of_plain {query : List Char} (plain : query.all isPlainQueryChar = true) :
    readQuery query = some query := by
  induction query with
  | nil => rfl
  | cons c query ih =>
    simp only [List.all_cons, isPlainQueryChar, Bool.and_eq_true, bne_iff_ne] at plain
    obtain ⟨⟨here, noMark⟩, later⟩ := plain
    rw [readQuery, if_neg noMark, if_pos here, ih later, Option.map_some]

theorem isPathChar_ends {c : Char} (inside : isPathChar c = true) : c ≠ '#' ∧ c ≠ '?' := by
  constructor <;> (rintro rfl; exact absurd inside (by decide))

theorem readPath_append {path : List Char} (plain : path.all isPathChar = true)
    (rest : List Char) : readPath (path ++ rest) = (readPath rest).map (path ++ ·) := by
  induction path with
  | nil => simp
  | cons c path ih =>
    obtain ⟨here, later⟩ := Bool.and_eq_true_iff.mp (List.all_cons ▸ plain)
    obtain ⟨noFragment, noQuery⟩ := isPathChar_ends here
    rw [List.cons_append, readPath, if_neg noFragment, if_neg noQuery, if_pos here, ih later,
      Option.map_map]
    rfl

theorem PlainQuery.readPath {query : List Char} (plain : PlainQuery query) :
    readPath query = some query := by
  cases plain with
  | none => rfl
  | asked plain =>
    rw [GrantConsole.Url.readPath, if_neg (by decide), if_pos rfl, readQuery_of_plain plain]
    rfl

/-- A path with a query is read whole. -/
theorem Target.ofChars?_of_plain {path query : List Char}
    (plain : ('/' :: path).all isPathChar = true) (asked : PlainQuery query) :
    Target.ofChars? ('/' :: path ++ query) = some ⟨some (String.ofList ('/' :: path ++ query))⟩ :=
  calc
    Target.ofChars? ('/' :: path ++ query) = (readPath ('/' :: path ++ query)).map pathOf := rfl
    _ = some (pathOf ('/' :: path ++ query)) := by
      rw [readPath_append plain, asked.readPath, Option.map_some, Option.map_some]
    _ = _ := rfl

/-- The path of a target ends where its query begins. -/
theorem Target.path_of_plain {path query : List Char}
    (plain : ('/' :: path).all isPathChar = true) (asked : PlainQuery query) :
    Target.path ⟨some (String.ofList ('/' :: path ++ query))⟩ = String.ofList ('/' :: path) := by
  have goes : ∀ c ∈ '/' :: path, (c == '?') = false := fun c known =>
    beq_eq_false_iff_ne.mpr (isPathChar_ends (List.all_eq_true.mp plain c known)).2
  have stop : ∀ c ∈ query.head?, (c == '?') = true := by
    cases asked <;> simp
  have cut : ('/' :: path ++ query).takeWhile (· != '?') = '/' :: path :=
    takeWhile_append_of_stop (· == '?') goes stop
  simp only [Target.path, String.toList_ofList, cut]
  rfl

/-- What holds of the characters of a separator and of the pieces holds of what they make. -/
theorem all_intercalate {good : Char → Bool} {separator : String} {pieces : List String}
    (between : separator.toList.all good = true)
    (within : ∀ piece ∈ pieces, piece.toList.all good = true) :
    (separator.intercalate pieces).toList.all good = true := by
  induction pieces with
  | nil => simp
  | cons piece pieces ih =>
    obtain ⟨here, later⟩ := List.forall_mem_cons.mp within
    cases pieces with
    | nil => simpa using here
    | cons next pieces =>
      rw [String.intercalate_cons_cons, String.toList_append, String.toList_append,
        List.all_append, List.all_append, here, between, ih later]
      rfl

theorem all_pairText {pair : String × String} (key : pair.1.toList.all isPlainQueryChar = true) :
    (pairText pair).toList.all isPlainQueryChar = true := by
  have value : (encode pair.2).toList.all isPlainQueryChar = true :=
    List.all_eq_true.mpr fun _ inside => (plain_of_mem_encode inside).2
  rw [pairText, String.toList_append, String.toList_append, List.all_append, List.all_append, key,
    value]
  decide

/-- What is asked of a path follows it as a plain query. -/
theorem withQuery_eq_append (path : String) {pairs : List (String × String)}
    (keys : ∀ key ∈ pairs.map Prod.fst, key.toList.all isPlainQueryChar = true) :
    ∃ query, withQuery path pairs = path ++ query ∧ PlainQuery query.toList := by
  rw [withQuery]
  split
  case isTrue => exact ⟨"", by simp, .none⟩
  case isFalse =>
    refine ⟨"?" ++ "&".intercalate (pairs.map pairText), String.append_assoc .., ?_⟩
    rw [String.toList_append]
    refine .asked (all_intercalate (by decide) fun piece known => ?_)
    obtain ⟨pair, asked, rfl⟩ := List.mem_map.mp known
    exact all_pairText (keys pair.1 (List.mem_map_of_mem asked))

end GrantConsole.Url
