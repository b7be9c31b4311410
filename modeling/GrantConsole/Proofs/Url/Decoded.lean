import GrantConsole.Proofs.Url.Plain

/-!
# Encoded text is decoded again

An encoded piece of a URL says which text it stands for, and holds none of the marks that part a
URL. So a query that is cut at its marks gives back the path and the pairs that it was made from.
-/

namespace GrantConsole.Url

/-! ## One piece -/

/-- A digit of base sixteen. -/
def IsHexDigit (c : Char) : Prop :=
  ('0' ≤ c ∧ c ≤ '9') ∨ ('A' ≤ c ∧ c ≤ 'F') ∨ ('a' ≤ c ∧ c ≤ 'f')

/-- Text of letters, digits, four marks, and percent signs with two digits of base sixteen. -/
inductive Encoded : List Char → Prop
  | done : Encoded []
  | plain {c : Char} {rest : List Char}
      (stands : c.isAlphanum = true ∨ c = '-' ∨ c = '_' ∨ c = '.' ∨ c = '~')
      (later : Encoded rest) : Encoded (c :: rest)
  | byte {a b : Char} {rest : List Char} (high : IsHexDigit a) (low : IsHexDigit b)
      (later : Encoded rest) : Encoded ('%' :: a :: b :: rest)

theorem Encoded.append {cs rest : List Char} (front : Encoded cs) (later : Encoded rest) :
    Encoded (cs ++ rest) := by
  induction front with
  | done => exact later
  | plain stands _ ih => exact .plain stands ih
  | byte high low _ ih => exact .byte high low ih

theorem isHexDigit_hexDigit : ∀ {n : Nat}, n < 16 → IsHexDigit (hexDigit n) := by
  unfold IsHexDigit
  decide

theorem encoded_flatMap_encodeByte (bytes : List UInt8) : Encoded (bytes.flatMap encodeByte) := by
  induction bytes with
  | nil => exact .done
  | cons b bytes ih =>
    have bound : b.toNat < 256 := b.toNat_lt
    have high : IsHexDigit (hexDigit (b.toNat / 16)) := isHexDigit_hexDigit (by omega)
    have low : IsHexDigit (hexDigit (b.toNat % 16)) := isHexDigit_hexDigit (by omega)
    exact .byte high low ih

theorem encoded_encodeChar (c : Char) : Encoded (encodeChar c) := by
  rw [encodeChar]
  split
  case isTrue plain =>
    simp only [isUnreserved, Bool.or_eq_true, beq_iff_eq, or_assoc] at plain
    exact .plain plain .done
  case isFalse => exact encoded_flatMap_encodeByte _

theorem encoded_encode (s : String) : Encoded (encode s).toList := by
  rw [encode, String.toList_ofList, encodeChars]
  induction s.toList with
  | nil => exact .done
  | cons c cs ih => exact (encoded_encodeChar c).append ih

theorem hexValue?_hexDigit : ∀ {n : Nat}, n < 16 → hexValue? (hexDigit n) = some n := by
  decide

theorem decodeBytes_encodeByte (b : UInt8) (rest : List Char) :
    decodeBytes (encodeByte b ++ rest) = b :: decodeBytes rest := by
  have bound : b.toNat < 256 := b.toNat_lt
  have high : hexValue? (hexDigit (b.toNat / 16)) = some (b.toNat / 16) :=
    hexValue?_hexDigit (by omega)
  have low : hexValue? (hexDigit (b.toNat % 16)) = some (b.toNat % 16) :=
    hexValue?_hexDigit (by omega)
  have whole : UInt8.ofNat (16 * (b.toNat / 16) + b.toNat % 16) = b := by
    rw [Nat.div_add_mod, UInt8.ofNat_toNat]
  simp only [encodeByte, List.cons_append, List.nil_append, decodeBytes, high, low, whole]

theorem decodeBytes_flatMap_encodeByte (bytes : List UInt8) (rest : List Char) :
    decodeBytes (bytes.flatMap encodeByte ++ rest) = bytes ++ decodeBytes rest := by
  induction bytes with
  | nil => rfl
  | cons b bytes ih =>
    rw [List.flatMap_cons, List.append_assoc, decodeBytes_encodeByte, ih, List.cons_append]

/-- Only a percent sign begins a byte. -/
theorem decodeBytes_cons_of_ne {c : Char} (plain : c ≠ '%') (rest : List Char) :
    decodeBytes (c :: rest) = String.utf8EncodeChar c ++ decodeBytes rest := by
  rw [decodeBytes.eq_def]
  split
  case h_1 percent => exact absurd (List.cons.inj percent).1 plain
  case h_2 parts =>
    obtain ⟨rfl, rfl⟩ := List.cons.inj parts
    rfl
  case h_3 => contradiction

theorem decodeBytes_encodeChar (c : Char) (rest : List Char) :
    decodeBytes (encodeChar c ++ rest) = String.utf8EncodeChar c ++ decodeBytes rest := by
  rw [encodeChar]
  split
  case isTrue plain =>
    have noPercent : c ≠ '%' := by
      rintro rfl
      exact absurd plain (by decide)
    exact decodeBytes_cons_of_ne noPercent rest
  case isFalse => exact decodeBytes_flatMap_encodeByte _ rest

theorem decodeBytes_encodeChars (cs : List Char) :
    decodeBytes (encodeChars cs) = cs.flatMap String.utf8EncodeChar := by
  induction cs with
  | nil => rfl
  | cons c cs ih =>
    rw [encodeChars, List.flatMap_cons, decodeBytes_encodeChar, ← encodeChars, ih,
      List.flatMap_cons]

/-- Encoded text stands for the text that was encoded. -/
theorem decode?_encode (s : String) : decode? (encode s) = some s := by
  have bytes : (⟨(decodeBytes (encode s).toList).toArray⟩ : ByteArray) = s.toByteArray := by
    rw [encode, String.toList_ofList, decodeBytes_encodeChars, ← String.utf8Encode_toList]
    apply ByteArray.ext
    rw [List.utf8Encode, List.data_toByteArray]
  rw [decode?, bytes, String.fromUTF8?, dif_pos s.isValidUTF8]
  rfl

/-! ## Marks that encoded text does not hold -/

theorem not_mem_encode {mark : Char} (reserved : isUnreserved mark = false) (other : mark ≠ '%')
    (s : String) : mark ∉ (encode s).toList := by
  intro inside
  rcases mem_encode inside with plain | percent
  · rw [reserved] at plain
    cases plain
  · exact other percent

/-! ## Cutting a query -/

/-- A text before and after the first of a mark. -/
def cutAt (mark : Char) (s : String) : Option (String × String) :=
  match s.toList.dropWhile (· != mark) with
  | [] => none
  | _ :: rest => some (String.ofList (s.toList.takeWhile (· != mark)), String.ofList rest)

/-- The pieces of a text between marks. -/
def piecesAt (mark : Char) (s : String) : List String :=
  (s.toList.splitOn mark).map String.ofList

/-- A key with the value that an encoded piece after it stands for. -/
def readPair (s : String) : Option (String × String) := do
  let (key, value) ← cutAt '=' s
  let value ← decode? value
  some (key, value)

/-- The path of a URL and the pairs that are asked of it. -/
def readAsked (url : String) : Option (String × List (String × String)) := do
  let (path, query) ← cutAt '?' url
  let pairs ← (piecesAt '&' query).mapM readPair
  some (path, pairs)

theorem cutAt_append {mark : Char} {before : String} (free : mark ∉ before.toList)
    (after : String) : cutAt mark (before ++ String.singleton mark ++ after) =
      some (before, after) := by
  have goes : ∀ c ∈ before.toList, (c != mark) = true := fun c known =>
    bne_iff_ne.mpr fun same => free (same ▸ known)
  have whole : (before ++ String.singleton mark ++ after).toList =
      before.toList ++ mark :: after.toList := by
    simp
  rw [cutAt, whole, List.dropWhile_append_of_pos goes, List.takeWhile_append_of_pos goes,
    List.dropWhile_cons_of_neg (by simp), List.takeWhile_cons_of_neg (by simp)]
  simp

theorem piecesAt_intercalate {mark : Char} {pieces : List String}
    (free : ∀ piece ∈ pieces, mark ∉ piece.toList) (present : pieces ≠ []) :
    piecesAt mark ((String.singleton mark).intercalate pieces) = pieces := by
  have free : ∀ cs ∈ pieces.map String.toList, mark ∉ cs := by
    simpa using free
  rw [piecesAt, String.toList_intercalate, String.toList_singleton,
    List.splitOn_intercalate mark free (by simpa using present), List.map_map]
  simp

/-- The marks that part a query; no key holds one of them. -/
def queryMarks : List Char :=
  ['&', '=', '?', '#', '%']

/-- No character of a key is a mark of a query. -/
def PlainKey (key : String) : Prop :=
  ∀ c ∈ key.toList, c ∉ queryMarks

instance (key : String) : Decidable (PlainKey key) :=
  decidable_of_iff (key.toList.all fun c => !queryMarks.contains c) (by simp [PlainKey])

theorem readPair_pairText {pair : String × String} (plain : PlainKey pair.1) :
    readPair (pairText pair) = some pair := by
  have free : '=' ∉ pair.1.toList := fun known => plain '=' known (by decide)
  have cut : cutAt '=' (pairText pair) = some (pair.1, encode pair.2) := cutAt_append free _
  rw [readPair, cut]
  simp only [Option.bind_eq_bind, Option.bind_some, decode?_encode]

theorem not_mem_pairText {pair : String × String} (plain : PlainKey pair.1) :
    '&' ∉ (pairText pair).toList := by
  have key : '&' ∉ pair.1.toList := fun known => plain '&' known (by decide)
  have value : '&' ∉ (encode pair.2).toList := not_mem_encode (by decide) (by decide) pair.2
  simp [pairText, key, value]

theorem mapM_readPair_pairText {pairs : List (String × String)}
    (plain : ∀ pair ∈ pairs, PlainKey pair.1) :
    (pairs.map pairText).mapM readPair = some pairs := by
  induction pairs with
  | nil => rfl
  | cons pair pairs ih =>
    obtain ⟨here, later⟩ := List.forall_mem_cons.mp plain
    rw [List.map_cons, List.mapM_cons, readPair_pairText here, ih later]
    rfl

/-- What is asked of a path is read from the URL. -/
theorem readAsked_withQuery {path : String} {pairs : List (String × String)}
    (free : '?' ∉ path.toList) (asked : pairs ≠ []) (plain : ∀ pair ∈ pairs, PlainKey pair.1) :
    readAsked (withQuery path pairs) = some (path, pairs) := by
  have text : withQuery path pairs =
      path ++ String.singleton '?' ++ (String.singleton '&').intercalate (pairs.map pairText) := by
    rw [withQuery, if_neg (by simpa using asked)]
    rfl
  have within : ∀ piece ∈ pairs.map pairText, '&' ∉ piece.toList := by
    intro piece known
    obtain ⟨pair, asked, rfl⟩ := List.mem_map.mp known
    exact not_mem_pairText (plain pair asked)
  rw [readAsked, text, cutAt_append free]
  simp only [Option.bind_eq_bind, Option.bind_some]
  rw [piecesAt_intercalate within (by simpa using asked), mapM_readPair_pairText plain]
  rfl

end GrantConsole.Url
