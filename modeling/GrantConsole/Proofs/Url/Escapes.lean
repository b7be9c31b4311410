import GrantConsole.Proofs.Url.Segments
import Mathlib.Data.List.Flatten

/-!
# Text that was never encoded

A piece of a path is decoded where it is read, be it encoded or not. A text that was not encoded is
read as itself unless two digits of base sixteen stand after a percent sign in it: then it stands
for a shorter text. What encoding does to the characters that may not stand in a path makes no
difference to what the piece stands for.
-/

namespace GrantConsole.Url

/-- Two digits of base sixteen come first. -/
def BeginsWithByte (cs : List Char) : Prop :=
  ∃ a b rest, cs = a :: b :: rest ∧ IsHexDigit a ∧ IsHexDigit b

/-- No percent sign has two digits of base sixteen after it. -/
def Unescaped (cs : List Char) : Prop :=
  ∀ rest, '%' :: rest <:+ cs → ¬ BeginsWithByte rest

theorem unescaped_nil : Unescaped [] :=
  fun _ suffix => absurd (List.suffix_nil.mp suffix) (List.cons_ne_nil _ _)

theorem unescaped_cons_iff {c : Char} {cs : List Char} :
    Unescaped (c :: cs) ↔ (c = '%' → ¬ BeginsWithByte cs) ∧ Unescaped cs := by
  refine ⟨fun plain => ⟨?_, fun rest suffix => plain rest (suffix.trans (List.suffix_cons c cs))⟩,
    fun ⟨here, later⟩ rest suffix => ?_⟩
  · rintro rfl
    exact plain cs (List.suffix_refl _)
  · rcases List.suffix_cons_iff.mp suffix with same | suffix
    · obtain ⟨rfl, rfl⟩ := List.cons.inj same
      exact here rfl
    · exact later rest suffix

/-! ## Digits -/

theorem hexValue?_isSome_iff {c : Char} : (hexValue? c).isSome = true ↔ IsHexDigit c := by
  unfold hexValue? IsHexDigit
  split
  · simp_all
  · split
    · simp_all
    · split <;> simp_all

theorem not_isHexDigit_percent : ¬ IsHexDigit '%' := by
  unfold IsHexDigit
  decide

theorem isUnreserved_of_isHexDigit {c : Char} (digit : IsHexDigit c) : isUnreserved c = true := by
  have ranges : (0x30 ≤ c.toNat ∧ c.toNat ≤ 0x39) ∨ (0x41 ≤ c.toNat ∧ c.toNat ≤ 0x46) ∨
      (0x61 ≤ c.toNat ∧ c.toNat ≤ 0x66) := digit
  have letter : c.isAlphanum = true := isAlphanum_iff.mpr (by omega)
  rw [isUnreserved, letter]
  rfl

theorem isPathReserved_of_isHexDigit {c : Char} (digit : IsHexDigit c) :
    isPathReserved c = false :=
  (isPathReserved_of_isUnreserved (isUnreserved_of_isHexDigit digit)).1

/-! ## Decoding text as it is -/

/-- A byte is decoded where two digits follow a percent sign, -/
theorem decodeBytes_of_byte {a b : Char} (high : IsHexDigit a) (low : IsHexDigit b) :
    ∃ byte, ∀ rest, decodeBytes ('%' :: a :: b :: rest) =
      byte :: decodeBytes rest := by
  obtain ⟨x, high⟩ := Option.isSome_iff_exists.mp (hexValue?_isSome_iff.mpr high)
  obtain ⟨y, low⟩ := Option.isSome_iff_exists.mp (hexValue?_isSome_iff.mpr low)
  refine ⟨UInt8.ofNat (16 * x + y), fun rest => ?_⟩
  simp only [decodeBytes, high, low]

/-- and everywhere else a character stands for itself. -/
theorem decodeBytes_cons {c : Char} {cs : List Char} (plain : c = '%' → ¬ BeginsWithByte cs) :
    decodeBytes (c :: cs) = String.utf8EncodeChar c ++ decodeBytes cs := by
  by_cases percent : c = '%'
  · subst percent
    have none := plain rfl
    match cs with
    | [] => rfl
    | [_] => rfl
    | a :: b :: rest =>
      rw [decodeBytes]
      split
      · rename_i high low
        refine absurd ⟨a, b, rest, rfl, ?_, ?_⟩ none
        · exact hexValue?_isSome_iff.mp (by rw [high]; rfl)
        · exact hexValue?_isSome_iff.mp (by rw [low]; rfl)
      · rfl
  · exact decodeBytes_cons_of_ne percent cs

/-- Text is read from its front: there is a byte in two digits, or a character that stands for
itself. -/
@[elab_as_elim]
theorem reading_induction {motive : List Char → Prop} (nil : motive [])
    (byte : ∀ a b rest, IsHexDigit a → IsHexDigit b → motive rest → motive ('%' :: a :: b :: rest))
    (plain : ∀ c cs, (c = '%' → ¬ BeginsWithByte cs) → motive cs → motive (c :: cs))
    (cs : List Char) : motive cs :=
  match cs with
  | [] => nil
  | c :: cs => by
    by_cases escaped : c = '%' ∧ BeginsWithByte cs
    · obtain ⟨rfl, a, b, rest, rfl, high, low⟩ := escaped
      exact byte a b rest high low (reading_induction nil byte plain rest)
    · exact plain c cs (fun percent begins => escaped ⟨percent, begins⟩)
        (reading_induction nil byte plain cs)
termination_by cs.length

/-- A text either stands for itself, or for fewer bytes than it has. -/
theorem decodeBytes_cases (cs : List Char) :
    Unescaped cs ∧ decodeBytes cs = cs.flatMap String.utf8EncodeChar ∨
      (decodeBytes cs).length < (cs.flatMap String.utf8EncodeChar).length := by
  induction cs using reading_induction with
  | nil => exact .inl ⟨unescaped_nil, rfl⟩
  | byte a b rest high low ih =>
    obtain ⟨byte, read⟩ := decodeBytes_of_byte high low
    have bound : (decodeBytes rest).length ≤ (rest.flatMap String.utf8EncodeChar).length := by
      rcases ih with ⟨-, same⟩ | fewer
      · exact Nat.le_of_eq (congrArg List.length same)
      · exact Nat.le_of_lt fewer
    have positive := a.utf8Size_pos
    have positive' := b.utf8Size_pos
    right
    simp only [read, List.flatMap_cons, List.length_append, List.length_cons,
      String.length_utf8EncodeChar]
    omega
  | plain c cs plain ih =>
    rw [decodeBytes_cons plain, List.flatMap_cons]
    rcases ih with ⟨later, same⟩ | fewer
    · exact .inl ⟨unescaped_cons_iff.mpr ⟨plain, later⟩, by rw [same]⟩
    · right
      simpa using fewer

theorem decodeBytes_of_unescaped {cs : List Char} (plain : Unescaped cs) :
    decodeBytes cs = cs.flatMap String.utf8EncodeChar := by
  induction cs with
  | nil => rfl
  | cons c cs ih =>
    obtain ⟨here, later⟩ := unescaped_cons_iff.mp plain
    rw [decodeBytes_cons here, ih later, List.flatMap_cons]

/-! ## Decoding what has been encoded for a path -/

/-- A character of an encoded text was in the text and may stand there, or writes a byte. -/
theorem mem_encodeReserved {reserved : Char → Bool} {c : Char} {cs : List Char}
    (mem : c ∈ encodeReserved reserved cs) :
    (isUnreserved c = true ∨ c = '%') ∨ c ∈ cs ∧ reserved c = false := by
  obtain ⟨d, inside, mem⟩ := List.mem_flatMap.mp mem
  split at mem
  · obtain ⟨byte, -, mem⟩ := List.mem_flatMap.mp mem
    exact .inl (mem_encodeByte mem)
  · rename_i free
    rw [List.mem_singleton.mp mem]
    exact .inr ⟨inside, Bool.eq_false_iff.mpr free⟩

theorem free_of_mem_encodeReserved {c : Char} {cs : List Char}
    (mem : c ∈ encodeReserved isPathReserved cs) : isPathReserved c = false := by
  rcases mem_encodeReserved mem with (plain | rfl) | ⟨-, free⟩
  · exact (isPathReserved_of_isUnreserved plain).1
  · decide
  · exact free

theorem noSlash_encodeReserved {cs : List Char} (free : ∀ c ∈ cs, isWebSlash c = false) :
    ∀ c ∈ encodeReserved isPathReserved cs, isWebSlash c = false := by
  intro c mem
  rcases mem_encodeReserved mem with (plain | rfl) | ⟨inside, -⟩
  · exact (isPathReserved_of_isUnreserved plain).2
  · decide
  · exact free c inside

/-- What comes first after encoding and may stand in a path came first before. -/
theorem eq_cons_of_encodeReserved {c : Char} {cs tail : List Char} (other : c ≠ '%')
    (first : encodeReserved isPathReserved cs = c :: tail) :
    ∃ rest, cs = c :: rest ∧ encodeReserved isPathReserved rest = tail := by
  cases cs with
  | nil => cases first
  | cons d rest =>
    rw [encodeReserved, List.flatMap_cons, ← encodeReserved] at first
    split at first
    · cases bytes : String.utf8EncodeChar d with
      | nil =>
        have some := d.utf8Size_pos
        rw [← String.length_utf8EncodeChar, bytes] at some
        cases some
      | cons b bs =>
        rw [bytes] at first
        exact absurd (List.cons.inj first).1.symm other
    · obtain ⟨rfl, rfl⟩ := List.cons.inj first
      exact ⟨rest, rfl, rfl⟩

theorem beginsWithByte_of_encodeReserved {cs : List Char}
    (begins : BeginsWithByte (encodeReserved isPathReserved cs)) : BeginsWithByte cs := by
  obtain ⟨a, b, tail, whole, high, low⟩ := begins
  have other {c : Char} (digit : IsHexDigit c) : c ≠ '%' :=
    fun same => not_isHexDigit_percent (same ▸ digit)
  obtain ⟨rest, rfl, later⟩ := eq_cons_of_encodeReserved (other high) whole
  obtain ⟨rest, rfl, -⟩ := eq_cons_of_encodeReserved (other low) later
  exact ⟨a, b, rest, rfl, high, low⟩

/-- A piece that is encoded for a path stands for what it stood for. -/
theorem decodeBytes_encodeReserved (cs : List Char) :
    decodeBytes (encodeReserved isPathReserved cs) = decodeBytes cs := by
  induction cs using reading_induction with
  | nil => rfl
  | byte a b rest high low ih =>
    obtain ⟨byte, read⟩ := decodeBytes_of_byte high low
    have kept : encodeReserved isPathReserved ('%' :: a :: b :: rest) =
        '%' :: a :: b :: encodeReserved isPathReserved rest := by
      have percent : isPathReserved '%' = false := by decide
      simp [encodeReserved, percent, isPathReserved_of_isHexDigit high,
        isPathReserved_of_isHexDigit low]
    rw [kept, read, read, ih]
  | plain c cs plain ih =>
    rw [encodeReserved, List.flatMap_cons, ← encodeReserved, decodeBytes_cons plain, ← ih]
    split
    · exact decodeBytes_flatMap_encodeByte _ _
    · exact decodeBytes_cons fun percent begins =>
        plain percent (beginsWithByte_of_encodeReserved begins)

/-! ## Pieces that are read as they were written -/

/-- The text is what a piece stands for in which it is written as it is. A piece whose bytes are no
text is left as it stands in the path. -/
def ReadAsWritten (s : String) : Prop :=
  Unescaped s.toList ∨ decode? s = none ∧ ∀ c ∈ s.toList, isPathReserved c = false

/-- What a piece of a path is read as. -/
def readPiece (s : String) : String :=
  (decode? s).getD s

/-- The bytes of a text. -/
theorem toByteArray_toList (s : String) :
    s.toByteArray.data.toList = s.toList.flatMap String.utf8EncodeChar := by
  rw [← String.utf8Encode_toList, List.utf8Encode, List.data_toByteArray]

theorem decode?_eq_some_iff {cs : List Char} {s : String} :
    decode? (String.ofList cs) = some s ↔
      decodeBytes cs = s.toList.flatMap String.utf8EncodeChar := by
  rw [← toByteArray_toList]
  refine ⟨fun told => ?_, decode?_of_bytes⟩
  rw [decode?, String.toList_ofList, String.fromUTF8?] at told
  split at told
  · cases told
    rfl
  · cases told

theorem length_flatMap_le {part whole : List Char} (sub : part.Sublist whole) :
    (part.flatMap String.utf8EncodeChar).length ≤ (whole.flatMap String.utf8EncodeChar).length :=
  (sub.flatMap _).length_le

/-- A part of a text that has no fewer bytes is the whole text. -/
theorem eq_of_length_flatMap_le {part whole : List Char} (sub : part.Sublist whole)
    (bytes : (whole.flatMap String.utf8EncodeChar).length ≤
      (part.flatMap String.utf8EncodeChar).length) : part = whole := by
  induction sub with
  | slnil => rfl
  | cons c sub ih =>
    have bound := length_flatMap_le sub
    have positive := c.utf8Size_pos
    rw [List.flatMap_cons, List.length_append, String.length_utf8EncodeChar] at bytes
    omega
  | cons_cons c sub ih =>
    rw [List.flatMap_cons, List.flatMap_cons, List.length_append, List.length_append] at bytes
    rw [ih (Nat.le_of_add_le_add_left bytes)]

theorem readPiece_of_readAsWritten {s : String} (written : ReadAsWritten s) :
    readPiece (String.ofList (encodeReserved isPathReserved s.toList)) = s := by
  rcases written with plain | ⟨none, free⟩
  · have bytes : decodeBytes (encodeReserved isPathReserved s.toList) =
        s.toList.flatMap String.utf8EncodeChar := by
      rw [decodeBytes_encodeReserved, decodeBytes_of_unescaped plain]
    rw [readPiece, decode?_eq_some_iff.mpr bytes]
    rfl
  · rw [encodeReserved_of_free free, String.ofList_toList, readPiece, none]
    rfl

theorem ReadAsWritten.eq_of_decode? {s t : String} (written : ReadAsWritten s)
    (told : decode? s = some t) : t = s := by
  rcases written with plain | ⟨none, -⟩
  · have self : decode? (String.ofList s.toList) = some s :=
      decode?_eq_some_iff.mpr (decodeBytes_of_unescaped plain)
    rw [String.ofList_toList, told] at self
    exact Option.some.inj self
  · cases none.symm.trans told

/-- Only the whole text is read as the text, and only as it was written. -/
theorem readPiece_of_sublist {part : List Char} {s : String} (sub : part.Sublist s.toList)
    (read : readPiece (String.ofList (encodeReserved isPathReserved part)) = s) :
    part = s.toList ∧ ReadAsWritten s := by
  rw [readPiece] at read
  cases told : decode? (String.ofList (encodeReserved isPathReserved part)) with
  | some t =>
    rw [told, Option.getD_some] at read
    rw [read, decode?_eq_some_iff, decodeBytes_encodeReserved] at told
    -- The piece has no fewer bytes than the text, so it is all of it and holds no escapes.
    have fewer := length_flatMap_le sub
    rcases decodeBytes_cases part with ⟨plain, same⟩ | less
    · have whole := eq_of_length_flatMap_le sub (Nat.le_of_eq (by rw [← told, same]))
      exact ⟨whole, .inl (whole ▸ plain)⟩
    · rw [told] at less
      omega
  | none =>
    rw [told, Option.getD_none] at read
    have written := congrArg String.toList read
    rw [String.toList_ofList] at written
    -- The text is in its encoded form, so nothing in it had to be encoded.
    have free : ∀ c ∈ part, isPathReserved c = false := fun c mem =>
      free_of_mem_encodeReserved (written ▸ sub.subset mem)
    have whole := (encodeReserved_of_free free).symm.trans written
    rw [read] at told
    exact ⟨whole, .inr ⟨told, whole ▸ free⟩⟩

end GrantConsole.Url
