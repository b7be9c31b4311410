import GrantConsole.Json.Printer
import GrantConsole.Proofs.Json.Free
import GrantConsole.Proofs.Json.Taken

/-!
# Written values, taken in again

A reader that takes the items of a written list in takes the list in, and one that goes through the
members of a written object takes the object in. Every written value can be passed over.
-/

namespace GrantConsole.Json
open GrantConsole.Number GrantConsole.Text

/-- The value has a text that says all of it: no binary numbers, whole numbers that fit 64 bits and
no key twice. -/
inductive Writable : Json → Prop
  | null : Writable .null
  | bool (b : Bool) : Writable (.bool b)
  | whole {n : Int} (least : -int64Bound ≤ n) (most : n < wordBound) : Writable (.whole n)
  | text (s : String) : Writable (.text s)
  | array {items : List Json} (each : ∀ v ∈ items, Writable v) : Writable (.array items)
  | object {members : List (String × Json)} (keys : (members.map Prod.fst).Nodup)
      (each : ∀ m ∈ members, Writable m.2) : Writable (.object members)

theorem natChars_cons (n : Nat) : ∃ c ds, natChars n = c :: ds ∧ isDigit c = true := by
  cases chars : natChars n with
  | nil =>
      rw [natChars_eq] at chars
      exact absurd chars Nat.toDigits_ne_nil
  | cons c ds => exact ⟨c, ds, rfl, isDigit_natChars n c (chars ▸ List.mem_cons_self)⟩

/-- Whole numbers in range are written as an optional sign and digits. -/
theorem print_whole {n : Int} (least : -int64Bound ≤ n) (most : n < wordBound) :
    (∃ m, HasWholeForm false m ∧ n = signedWhole false m ∧ (Json.whole n).print = natChars m) ∨
      ∃ m, HasWholeForm true m ∧ n = signedWhole true m ∧
        (Json.whole n).print = '-' :: natChars m := by
  cases n with
  | ofNat m =>
      refine .inl ⟨m, ⟨Int.ofNat_lt.mp most, nofun⟩, rfl, rfl⟩
  | negSucc m =>
      have bounds : int64Bound < wordBound := by decide
      refine .inr ⟨m + 1, ⟨by omega, fun _ => by omega⟩, rfl, ?_⟩
      simp [print, natChars, Int.toString_eq_repr, Int.repr]

/-- The first character of a written value. Only null starts with the first one of null. -/
theorem print_eq_cons {v : Json} (writable : Writable v) :
    ∃ c cs, v.print = c :: cs ∧ isSpace c = false ∧ c ≠ ']' ∧ (v ≠ .null → c ≠ 'n') := by
  cases writable with
  | null => exact ⟨'n', _, rfl, rfl, by decide, fun other => absurd rfl other⟩
  | bool b => cases b <;> exact ⟨_, _, rfl, rfl, by decide, fun _ => by decide⟩
  | whole least most =>
      rcases print_whole least most with ⟨m, -, -, chars⟩ | ⟨m, -, -, chars⟩
      · obtain ⟨c, ds, digits, digit⟩ := natChars_cons m
        rw [chars, digits]
        refine ⟨c, _, rfl, isSpace_of_isDigit digit, ?_, fun _ => ?_⟩ <;>
          · rintro rfl
            cases digit
      · rw [chars]
        exact ⟨'-', _, rfl, rfl, by decide, fun _ => by decide⟩
  | text s => exact ⟨'"', _, rfl, rfl, by decide, fun _ => by decide⟩
  | array each => exact ⟨'[', _, rfl, rfl, by decide, fun _ => by decide⟩
  | object keys each => exact ⟨'{', _, rfl, rfl, by decide, fun _ => by decide⟩

/-! ## The grammar of what is written -/

theorem quotable_quoteChar (c : Char) {cs : List Char} (rest : Quotable cs) :
    Quotable (quoteChar c ++ cs) := by
  by_cases short : c ∈ ['"', '\\', '\x08', '\x0c', '\n', '\r', '\t']
  · simp only [List.mem_cons, List.not_mem_nil, or_false] at short
    rcases short with rfl | rfl | rfl | rfl | rfl | rfl | rfl <;> exact .letter rfl rest
  · simp only [List.mem_cons, List.not_mem_nil, or_false, not_or] at short
    obtain ⟨quote, backslash, backspace, feed, line, back, tab⟩ := short
    unfold quoteChar
    simp only [if_neg quote, if_neg backslash, if_neg backspace, if_neg feed, if_neg line,
      if_neg back, if_neg tab]
    by_cases control : c.toNat < 0x20
    · rw [if_pos control]
      refine .code ?_ rest
      have first := hexValue?_hexChar (c.toNat / 16) (by omega)
      have second := hexValue?_hexChar (c.toNat % 16) (by omega)
      have zero : hexValue? '0' = some 0 := rfl
      simp [first, second, zero]
    · rw [if_neg control]
      exact .plain quote backslash control rest

theorem quotable_flatMap (cs : List Char) : Quotable (cs.flatMap quoteChar) := by
  induction cs with
  | nil => exact .nil
  | cons c cs ih => exact List.flatMap_cons ▸ quotable_quoteChar c ih

theorem wholePart_natChars (n : Nat) : WholePart (natChars n) := by
  by_cases zero : n = 0
  · subst zero
    exact .zero
  · obtain ⟨c, ds, chars, nonzero, -⟩ := natChars_head zero
    have each := isDigit_natChars n
    rw [chars] at each ⊢
    exact .digits ⟨List.cons_ne_nil c ds, each⟩ nonzero

theorem unsigned_natChars (n : Nat) : Unsigned (natChars n) := by
  have unsigned := Unsigned.mk (wholePart_natChars n) .none .none
  rwa [List.append_nil, List.append_nil] at unsigned

def noBlanks : Blanks :=
  ⟨[], nofun⟩

def writtenItem (v : Json) : Item :=
  ⟨noBlanks, v.print, noBlanks⟩

def writtenMember (m : String × Json) : Named where
  toItem := writtenItem m.2
  lead := noBlanks
  key := m.1.toList.flatMap quoteChar
  gap := noBlanks
  name := m.1
  quotable := quotable_flatMap m.1.toList
  names := readQuoted_quoted m.1 []

theorem writtenItem_chars (v : Json) : (writtenItem v).chars = v.print := by
  simp [Item.chars, writtenItem, noBlanks]

theorem quoteChars_append (cs rest : List Char) :
    quoteChars cs ++ rest = '"' :: (cs.flatMap quoteChar ++ '"' :: rest) := by
  simp [quoteChars]

theorem writtenMember_chars (m : String × Json) :
    (writtenMember m).chars = quoteChars m.1.toList ++ ':' :: m.2.print := by
  rw [quoteChars_append]
  simp [Member.chars, writtenMember, writtenItem_chars, noBlanks]

theorem printItems_cons (v : Json) (items : List Json) :
    printItems (v :: items) =
      v.print ++ closing ']' ((items.map writtenItem).map Item.chars) := by
  induction items generalizing v with
  | nil => rfl
  | cons w items ih =>
      rw [printItems, ih, List.map_cons, List.map_cons, closing, writtenItem_chars]
      exact List.cons_ne_nil w items

theorem printItems_eq (items : List Json) :
    printItems items = enclosed ']' noBlanks ((items.map writtenItem).map Item.chars) := by
  cases items with
  | nil => rfl
  | cons v items =>
      rw [printItems_cons, List.map_cons, List.map_cons, enclosed, writtenItem_chars]

theorem printMembers_cons (key : String) (v : Json) (members : List (String × Json)) :
    printMembers ((key, v) :: members) =
      quoteChars key.toList ++ ':' ::
        (v.print ++ closing '}'
          (((members.map writtenMember).map Named.toMember).map Member.chars)) := by
  induction members generalizing key v with
  | nil => simp [printMembers, closing]
  | cons m members ih =>
      obtain ⟨k, w⟩ := m
      rw [printMembers, ih, List.map_cons, List.map_cons, List.map_cons, closing,
        writtenMember_chars]
      · simp
      · exact List.cons_ne_nil _ members

theorem printMembers_eq (members : List (String × Json)) :
    printMembers members = enclosed '}' noBlanks
      (((members.map writtenMember).map Named.toMember).map Member.chars) := by
  cases members with
  | nil => rfl
  | cons m members =>
      rw [printMembers_cons, List.map_cons, List.map_cons, List.map_cons, enclosed,
        writtenMember_chars]
      simp

theorem print_array (items : List Json) :
    print (.array items) = listText noBlanks (items.map writtenItem) := by
  rw [print, printItems_eq, listText]

theorem print_object (members : List (String × Json)) :
    print (.object members) = recordText noBlanks (members.map writtenMember) := by
  rw [print, printMembers_eq, recordText, objectText]

/-- What is written is a value. -/
theorem value_print {v : Json} (writable : Writable v) : Value v.print := by
  induction writable with
  | null => exact .null
  | bool b => cases b with
    | true => exact .yes
    | false => exact .no
  | whole least most =>
      rcases print_whole least most with ⟨m, -, -, chars⟩ | ⟨m, -, -, chars⟩
      · exact chars ▸ .number (unsigned_natChars m)
      · exact chars ▸ .negative (unsigned_natChars m)
  | text s => exact .text (quotable_flatMap s.toList)
  | @array items each ih =>
      rw [print_array]
      exact .list noBlanks (List.forall_mem_map.mpr ih)
  | @object members keys each ih =>
      rw [print_object]
      exact value_recordText noBlanks (List.forall_mem_map.mpr ih)

theorem skip_print {v : Json} (writable : Writable v) {rest : List Char} (ends : EndsNumber rest) :
    skip (v.print ++ rest) = .ok rest :=
  (value_print writable).skip ends

/-! ## Lists and objects -/

/-- A reader that takes each item of a written list in takes the list in. -/
theorem readItems_printItems {α : Type} {item : Reader α} {items : List Json} {as : List α}
    (starts : ∀ v ∈ items, ∀ rest, StartsValue (v.print ++ rest))
    (taken : List.Forall₂ (fun v a => TakesIn item v.print a) items as) (rest : List Char) :
    readItems item (printItems items ++ rest) = .ok (as, rest) := by
  rw [printItems_eq]
  exact readItems_enclosed (List.forall_mem_map.mpr starts)
    (List.forall₂_map_left_iff.mpr taken) noBlanks rest

theorem GoesThrough.written {σ : Type} {member : String → σ → Reader σ} {m : String × Json}
    {members : List (String × Json)} {before state after : σ}
    (head : TakesIn (member m.1 before) (':' :: m.2.print) state)
    (others : GoesThrough member (members.map writtenMember) state after) :
    GoesThrough member ((m :: members).map writtenMember) before after :=
  .cons head others

/-- A reader of members that goes through written members takes their object in. -/
theorem readMembers_printMembers {σ : Type} {member : String → σ → Reader σ}
    {members : List (String × Json)} {before after : σ}
    (through : GoesThrough member (members.map writtenMember) before after) (rest : List Char) :
    readMembers member before (printMembers members ++ rest) = .ok (after, rest) := by
  rw [printMembers_eq]
  exact readMembers_enclosed through noBlanks rest

/-! ## Free values -/

theorem readWith_digit {value : String → Except Fault Json} {c : Char}
    (digit : isDigit c = true) (depth : Nat) (cs : List Char) :
    readWith value depth (c :: cs) = readNumber false (c :: cs) := by
  rw [readWith.eq_def, skipSpace_cons (isSpace_of_isDigit digit)]
  split
  case h_1 same => cases same
  case h_9 same =>
    obtain ⟨rfl, rfl⟩ := List.cons.inj same
    exact if_pos digit
  all_goals
    rename_i same
    obtain ⟨rfl, -⟩ := List.cons.inj same
    cases digit

theorem takesIn_readWith_whole (value : String → Except Fault Json) (depth : Nat) {n : Int}
    (least : -int64Bound ≤ n) (most : n < wordBound) :
    TakesIn (readWith value depth) (Json.whole n).print (.whole n) := by
  intro rest ends
  rcases print_whole least most with ⟨m, form, rfl, chars⟩ | ⟨m, form, rfl, chars⟩
  · obtain ⟨c, ds, digits, digit⟩ := natChars_cons m
    have number := readMagnitude_natChars form ends
    rw [chars, digits, List.cons_append, readWith_digit digit, readNumber]
    rw [digits, List.cons_append] at number
    rw [number]
    rfl
  · rw [chars, List.cons_append, readWith.eq_def, skipSpace_cons rfl]
    change (readMagnitude true (natChars m ++ rest) >>= fun read =>
      .ok (read.1.toJson, read.2)) = _
    rw [readMagnitude_natChars form ends]
    rfl

theorem takesIn_whole (depth : Nat) {n : Int} (least : -int64Bound ≤ n) (most : n < wordBound) :
    TakesIn (read depth) (Json.whole n).print (.whole n) :=
  fun rest ends => takesIn_readWith_whole _ depth least most rest ends

theorem readWith_text (value : String → Except Fault Json) (depth : Nat) (s : String)
    (rest : List Char) :
    readWith value depth (quoteChars s.toList ++ rest) = .ok (.text s, rest) := by
  rw [quoteChars_append, readWith.eq_def, skipSpace_cons rfl]
  change (readQuoted _ >>= fun read => .ok (Json.text read.1, read.2)) = _
  rw [readQuoted_quoted]
  rfl

theorem nextKey_quoted (key : String) (rest : List Char) :
    nextKey true (quoteChars key.toList ++ rest) = .ok (some key, rest) := by
  rw [quoteChars_append]
  change nextKey.key _ = _
  rw [nextKey.key, readQuoted_quoted]
  rfl

/-- Under another key than that of embedded texts stands an ordinary member. -/
theorem embedded?_quoted {key : String} (ordinary : key ≠ embeddedKey) (rest : List Char) :
    embedded? (quoteChars key.toList ++ rest) = none := by
  rw [embedded?, nextKey_quoted]
  exact if_neg ordinary

theorem takesIn_readMember_text (value : String → Except Fault Json) (depth : Nat) (key : String)
    (members : List (String × Json)) (s : String) :
    TakesIn (readMember value depth key members) (':' :: (Json.text s).print)
      (insertMember key (.text s) members) := by
  intro rest _
  have colon :
      readColon (':' :: (quoteChars s.toList ++ rest)) = .ok (quoteChars s.toList ++ rest) := rfl
  rw [print, List.cons_append, readMember, colon]
  change (readWith value depth (quoteChars s.toList ++ rest) >>= fun read => _) = _
  rw [readWith_text]
  rfl

/-- An object without an embedded text is read member by member. -/
theorem readWith_object {body : List Char} (plain : embedded? body = none)
    (value : String → Except Fault Json) (depth : Nat) :
    readWith value (depth + 1) ('{' :: body) =
      readMembers (readMember value depth) [] body >>= fun read =>
        .ok (.object read.1, read.2) := by
  rw [readWith.eq_def, skipSpace_cons rfl]
  simp only [plain]
  rfl

/-- An object that holds one text is read as it was written. -/
theorem parse_compact_text_member {key : String} (ordinary : key ≠ embeddedKey) (s : String) :
    parse (Json.object [(key, .text s)]).compact = .ok (.object [(key, .text s)]) := by
  have plain : embedded? (printMembers [(key, .text s)]) = none := by
    rw [printMembers_cons]
    exact embedded?_quoted ordinary _
  have inside (value : String → Except Fault Json) :
      readMembers (readMember value 126) [] (printMembers [(key, .text s)] ++ []) =
        .ok ([(key, .text s)], []) :=
    readMembers_printMembers (.written (takesIn_readMember_text value 126 key [] s) (.nil _)) []
  rw [List.append_nil] at inside
  rw [parse, parseWithin, readAll, compact, String.toList_ofList, print, read, depthLimit,
    readWith_object plain, inside]
  rfl
end GrantConsole.Json
