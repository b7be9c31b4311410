import GrantConsole.Json.Free
import GrantConsole.Proofs.Json.Passing

/-!
# Free values, by what they start with

Whatever is read as a free value is one of nine forms, told apart by the first character and, for
objects, by the first key. Each of them can be passed over.
-/

namespace GrantConsole.Json

open GrantConsole.Text

theorem wrongKind_number_ne_ok {α : Type} {wanted : String} {negative : Bool} {cs : List Char}
    {a : α} : wrongKind.number wanted negative cs ≠ .ok a := by
  intro told
  obtain ⟨⟨n, rest⟩, -, told⟩ := bind_eq_ok.mp told
  cases n <;> cases told

theorem wrongKind_ne_ok {α : Type} {wanted : String} {cs : List Char} {a : α} :
    wrongKind wanted cs ≠ .ok a := by
  intro told
  unfold wrongKind at told
  split at told
  case h_5 => exact wrongKind_number_ne_ok told
  case h_9 =>
    split at told
    · exact wrongKind_number_ne_ok told
    · cases told
  case h_2 | h_3 | h_4 | h_6 =>
    obtain ⟨_, -, told⟩ := bind_eq_ok.mp told
    cases told
  all_goals cases told

theorem readText_eq_ok {wanted s : String} {cs rest : List Char}
    (read : readText wanted cs = .ok (s, rest)) :
    ∃ body, skipSpace cs = '"' :: body ∧ readQuoted body = .ok (s, rest) := by
  unfold readText at read
  split at read
  · exact ⟨_, ‹_›, read⟩
  · exact absurd read wrongKind_ne_ok

/-! ## The forms -/

theorem readNumber_eq_ok {negative : Bool} {cs rest : List Char} {v : Json}
    (read : readNumber negative cs = .ok (v, rest)) :
    ∃ n, readMagnitude negative cs = .ok (n, rest) ∧ v = n.toJson := by
  obtain ⟨⟨n, after⟩, number, same⟩ := bind_eq_ok.mp read
  cases same
  exact ⟨n, number, rfl⟩

theorem endObject_eq_ok {cs rest : List Char} (ended : endObject cs = .ok rest) :
    skipSpace cs = '}' :: rest := by
  unfold endObject at ended
  split at ended
  · cases ended
  · cases ended
    assumption
  · cases ended
  · cases ended

theorem embedded?_eq_some {cs rest : List Char} (found : embedded? cs = some rest) :
    nextKey true cs = .ok (some embeddedKey, rest) := by
  unfold embedded? at found
  split at found
  · rename_i next
    split at found
    · rename_i same
      cases found
      rw [next, same]
    · cases found
  · cases found

theorem readEmbedded_eq_ok {value : String → Except Fault Json} {cs rest : List Char} {v : Json}
    (read : readEmbedded value cs = .ok (v, rest)) :
    ∃ text body s after, readColon cs = .ok text ∧ skipSpace text = '"' :: body ∧
      readQuoted body = .ok (s, after) ∧ value s = .ok v ∧ skipSpace after = '}' :: rest := by
  obtain ⟨text, colon, read⟩ := bind_eq_ok.mp read
  obtain ⟨⟨s, after⟩, quoted, read⟩ := bind_eq_ok.mp read
  obtain ⟨v', valued, read⟩ := bind_eq_ok.mp read
  obtain ⟨rest', ended, same⟩ := bind_eq_ok.mp read
  cases same
  obtain ⟨body, start, quoted⟩ := readText_eq_ok quoted
  exact ⟨text, body, s, after, colon, start, quoted, valued, endObject_eq_ok ended⟩

/-- The readers of the members of a free object. -/
def readMember (value : String → Except Fault Json) (depth : Nat) (key : String)
    (members : List (String × Json)) : Reader (List (String × Json)) := fun cs => do
  let cs ← readColon cs
  let (v, cs) ← readWith value depth cs
  .ok (insertMember key v members, cs)

theorem readMember_eq_ok {value : String → Except Fault Json} {depth : Nat} {key : String}
    {before after : List (String × Json)} {cs rest : List Char}
    (read : readMember value depth key before cs = .ok (after, rest)) :
    ∃ text v, readColon cs = .ok text ∧ readWith value depth text = .ok (v, rest) ∧
      after = insertMember key v before := by
  obtain ⟨text, colon, read⟩ := bind_eq_ok.mp read
  obtain ⟨⟨v, rest'⟩, read, same⟩ := bind_eq_ok.mp read
  cases same
  exact ⟨text, v, colon, read, rfl⟩

/-- What a free value is, by the character that it starts with. -/
inductive FreeValue (value : String → Except Fault Json) :
    (depth : Nat) → (text : List Char) → Json → (rest : List Char) → Prop
  | null {depth body rest} (word : readWord ['u', 'l', 'l'] body = .ok rest) :
      FreeValue value depth ('n' :: body) .null rest
  | yes {depth body rest} (word : readWord ['r', 'u', 'e'] body = .ok rest) :
      FreeValue value depth ('t' :: body) (.bool true) rest
  | no {depth body rest} (word : readWord ['a', 'l', 's', 'e'] body = .ok rest) :
      FreeValue value depth ('f' :: body) (.bool false) rest
  | negative {depth body rest n} (number : readMagnitude true body = .ok (n, rest)) :
      FreeValue value depth ('-' :: body) n.toJson rest
  | digits {depth c ds rest n} (digit : isDigit c = true)
      (number : readMagnitude false (c :: ds) = .ok (n, rest)) :
      FreeValue value depth (c :: ds) n.toJson rest
  | text {depth body rest s} (quoted : readQuoted body = .ok (s, rest)) :
      FreeValue value depth ('"' :: body) (.text s) rest
  | array {depth body rest items}
      (list : readItems (readWith value depth) body = .ok (items, rest)) :
      FreeValue value (depth + 1) ('[' :: body) (.array items) rest
  | embedded {depth body inner rest v} (next : nextKey true body = .ok (some embeddedKey, inner))
      (read : readEmbedded value inner = .ok (v, rest)) :
      FreeValue value (depth + 1) ('{' :: body) v rest
  | object {depth body rest members} (plain : embedded? body = none)
      (object : readMembers (readMember value depth) [] body = .ok (members, rest)) :
      FreeValue value (depth + 1) ('{' :: body) (.object members) rest

theorem freeValue_of_readWith {value : String → Except Fault Json} {depth : Nat}
    {cs rest : List Char} {v : Json} (read : readWith value depth cs = .ok (v, rest)) :
    FreeValue value depth (skipSpace cs) v rest := by
  unfold readWith at read
  generalize skipSpace cs = text at read ⊢
  split at read
  · cases read
  · obtain ⟨rest', word, same⟩ := bind_eq_ok.mp read
    cases same
    exact .null word
  · obtain ⟨rest', word, same⟩ := bind_eq_ok.mp read
    cases same
    exact .yes word
  · obtain ⟨rest', word, same⟩ := bind_eq_ok.mp read
    cases same
    exact .no word
  · obtain ⟨n, number, rfl⟩ := readNumber_eq_ok read
    exact .negative number
  · obtain ⟨⟨s, rest'⟩, quoted, same⟩ := bind_eq_ok.mp read
    cases same
    exact .text quoted
  · cases depth with
    | zero => cases read
    | succ depth =>
        obtain ⟨⟨items, rest'⟩, list, same⟩ := bind_eq_ok.mp read
        cases same
        exact .array list
  · cases depth with
    | zero => cases read
    | succ depth =>
        split at read
        · contradiction
        · rename_i same found
          cases same
          exact .embedded (embedded?_eq_some found) read
        · rename_i same plain
          cases same
          obtain ⟨⟨members, rest'⟩, object, same⟩ := bind_eq_ok.mp read
          cases same
          exact .object plain object
  · split at read
    · rename_i digit
      obtain ⟨n, number, rfl⟩ := readNumber_eq_ok read
      exact .digits digit number
    · cases read

theorem readWith_skipSpace (value : String → Except Fault Json) (depth : Nat) (cs : List Char) :
    readWith value depth (skipSpace cs) = readWith value depth cs := by
  rw [readWith.eq_def, skipSpace_skipSpace, ← readWith.eq_def]

/-! ### By the first character -/

namespace FreeValue

variable {value : String → Except Fault Json} {depth : Nat} {body rest : List Char} {v : Json}

theorem eq_null (free : FreeValue value depth ('n' :: body) v rest) : v = .null := by
  cases free with
  | null word => rfl
  | digits digit number => cases digit

theorem eq_true (free : FreeValue value depth ('t' :: body) v rest) : v = .bool true := by
  cases free with
  | yes word => rfl
  | digits digit number => cases digit

theorem eq_false (free : FreeValue value depth ('f' :: body) v rest) : v = .bool false := by
  cases free with
  | no word => rfl
  | digits digit number => cases digit

theorem eq_text (free : FreeValue value depth ('"' :: body) v rest) :
    ∃ s, readQuoted body = .ok (s, rest) ∧ v = .text s := by
  cases free with
  | text quoted => exact ⟨_, quoted, rfl⟩
  | digits digit number => cases digit

theorem eq_negative (free : FreeValue value depth ('-' :: body) v rest) :
    ∃ n, readMagnitude true body = .ok (n, rest) ∧ v = n.toJson := by
  cases free with
  | negative number => exact ⟨_, number, rfl⟩
  | digits digit number => cases digit

theorem eq_digits {c : Char} (digit : isDigit c = true)
    (free : FreeValue value depth (c :: body) v rest) :
    ∃ n, readMagnitude false (c :: body) = .ok (n, rest) ∧ v = n.toJson := by
  cases free with
  | digits _ number => exact ⟨_, number, rfl⟩
  | _ => cases digit

theorem eq_array {less : Nat} (free : FreeValue value (less + 1) ('[' :: body) v rest) :
    ∃ items, readItems (readWith value less) body = .ok (items, rest) ∧ v = .array items := by
  cases free with
  | array list => exact ⟨_, list, rfl⟩
  | digits digit number => cases digit

/-- After a brace stands an object, or an embedded text. -/
theorem eq_object {less : Nat} (free : FreeValue value (less + 1) ('{' :: body) v rest) :
    (∃ inner, nextKey true body = .ok (some embeddedKey, inner) ∧
        readEmbedded value inner = .ok (v, rest)) ∨
      ∃ members, readMembers (readMember value less) [] body = .ok (members, rest) ∧
        v = .object members := by
  cases free with
  | embedded next read => exact .inl ⟨_, next, read⟩
  | object plain object => exact .inr ⟨_, object, rfl⟩
  | digits digit number => cases digit

end FreeValue

theorem readsMembers_readMember {value : String → Except Fault Json} {depth : Nat}
    (inner : ReadsValues (readWith value depth)) : ReadsMembers (readMember value depth) := by
  intro key before cs after rest read
  obtain ⟨text, v, colon, read, -⟩ := readMember_eq_ok read
  exact ⟨text, colon, inner _ _ _ read⟩

theorem passes_embedded {value : String → Except Fault Json} {cs body inner rest : List Char}
    {v : Json} (start : skipSpace cs = '{' :: body)
    (next : nextKey true body = .ok (some embeddedKey, inner))
    (read : readEmbedded value inner = .ok (v, rest)) : Passes cs rest := by
  obtain ⟨text, quoted, s, after, colon, quote, read, -, ended⟩ := readEmbedded_eq_ok read
  refine passes_object_of_member start next colon (passes_quoted quote read) ⟨0, ?_⟩
  rw [skipMemberEnd, ended]
  rfl

theorem FreeValue.passes {value : String → Except Fault Json} {depth : Nat}
    (inner : ∀ less, depth = less + 1 → ReadsValues (readWith value less)) {cs rest : List Char}
    {v : Json} (free : FreeValue value depth (skipSpace cs) v rest) : Passes cs rest := by
  generalize start : skipSpace cs = text at free
  cases free with
  | null word => exact passes_null start word
  | yes word => exact passes_true start word
  | no word => exact passes_false start word
  | negative number => exact passes_negative start number
  | digits digit number => exact passes_digits start digit number
  | text quoted => exact passes_quoted start quoted
  | array list => exact passes_list (inner _ rfl) start list
  | embedded next read => exact passes_embedded start next read
  | object plain object =>
      exact passes_object (readsMembers_readMember (inner _ rfl)) start object

/-- A free value that can be read can be passed over. -/
theorem readsValues_readWith (value : String → Except Fault Json) (depth : Nat) :
    ReadsValues (readWith value depth) := by
  induction depth with
  | zero =>
      refine fun cs v rest read => (freeValue_of_readWith read).passes ?_
      rintro less same
      cases same
  | succ depth ih =>
      refine fun cs v rest read => (freeValue_of_readWith read).passes ?_
      rintro less same
      cases same
      exact ih

/-! ## More fuel -/

theorem readEmbedded_mono {value more : String → Except Fault Json}
    (each : ∀ s v, value s = .ok v → more s = .ok v) :
    ReadsMore (readEmbedded value) (readEmbedded more) := by
  intro cs v rest read
  obtain ⟨text, colon, read⟩ := bind_eq_ok.mp read
  obtain ⟨⟨s, after⟩, quoted, read⟩ := bind_eq_ok.mp read
  obtain ⟨v', inner, ended⟩ := bind_eq_ok.mp read
  refine bind_eq_ok.mpr ⟨_, colon, bind_eq_ok.mpr ⟨_, quoted, ?_⟩⟩
  exact bind_eq_ok.mpr ⟨_, each _ _ inner, ended⟩

theorem readMember_mono {value more : String → Except Fault Json} {depth : Nat}
    (each : ReadsMore (readWith value depth) (readWith more depth)) (key : String)
    (members : List (String × Json)) :
    ReadsMore (readMember value depth key members) (readMember more depth key members) := by
  intro cs after rest read
  obtain ⟨text, colon, read⟩ := bind_eq_ok.mp read
  obtain ⟨⟨v, rest'⟩, value, same⟩ := bind_eq_ok.mp read
  exact bind_eq_ok.mpr ⟨_, colon, bind_eq_ok.mpr ⟨_, each _ _ _ value, same⟩⟩

/-- With the values of more texts known, all that could be read is read the same. -/
theorem readWith_mono {value more : String → Except Fault Json}
    (each : ∀ s v, value s = .ok v → more s = .ok v) (depth : Nat) :
    ReadsMore (readWith value depth) (readWith more depth) := by
  induction depth with
  | zero =>
      intro cs v rest read
      rw [readWith.eq_def] at read ⊢
      generalize skipSpace cs = text at read ⊢
      split at read
      case h_7 | h_8 => cases read
      all_goals exact read
  | succ depth ih =>
      intro cs v rest read
      rw [readWith.eq_def] at read ⊢
      generalize skipSpace cs = text at read ⊢
      split at read
      case h_7 =>
        obtain ⟨⟨items, rest'⟩, list, same⟩ := bind_eq_ok.mp read
        exact bind_eq_ok.mpr ⟨_, readItemsWith_mono ih _ _ _ _ _ list, same⟩
      case h_8 body =>
        dsimp only at read ⊢
        cases found : embedded? body with
        | some inner =>
          rw [found] at read
          exact readEmbedded_mono each _ _ _ read
        | none =>
          rw [found] at read
          obtain ⟨⟨members, rest'⟩, object, same⟩ := bind_eq_ok.mp read
          have object := readMembersWith_mono (readMember_mono ih) _ _ _ _ _ _ object
          exact bind_eq_ok.mpr ⟨_, object, same⟩
      all_goals exact read

theorem embeddedValue_mono {fuel more : Nat} (le : fuel ≤ more) {s : String} {v : Json}
    (value : embeddedValue fuel s = .ok v) : embeddedValue more s = .ok v := by
  induction fuel generalizing more s v with
  | zero => cases value
  | succ fuel ih =>
      obtain ⟨more, rfl⟩ := Nat.exists_eq_succ_of_ne_zero (Nat.ne_zero_of_lt le)
      obtain ⟨⟨v', rest⟩, read, ended⟩ := bind_eq_ok.mp value
      have each : ∀ s v, embeddedValue fuel s = .ok v → embeddedValue more s = .ok v :=
        fun s v value => ih (Nat.le_of_succ_le_succ le) value
      exact bind_eq_ok.mpr ⟨_, readWith_mono each depthLimit _ _ _ read, ended⟩

/-- However much fuel there is for embedded texts, what can be read is read the same. -/
theorem readWith_unique {fuel fuel' depth : Nat} {cs rest rest' : List Char} {v v' : Json}
    (read : readWith (embeddedValue fuel) depth cs = .ok (v, rest))
    (read' : readWith (embeddedValue fuel') depth cs = .ok (v', rest')) : v = v' := by
  have one := readWith_mono
    (fun s v => embeddedValue_mono (Nat.le_max_left fuel fuel')) depth _ _ _ read
  have other := readWith_mono
    (fun s v => embeddedValue_mono (Nat.le_max_right fuel fuel')) depth _ _ _ read'
  cases one.symm.trans other
  rfl

end GrantConsole.Json
