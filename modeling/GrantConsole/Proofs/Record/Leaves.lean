import GrantConsole.Proofs.Json.Decided
import GrantConsole.Proofs.Record.Passing
import GrantConsole.Proofs.Record.Written

/-!
# Values without parts, whatever follows

What is read as a text, a flag, a number or a choice is read so wherever it stands: it is taken in
from its own text, and what follows is left.
-/

namespace GrantConsole.Record

open GrantConsole.Json GrantConsole.Number GrantConsole.Text

/-- A value that is taken in in one place is taken in wherever it stands. -/
def Portable {α : Type} (reader : Reader α) : Prop :=
  ∀ v a, Value v → TakesInOnce reader v a → TakesIn reader v a

section Start

variable {v tail body : List Char} {c : Char}

theorem skipSpace_value (value : Value v) : skipSpace (v ++ tail) = v ++ tail :=
  (value.startsValue tail).skipSpace

/-- A text is its quotes and what is between them. -/
theorem quoted_of_start {s : String} (start : v ++ tail = '"' :: body)
    (read : readQuoted body = .ok (s, tail)) :
    ∃ text, v = '"' :: text ∧ ∀ rest, readQuoted (text ++ rest) = .ok (s, rest) := by
  obtain ⟨text, rfl, whatever⟩ := exact_readQuoted _ _ _ read
  exact ⟨text, List.append_cancel_right start, whatever⟩

theorem word_of_start {word : List Char} (start : v ++ tail = c :: body)
    (read : readWord word body = .ok tail) : v = c :: word := by
  rw [readWord_eq_ok read] at start
  exact List.append_cancel_right start

end Start

theorem portable_readText (wanted : String) : Portable (readText wanted) := by
  rintro v s value ⟨tail, -, read⟩
  obtain ⟨body, start, read⟩ := readText_eq_ok read
  rw [skipSpace_value value] at start
  obtain ⟨text, rfl, whatever⟩ := quoted_of_start start read
  exact fun rest _ => whatever rest

theorem portable_readFlag : Portable readFlag := by
  rintro v b value ⟨tail, -, read⟩
  unfold readFlag at read
  rw [skipSpace_value value] at read
  split at read
  · rename_i start
    obtain ⟨rest, word, same⟩ := bind_eq_ok.mp read
    cases same
    rw [word_of_start start word]
    exact fun _ _ => rfl
  · rename_i start
    obtain ⟨rest, word, same⟩ := bind_eq_ok.mp read
    cases same
    rw [word_of_start start word]
    exact fun _ _ => rfl
  · exact absurd read wrongKind_ne_ok

theorem takesIn_readReal {negative : Bool} {cs : List Char} {n : Numeral}
    (taken : TakesIn (readMagnitude negative) cs n) :
    TakesIn (readReal negative) cs (Numeral.toReal n) := by
  intro rest ends
  rw [readReal, taken rest ends]
  rfl

theorem portable_readAmount : Portable readAmount := by
  rintro v x value ⟨tail, ends, read⟩
  unfold readAmount at read
  rw [skipSpace_value value] at read
  split at read
  · rename_i start
    obtain ⟨cs, rfl, unsigned, rfl⟩ := value.negative_of_start start
    obtain ⟨n, number, rfl⟩ := readReal_eq_ok read
    exact takesIn_readReal ((unsigned.decides true).takesIn ends number)
  · rename_i start
    split at read
    · rename_i digit
      have unsigned := value.unsigned_of_start start digit
      obtain ⟨n, number, rfl⟩ := readReal_eq_ok read
      rw [← start] at number
      have taken := takesIn_readReal ((unsigned.decides false).takesIn ends number)
      intro rest' ends'
      obtain ⟨c, ds, rfl, digit⟩ := unsigned.exists_cons
      rw [← taken rest' ends', List.cons_append, readAmount_digit digit]
    · exact absurd read wrongKind_ne_ok
  · cases read

/-! ## Choices -/

section Choices

variable {α : Type} {spell : α → String} {choices : List α}

/-- A choice that stands as an object. -/
theorem readChoice_object {depth : Nat} {cs body quoted between text after rest : List Char}
    {s : String} {a : α} (start : skipSpace cs = '{' :: body)
    (quote : skipSpace body = '"' :: quoted) (key : readQuoted quoted = .ok (s, between))
    (chosen : chooseSpelled spell choices s = .ok a) (colon : readColon between = .ok text)
    (unit : readUnit text = .ok ((), after)) (ended : skipSpace after = '}' :: rest) :
    readChoice spell choices (depth + 1) cs = .ok (a, rest) := by
  have named : readText "variant identifier" body = .ok (s, between) := by
    rw [readText, quote]
    exact key
  rw [readChoice, start]
  refine (if_neg (Nat.succ_ne_zero depth)).trans ?_
  refine bind_eq_ok.mpr ⟨_, named, bind_eq_ok.mpr ⟨_, chosen, bind_eq_ok.mpr ⟨_, colon, ?_⟩⟩⟩
  refine bind_eq_ok.mpr ⟨_, unit, ?_⟩
  dsimp only
  rw [ended]
  rfl

theorem portable_readChoice (depth : Nat) : Portable (readChoice spell choices depth) := by
  rintro v a value ⟨tail, -, read⟩
  rcases readChoice_eq_ok read with ⟨body, s, start, quoted, chosen⟩ |
    ⟨less, body, quoted, s, between, text, after, rfl, start, quote, key, chosen, colon, unit,
      ended⟩
  · rw [skipSpace_value value] at start
    obtain ⟨text, rfl, whatever⟩ := quoted_of_start start quoted
    intro rest _
    exact bind_eq_ok.mpr ⟨_, whatever rest, bind_eq_ok.mpr ⟨_, chosen, rfl⟩⟩
  · obtain ⟨first, rfl⟩ := exists_blanks_of_start quote
    obtain ⟨name, rfl, whatever⟩ := exact_readQuoted _ _ _ key
    obtain ⟨second, rfl⟩ := exists_blanks_of_start (readColon_eq_ok colon)
    obtain ⟨word, null, letters⟩ := readUnit_eq_ok unit
    obtain ⟨third, rfl⟩ := exists_blanks_of_start null
    obtain rfl := readWord_eq_ok letters
    obtain ⟨last, rfl⟩ := exists_blanks_of_start ended
    rw [skipSpace_value value] at start
    obtain rfl : v = '{' :: (first.chars ++ '"' :: (name ++ (second.chars ++ ':' ::
        (third.chars ++ 'n' :: (['u', 'l', 'l'] ++ (last.chars ++ ['}'])))))) := by
      refine List.append_cancel_right (start.trans ?_)
      simp
    intro rest _
    simp only [List.cons_append, List.append_assoc]
    refine readChoice_object (skipSpace_cons rfl _) (first.skipSpace_cons_append rfl _)
      (whatever _) chosen (second.readColon_colon _) ?_ (last.skipSpace_cons_append rfl _)
    rw [readUnit, third.skipSpace_cons_append rfl]
    rfl

end Choices

/-! ## Embedded texts -/

/-- The text is an object whose only member is an embedded text. -/
inductive Embeds : List Char → String → Prop
  | mk (before first second third last : Blanks) {name content : List Char} {s : String}
      (key : ∀ rest, readQuoted (name ++ rest) = .ok (embeddedKey, rest))
      (quoted : ∀ rest, readQuoted (content ++ rest) = .ok (s, rest)) :
      Embeds (before.chars ++ '{' :: (first.chars ++ '"' :: (name ++ (second.chars ++
        ':' :: (third.chars ++ '"' :: (content ++ (last.chars ++ ['}']))))))) s

theorem readWith_embedded {value : String → Except Fault Json} {depth : Nat}
    {cs body inner : List Char} (start : skipSpace cs = '{' :: body)
    (next : nextKey true body = .ok (some embeddedKey, inner)) :
    readWith value (depth + 1) cs = readEmbedded value inner := by
  have found : embedded? body = some inner := by
    rw [embedded?, next]
    exact if_pos rfl
  rw [readWith.eq_def, start]
  simp only [found]

theorem Embeds.length_lt {text : List Char} {s : String} (embeds : Embeds text s) :
    s.toList.length < text.length := by
  obtain ⟨_, _, _, _, _, -, quoted⟩ := embeds
  have shorter := length_lt_of_readQuoted (quoted [])
  simp only [List.length_append, List.length_cons, List.length_nil] at shorter ⊢
  omega

theorem Embeds.readWith {text : List Char} {s : String} (embeds : Embeds text s)
    {value : String → Except Fault Json} {v : Json} (valued : value s = .ok v) (depth : Nat)
    (rest : List Char) : readWith value (depth + 1) (text ++ rest) = .ok (v, rest) := by
  obtain ⟨before, first, second, third, last, key, quoted⟩ := embeds
  simp only [List.append_assoc, List.cons_append, List.nil_append]
  rw [readWith_embedded (before.skipSpace_cons_append rfl _)
    (nextKey_of_quoted (first.skipSpace_cons_append rfl _) (key _))]
  refine bind_eq_ok.mpr ⟨_, second.readColon_colon _, bind_eq_ok.mpr
    ⟨(s, last.chars ++ '}' :: rest), ?_,
      bind_eq_ok.mpr ⟨v, valued, bind_eq_ok.mpr ⟨rest, ?_, rfl⟩⟩⟩⟩
  · rw [readText, third.skipSpace_cons_append rfl]
    exact quoted _
  · rw [endObject, last.skipSpace_cons_append rfl]
    rfl

theorem embeds_of_readEmbedded {value : String → Except Fault Json} {cs body inner rest : List Char}
    {v : Json} (start : skipSpace cs = '{' :: body)
    (next : nextKey true body = .ok (some embeddedKey, inner))
    (read : readEmbedded value inner = .ok (v, rest)) :
    ∃ text s, cs = text ++ rest ∧ Embeds text s ∧ value s = .ok v := by
  obtain ⟨before, rfl⟩ := exists_blanks_of_start start
  obtain ⟨quoted, quote, named⟩ := nextKey_eq_first next
  obtain ⟨first, rfl⟩ := exists_blanks_of_start quote
  obtain ⟨name, rfl, key⟩ := exact_readQuoted _ _ _ named
  obtain ⟨text, content, s, after, colon, quote', saying, valued, ended⟩ := readEmbedded_eq_ok read
  obtain ⟨second, rfl⟩ := exists_blanks_of_start (readColon_eq_ok colon)
  obtain ⟨third, rfl⟩ := exists_blanks_of_start quote'
  obtain ⟨content, rfl, whatever⟩ := exact_readQuoted _ _ _ saying
  obtain ⟨last, rfl⟩ := exists_blanks_of_start ended
  exact ⟨_, s, by simp, .mk before first second third last key whatever, valued⟩

/-! ## Whole numbers -/

theorem readWith_negative {value : String → Except Fault Json} {depth : Nat} {cs body : List Char}
    (start : skipSpace cs = '-' :: body) : Json.readWith value depth cs = readNumber true body := by
  rw [readWith.eq_def, start]
  rfl

/-- A value that may be taken as a whole number is a number, or stands in an embedded text. -/
theorem readWith_coerced {value : String → Except Fault Json} {depth : Nat} {cs rest : List Char}
    {v : Json} {n : Int64} (read : Json.readWith value depth cs = .ok (v, rest))
    (coerced : coerceWhole v = .ok n) :
    (∀ other, Json.readWith other depth cs = .ok (v, rest)) ∨
      ∃ less text s, depth = less + 1 ∧ cs = text ++ rest ∧ Embeds text s ∧ value s = .ok v := by
  have free := freeValue_of_readWith read
  generalize start : skipSpace cs = text at free
  cases free with
  | null | yes | no | text | array | object => cases coerced
  | negative number =>
      refine .inl fun other => ?_
      rw [readWith_negative start, readNumber, number]
      rfl
  | digits digit number =>
      refine .inl fun other => ?_
      rw [← readWith_skipSpace, start, readWith_digit digit, readNumber, number]
      rfl
  | @embedded less body inner rest v next embedded =>
      obtain ⟨text, s, split, embeds, valued⟩ := embeds_of_readEmbedded start next embedded
      exact .inr ⟨less, text, s, rfl, split, embeds, valued⟩

/-- A whole number in an embedded text is read with as much fuel as the text is long. -/
theorem embeddedValue_enough {fuel more : Nat} {s : String} {v : Json} {n : Int64}
    (valued : embeddedValue fuel s = .ok v) (coerced : coerceWhole v = .ok n)
    (enough : s.toList.length < more) : embeddedValue more s = .ok v := by
  induction more generalizing fuel s with
  | zero => exact absurd enough (Nat.not_lt_zero _)
  | succ more ih =>
      cases fuel with
      | zero => cases valued
      | succ fuel =>
          obtain ⟨⟨v', rest⟩, read, ended⟩ := bind_eq_ok.mp valued
          obtain ⟨_, blank, same⟩ := bind_eq_ok.mp ended
          cases same
          refine bind_eq_ok.mpr ⟨(v, rest), ?_, ended⟩
          rcases readWith_coerced read coerced with
            whatever | ⟨less, text, s', deep, split, embeds, inner⟩
          · exact whatever _
          · have shorter := embeds.length_lt
            rw [split, List.length_append] at enough
            have inner := ih inner (by omega)
            rw [split, deep]
            exact embeds.readWith inner less rest

theorem takesIn_readNumber {negative : Bool} {cs : List Char} {n : Numeral}
    (taken : TakesIn (readMagnitude negative) cs n) :
    TakesIn (readNumber negative) cs n.toJson := by
  intro rest ends
  rw [readNumber, taken rest ends]
  rfl

theorem portable_whole (depth : Nat) : Portable (Shape.whole.read depth) := by
  rintro v n value ⟨tail, ends, read⟩
  obtain ⟨j, found, coerced⟩ := read_whole_eq_ok read
  refine takesIn_coerced ?_ coerced
  have free := freeValue_of_readWith found
  rw [skipSpace_value value] at free
  generalize start : v ++ tail = text at free
  cases free with
  | null | yes | no | text | array | object => cases coerced
  | negative number =>
      obtain ⟨cs, rfl, unsigned, rfl⟩ := value.negative_of_start start
      have taken := takesIn_readNumber ((unsigned.decides true).takesIn ends number)
      intro rest' ends'
      exact (readWith_negative (skipSpace_cons rfl _)).trans (taken rest' ends')
  | digits digit number =>
      have unsigned := value.unsigned_of_start start digit
      rw [← start] at number
      have taken := takesIn_readNumber ((unsigned.decides false).takesIn ends number)
      obtain ⟨c, ds, rfl, digit⟩ := unsigned.exists_cons
      intro rest' ends'
      exact (readWith_digit digit depth _).trans (taken rest' ends')
  | embedded next embedded =>
      obtain ⟨text, s, split, embeds, valued⟩ :=
        embeds_of_readEmbedded ((skipSpace_value value).trans start) next embedded
      obtain rfl := List.append_cancel_right split
      intro rest' _
      refine embeds.readWith (embeddedValue_enough valued coerced ?_) _ rest'
      have shorter := embeds.length_lt
      rw [List.length_append]
      omega

/-! ## Blanks before a value -/

theorem readWith_enough {fuel more depth : Nat} {cs rest : List Char} {v : Json} {n : Int64}
    (read : Json.readWith (embeddedValue fuel) depth cs = .ok (v, rest))
    (coerced : coerceWhole v = .ok n) (enough : cs.length ≤ more) :
    Json.readWith (embeddedValue more) depth cs = .ok (v, rest) := by
  rcases readWith_coerced read coerced with whatever | ⟨less, text, s, rfl, rfl, embeds, valued⟩
  · exact whatever _
  · refine embeds.readWith (embeddedValue_enough valued coerced ?_) less rest
    have shorter := embeds.length_lt
    rw [List.length_append] at enough
    omega

theorem readWith_blanks (value : String → Except Fault Json) (depth : Nat) (blanks : Blanks)
    (cs : List Char) :
    Json.readWith value depth (blanks.chars ++ cs) = Json.readWith value depth cs := by
  rw [← readWith_skipSpace, blanks.skipSpace_append, readWith_skipSpace]

/-- Blanks before a value are passed over. -/
theorem Shape.read_blanks {α : Type} (shape : Shape α) (blanks : Blanks) {depth : Nat}
    {cs rest : List Char} {a : α} :
    shape.read depth (blanks.chars ++ cs) = .ok (a, rest) ↔
      shape.read depth cs = .ok (a, rest) := by
  cases shape with
  | whole =>
      have enough {text text' : List Char} (read : Shape.whole.read depth text = .ok (a, rest))
          (same : ∀ value, Json.readWith value depth text = Json.readWith value depth text') :
          Shape.whole.read depth text' = .ok (a, rest) := by
        obtain ⟨v, value, coerced⟩ := read_whole_eq_ok read
        rw [Json.read, same] at value
        exact bind_eq_ok.mpr ⟨_, readWith_enough value coerced (Nat.le_refl _),
          bind_eq_ok.mpr ⟨a, coerced, rfl⟩⟩
      constructor
      · exact fun read => enough read fun value => readWith_blanks value depth blanks cs
      · exact fun read => enough read fun value => (readWith_blanks value depth blanks cs).symm
  | text => rw [Shape.read, Shape.read, readText, blanks.skipSpace_append, ← readText]
  | flag => rw [Shape.read, Shape.read, readFlag, blanks.skipSpace_append, ← readFlag]
  | amount => rw [Shape.read, Shape.read, readAmount, blanks.skipSpace_append, ← readAmount]
  | choice spell choices =>
      rw [Shape.read, Shape.read, readChoice, blanks.skipSpace_append, ← readChoice]
  | _ =>
      rw [Shape.read.eq_def]
      dsimp only
      rw [blanks.skipSpace_append, ← Shape.read]

end GrantConsole.Record
