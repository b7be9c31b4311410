import GrantConsole.Proofs.Json.Written
import Mathlib.Data.String.Basic

/-!
# Free values, read again from their own text

The reader makes values whose whole numbers fit 64 bits and whose objects have increasing keys. The
text of such a value is read as the same value again, if it has no other numbers than these, nests
no deeper than can be read, and no object of it starts with the key of embedded texts.
-/

namespace GrantConsole.Json

open GrantConsole.Number GrantConsole.Text

/-- Minus zero, the only number without a point or an exponent that is not read as a whole one
although it fits. -/
def minusZero : Binary64 :=
  Binary64.withSign true 0

/-- The value is one that the reader makes. -/
inductive Settled : Json → Prop
  | null : Settled .null
  | bool (b : Bool) : Settled (.bool b)
  | whole {n : Int} (least : -int64Bound ≤ n) (most : n < wordBound) : Settled (.whole n)
  | real (x : Binary64) : Settled (.real x)
  | text (s : String) : Settled (.text s)
  | array {items : List Json} (each : ∀ v ∈ items, Settled v) : Settled (.array items)
  | object {members : List (String × Json)} (keys : (members.map Prod.fst).Pairwise (· < ·))
      (each : ∀ m ∈ members, Settled m.2) : Settled (.object members)

/-- The text of the value can be read as it stands: its numbers are whole or minus zero, its
containers nest so many deep at most, and no object starts with the key of embedded texts. -/
inductive Legible : (depth : Nat) → Json → Prop
  | null {depth : Nat} : Legible depth .null
  | bool {depth : Nat} (b : Bool) : Legible depth (.bool b)
  | whole {depth : Nat} (n : Int) : Legible depth (.whole n)
  | minusZero {depth : Nat} : Legible depth (.real minusZero)
  | text {depth : Nat} (s : String) : Legible depth (.text s)
  | array {depth : Nat} {items : List Json} (each : ∀ v ∈ items, Legible depth v) :
      Legible (depth + 1) (.array items)
  | object {depth : Nat} {members : List (String × Json)}
      (ordinary : ∀ m ∈ members.head?, m.1 ≠ embeddedKey)
      (each : ∀ m ∈ members, Legible depth m.2) : Legible (depth + 1) (.object members)

/-! ## What the reader makes -/

theorem takeDigits_fits {significand : Nat} (fits : significand < wordBound) (taken dropped : Nat)
    (cs : List Char) : (takeDigits significand taken dropped cs).1 < wordBound := by
  induction cs generalizing significand taken dropped with
  | nil => exact fits
  | cons c cs ih =>
    unfold takeDigits
    dsimp only
    split
    · rename_i next
      exact ih next.2 ..
    · exact ih fits ..

theorem readRealEnd_ne_whole {negative : Bool} {significand : Nat} {exponent n : Int}
    {cs rest : List Char} :
    readRealEnd negative significand exponent cs ≠ .ok (.whole n, rest) := by
  intro read
  unfold readRealEnd at read
  split at read
  · split at read
    · obtain ⟨_, -, read⟩ := bind_eq_ok.mp read
      obtain ⟨_, -, same⟩ := bind_eq_ok.mp read
      cases same
    · obtain ⟨_, -, same⟩ := bind_eq_ok.mp read
      cases same
  · obtain ⟨_, -, same⟩ := bind_eq_ok.mp read
    cases same

theorem whole_of_wholeEnd {negative : Bool} {significand : Nat} {n : Int} {cs rest : List Char}
    (fits : significand < wordBound)
    (read : readNumberEnd.wholeEnd negative significand cs = .ok (.whole n, rest)) :
    -int64Bound ≤ n ∧ n < wordBound := by
  unfold readNumberEnd.wholeEnd at read
  split at read
  · cases read
    omega
  · split at read
    · cases read
    · cases read
      omega

theorem whole_of_readNumberEnd {negative : Bool} {significand dropped : Nat} {n : Int}
    {cs rest : List Char} (fits : significand < wordBound)
    (read : readNumberEnd negative significand dropped cs = .ok (.whole n, rest)) :
    -int64Bound ≤ n ∧ n < wordBound := by
  unfold readNumberEnd at read
  split at read
  · dsimp only at read
    split at read
    · split at read <;> cases read
    · exact absurd read readRealEnd_ne_whole
  · split at read
    · exact absurd read readRealEnd_ne_whole
    · exact whole_of_wholeEnd fits read
  · split at read
    · exact absurd read readRealEnd_ne_whole
    · exact whole_of_wholeEnd fits read

/-- A number that is read as a whole one fits 64 bits. -/
theorem whole_of_readMagnitude {negative : Bool} {n : Int} {cs rest : List Char}
    (read : readMagnitude negative cs = .ok (.whole n, rest)) :
    -int64Bound ≤ n ∧ n < wordBound := by
  have none : 0 < wordBound := by decide
  unfold readMagnitude at read
  split at read
  · cases read
  · split at read
    · split at read
      · cases read
      · exact whole_of_readNumberEnd none read
    · exact whole_of_readNumberEnd none read
  · split at read
    · exact whole_of_readNumberEnd (takeDigits_fits none ..) read
    · cases read

theorem settled_toJson {negative : Bool} {n : Numeral} {cs rest : List Char}
    (read : readMagnitude negative cs = .ok (n, rest)) : Settled n.toJson := by
  cases n with
  | whole n =>
    obtain ⟨least, most⟩ := whole_of_readMagnitude read
    exact .whole least most
  | real x => exact .real x

/-- All items of a list have been read. -/
theorem read_of_mem {α : Type} {item : Reader α} {fuel : Nat} {first : Bool} {cs rest : List Char}
    {as : List α} (read : readItemsWith item fuel first cs = .ok (as, rest)) :
    ∀ a ∈ as, ∃ text after, item text = .ok (a, after) := by
  induction fuel generalizing first cs as with
  | zero => cases read
  | succ fuel ih =>
    rcases readItemsWith_eq_ok read with
      ⟨rfl, -⟩ | ⟨_, text, a, after, as, -, head, rfl, same, others⟩
    · nofun
    · cases same
      exact List.forall_mem_cons.mpr ⟨⟨text, after, head⟩, ih others⟩

/-- What every member keeps holds after all of them. -/
theorem readMembersWith_keeps {σ : Type} {member : String → σ → Reader σ} {kept : σ → Prop}
    (step : ∀ key s text s' after, kept s → member key s text = .ok (s', after) → kept s')
    {fuel : Nat} {first : Bool} {cs rest : List Char} {s s' : σ} (start : kept s)
    (read : readMembersWith member fuel first s cs = .ok (s', rest)) : kept s' := by
  induction fuel generalizing first cs s with
  | zero => cases read
  | succ fuel ih =>
    rcases readMembersWith_eq_ok read with
      ⟨rfl, -⟩ | ⟨_, key, text, between, after, -, head, same, others⟩
    · exact start
    · cases same
      exact ih (step key s text between after start head) others

theorem mem_insertMember {key : String} {v : Json} {members : List (String × Json)}
    {m : String × Json} (mem : m ∈ insertMember key v members) : m = (key, v) ∨ m ∈ members := by
  induction members with
  | nil => exact .inl (List.mem_singleton.mp mem)
  | cons first members ih =>
    obtain ⟨k, w⟩ := first
    unfold insertMember at mem
    split at mem
    · exact (List.mem_cons.mp mem).imp_right (List.mem_cons_of_mem _)
    · split at mem
      · exact List.mem_cons.mp mem
      · rcases List.mem_cons.mp mem with here | later
        · exact .inr (here ▸ List.mem_cons_self)
        · exact (ih later).imp_right (List.mem_cons_of_mem _)

/-- A member that is put in keeps the keys in increasing order. -/
theorem keys_insertMember (key : String) (v : Json) {members : List (String × Json)}
    (keys : (members.map Prod.fst).Pairwise (· < ·)) :
    ((insertMember key v members).map Prod.fst).Pairwise (· < ·) := by
  induction members with
  | nil => exact List.pairwise_singleton ..
  | cons first members ih =>
    obtain ⟨k, w⟩ := first
    obtain ⟨least, keys⟩ := List.pairwise_cons.mp keys
    unfold insertMember
    split
    · rename_i same
      exact List.pairwise_cons.mpr ⟨same ▸ least, keys⟩
    · rename_i other
      split
      · rename_i less
        refine List.pairwise_cons.mpr ⟨fun later mem => ?_, List.pairwise_cons.mpr ⟨least, keys⟩⟩
        rcases List.mem_cons.mp mem with rfl | mem
        · exact less
        · exact less.trans (least later mem)
      · rename_i notLess
        refine List.pairwise_cons.mpr ⟨fun later mem => ?_, ih keys⟩
        obtain ⟨m, inside, rfl⟩ := List.mem_map.mp mem
        rcases mem_insertMember inside with rfl | old
        · exact lt_of_le_of_ne (not_lt.mp notLess) (Ne.symm other)
        · exact least m.1 (List.mem_map_of_mem old)

theorem settled_of_readWith {value : String → Except Fault Json}
    (inner : ∀ s v, value s = .ok v → Settled v) {depth : Nat} {cs rest : List Char} {v : Json}
    (read : readWith value depth cs = .ok (v, rest)) : Settled v := by
  induction depth generalizing cs rest v with
  | zero =>
    have free := freeValue_of_readWith read
    generalize skipSpace cs = text at free
    cases free with
    | null word => exact .null
    | yes word => exact .bool true
    | no word => exact .bool false
    | negative number => exact settled_toJson number
    | digits digit number => exact settled_toJson number
    | text quoted => exact .text _
  | succ depth ih =>
    have free := freeValue_of_readWith read
    generalize skipSpace cs = text at free
    cases free with
    | null word => exact .null
    | yes word => exact .bool true
    | no word => exact .bool false
    | negative number => exact settled_toJson number
    | digits digit number => exact settled_toJson number
    | text quoted => exact .text _
    | array list =>
      refine .array fun v mem => ?_
      obtain ⟨text, after, read⟩ := read_of_mem list v mem
      exact ih read
    | embedded next read =>
      obtain ⟨_, _, s, _, -, -, -, valued, -⟩ := readEmbedded_eq_ok read
      exact inner s v valued
    | @object _ body _ members plain object =>
      let kept (members : List (String × Json)) : Prop :=
        (members.map Prod.fst).Pairwise (· < ·) ∧ ∀ m ∈ members, Settled m.2
      have settled : kept members := by
        refine readMembersWith_keeps (fun key before text after rest kept head => ?_)
          ⟨List.Pairwise.nil, List.forall_mem_nil _⟩ object
        obtain ⟨_, w, -, member, rfl⟩ := readMember_eq_ok head
        refine ⟨keys_insertMember key w kept.1, fun m mem => ?_⟩
        rcases mem_insertMember mem with rfl | old
        · exact ih member
        · exact kept.2 m old
      exact .object settled.1 settled.2

/-- Whatever is read is settled, also inside of embedded texts. -/
theorem settled_of_embeddedValue {fuel : Nat} {s : String} {v : Json}
    (value : embeddedValue fuel s = .ok v) : Settled v := by
  induction fuel generalizing s v with
  | zero => cases value
  | succ fuel ih =>
    obtain ⟨⟨w, rest⟩, read, ended⟩ := bind_eq_ok.mp value
    obtain ⟨_, -, same⟩ := bind_eq_ok.mp ended
    cases same
    exact settled_of_readWith (fun s v => ih) read

theorem settled_of_parse {s : String} {v : Json} (parsed : parse s = .ok v) : Settled v := by
  obtain ⟨⟨w, rest⟩, read, ended⟩ := bind_eq_ok.mp parsed
  obtain ⟨_, -, same⟩ := bind_eq_ok.mp ended
  cases same
  exact settled_of_readWith (fun s v => settled_of_embeddedValue) read

/-! ## Reading it again -/

theorem print_minusZero : (Json.real minusZero).print = ['-', '0', '.', '0'] := by
  decide +kernel

theorem readMagnitude_minusZero {rest : List Char} (ends : EndsNumber rest) :
    readMagnitude true ('0' :: '.' :: '0' :: rest) = .ok (.real minusZero, rest) := by
  have zero : realOfParts true 0 (-1) = .ok minusZero := by decide +kernel
  have digits : ∀ c ∈ ['0'], isDigit c = true := List.forall_mem_singleton.mpr rfl
  have before := takeWhile_digits digits ends.stopsDigits
  have after := dropWhile_digits digits ends.stopsDigits
  have realEnd : readRealEnd true 0 (-1) rest = .ok (.real minusZero, rest) := by
    cases rest with
    | nil => rw [readRealEnd, zero]; rfl
    | cons c rest =>
      obtain ⟨-, -, small, large⟩ := ends c rfl
      rw [readRealEnd, if_neg (by simp [small, large]), zero]
      rfl
  have part : ('0' :: rest).takeWhile isDigit = ['0'] := before
  have left : ('0' :: rest).dropWhile isDigit = rest := after
  have numberEnd : readNumberEnd true 0 0 ('.' :: '0' :: rest) = .ok (.real minusZero, rest) := by
    rw [readNumberEnd]
    simp only [part, left]
    exact realEnd
  exact numberEnd

theorem startsValue_of_legible {depth : Nat} {v : Json} (settled : Settled v)
    (legible : Legible depth v) (rest : List Char) : StartsValue (v.print ++ rest) := by
  have starts {c : Char} {cs : List Char} (chars : v.print = c :: cs) (dark : isSpace c = false)
      (item : c ≠ ']') : StartsValue (v.print ++ rest) :=
    ⟨c, cs ++ rest, by rw [chars, List.cons_append], dark, item⟩
  cases legible with
  | null => exact starts rfl rfl (by decide)
  | bool b => cases b <;> exact starts rfl rfl (by decide)
  | whole n =>
    cases settled with
    | whole least most => exact (value_print (.whole least most)).startsValue rest
  | minusZero => exact starts print_minusZero rfl (by decide)
  | text s => exact starts rfl rfl (by decide)
  | array each => exact starts rfl rfl (by decide)
  | object ordinary each => exact starts rfl rfl (by decide)

/-- A member with the largest key is put in last. -/
theorem insertMember_last {key : String} (v : Json) {members : List (String × Json)}
    (largest : ∀ m ∈ members, m.1 < key) :
    insertMember key v members = members ++ [(key, v)] := by
  induction members with
  | nil => rfl
  | cons first members ih =>
    obtain ⟨k, w⟩ := first
    obtain ⟨here, later⟩ := List.forall_mem_cons.mp largest
    rw [insertMember, if_neg (ne_of_gt here), if_neg (lt_asymm here), ih later, List.cons_append]

/-- Members in increasing order of keys are put in one after the other. -/
theorem goesThrough_sorted {value : String → Except Fault Json} {depth : Nat}
    {before members : List (String × Json)}
    (keys : ((before ++ members).map Prod.fst).Pairwise (· < ·))
    (each : ∀ m ∈ members, TakesIn (readWith value depth) m.2.print m.2) :
    GoesThrough (readMember value depth) (members.map writtenMember) before
      (before ++ members) := by
  induction members generalizing before with
  | nil =>
    rw [List.append_nil]
    exact .nil before
  | cons m members ih =>
    obtain ⟨key, v⟩ := m
    obtain ⟨first, others⟩ := List.forall_mem_cons.mp each
    have largest : ∀ m ∈ before, m.1 < key := by
      rw [List.map_append, List.pairwise_append] at keys
      exact fun m mem => keys.2.2 m.1 (List.mem_map_of_mem mem) key List.mem_cons_self
    have whole : before ++ (key, v) :: members = before ++ [(key, v)] ++ members := by
      rw [List.append_assoc, List.singleton_append]
    rw [whole] at keys ⊢
    refine .written (fun rest ends => ?_) (ih keys others)
    have colon : readColon (':' :: (v.print ++ rest)) = .ok (v.print ++ rest) := rfl
    rw [List.cons_append, readMember, colon]
    change (readWith value depth (v.print ++ rest) >>= fun read => _) = _
    rw [first rest ends, ← insertMember_last v largest]
    rfl

theorem embedded?_printMembers {members : List (String × Json)}
    (ordinary : ∀ m ∈ members.head?, m.1 ≠ embeddedKey) (rest : List Char) :
    embedded? (printMembers members ++ rest) = none := by
  cases members with
  | nil => rfl
  | cons m members =>
    obtain ⟨key, v⟩ := m
    rw [printMembers_cons, List.append_assoc]
    exact embedded?_quoted (ordinary _ rfl) _

/-- The text of a legible value is taken in as that value. -/
theorem takesIn_of_legible (value : String → Except Fault Json) {depth : Nat} {v : Json}
    (settled : Settled v) (legible : Legible depth v) :
    TakesIn (readWith value depth) v.print v := by
  induction legible with
  | null =>
    intro rest _
    rw [print, List.cons_append, readWith.eq_def, skipSpace_cons rfl]
    rfl
  | bool b =>
    intro rest _
    cases b <;> rw [print, List.cons_append, readWith.eq_def, skipSpace_cons rfl] <;> rfl
  | whole n =>
    cases settled with
    | whole least most => exact takesIn_readWith_whole value _ least most
  | minusZero =>
    intro rest ends
    rw [print_minusZero, List.cons_append, readWith.eq_def, skipSpace_cons rfl]
    change (readMagnitude true ('0' :: '.' :: '0' :: rest) >>= fun read =>
      .ok (read.1.toJson, read.2)) = _
    rw [readMagnitude_minusZero ends]
    rfl
  | text s =>
    intro rest _
    exact readWith_text value _ s rest
  | array legible ih =>
    cases settled with
    | array settled =>
      rename_i items
      intro rest _
      have taken : List.Forall₂ (fun v a => TakesIn (readWith value _) v.print a) items items :=
        List.forall₂_same.mpr fun v mem => ih v mem (settled v mem)
      have starts : ∀ v ∈ items, ∀ rest, StartsValue (v.print ++ rest) := fun v mem =>
        startsValue_of_legible (settled v mem) (legible v mem)
      rw [print, List.cons_append, readWith.eq_def, skipSpace_cons rfl]
      change (readItems (readWith value _) (printItems items ++ rest) >>= fun read =>
        .ok (Json.array read.1, read.2)) = _
      rw [readItems_printItems starts taken rest]
      rfl
  | object ordinary legible ih =>
    cases settled with
    | object keys settled =>
      rename_i members
      intro rest _
      have through : GoesThrough (readMember value _) (members.map writtenMember) [] members :=
        goesThrough_sorted keys fun m mem => ih m mem (settled m mem)
      rw [print, List.cons_append, readWith_object (embedded?_printMembers ordinary rest),
        readMembers_printMembers through]
      rfl

/-- What has been read is read again from its own text, if that is legible. -/
theorem parse_compact_of_legible {s : String} {v : Json} (parsed : parse s = .ok v)
    (legible : Legible depthLimit v) : parse v.compact = .ok v := by
  have read :=
    takesIn_of_legible (embeddedValue v.print.length) (settled_of_parse parsed) legible [] nofun
  rw [List.append_nil] at read
  rw [parse, parseWithin, readAll, compact, String.toList_ofList, Json.read, read]
  rfl

end GrantConsole.Json
