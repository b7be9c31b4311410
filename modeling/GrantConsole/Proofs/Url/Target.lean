import GrantConsole.Url.Target

/-!
# What a request target carries

The text of a target is an origin that may be missing, a path with a query, and a fragment that may
be missing. What is read of a target is the path with its query as it stands there, whatever the
origin is.
-/

namespace GrantConsole.Url

/-- The marks that end an authority. -/
def isMark (c : Char) : Bool :=
  c == '/' || c == '?' || c == '#'

theorem isMark_eq_true_iff {c : Char} : isMark c = true ↔ c = '/' ∨ c = '?' ∨ c = '#' := by
  simp [isMark, or_assoc]

/-- What may stand before a path: nothing, or a scheme with an authority. -/
inductive Origin : List Char → Prop
  | missing : Origin []
  | present {scheme authority : List Char} (schemeEnds : ∀ c ∈ scheme, isMark c = false ∧ c ≠ ':')
      (authorityEnds : ∀ c ∈ authority, isMark c = false) :
      Origin (scheme ++ ':' :: '/' :: '/' :: authority)

/-- The path with its query that a text carries after its origin and before its fragment. -/
inductive Carries : List Char → List Char → Prop
  | after {origin rest : List Char} (before : Origin origin)
      (begins : ∀ c ∈ rest.head?, isMark c = true) :
      Carries (origin ++ rest) (rest.takeWhile (· != '#'))

/-! ## A text carries one path -/

section Stop

variable (stops : Char → Bool) {front rest front' rest' : List Char}

theorem takeWhile_append_of_stop (goes : ∀ c ∈ front, stops c = false)
    (stop : ∀ c ∈ rest.head?, stops c = true) :
    (front ++ rest).takeWhile (fun c => !stops c) = front := by
  have here : rest.takeWhile (fun c => !stops c) = [] := by
    cases rest with
    | nil => rfl
    | cons c rest => simp [stop c rfl]
  rw [List.takeWhile_append_of_pos (by simpa using goes), here, List.append_nil]

/-- Where two texts stop at the first mark, they are cut in one way. -/
theorem append_inj_of_stop (same : front ++ rest = front' ++ rest')
    (goes : ∀ c ∈ front, stops c = false) (stop : ∀ c ∈ rest.head?, stops c = true)
    (goes' : ∀ c ∈ front', stops c = false) (stop' : ∀ c ∈ rest'.head?, stops c = true) :
    front = front' ∧ rest = rest' := by
  have fronts : front = front' := by
    rw [← takeWhile_append_of_stop stops goes stop, same,
      takeWhile_append_of_stop stops goes' stop']
  subst fronts
  exact ⟨rfl, List.append_cancel_left same⟩

end Stop

/-- What begins as a path does has no scheme. -/
theorem ne_scheme_append {scheme rest : List Char} (ends : ∀ c ∈ scheme, isMark c = false ∧ c ≠ ':')
    (begins : ∀ c ∈ rest.head?, isMark c = true) (after : List Char) :
    rest ≠ scheme ++ ':' :: after := by
  rintro rfl
  cases scheme with
  | nil => exact absurd (begins ':' rfl) (by decide)
  | cons c scheme => exact absurd (begins c rfl) (by simp [ends c List.mem_cons_self])

/-- After its origin a text is one and the same. -/
theorem Origin.rest_unique {origin rest origin' rest' : List Char} (before : Origin origin)
    (before' : Origin origin') (same : origin ++ rest = origin' ++ rest')
    (begins : ∀ c ∈ rest.head?, isMark c = true) (begins' : ∀ c ∈ rest'.head?, isMark c = true) :
    rest = rest' := by
  cases before with
  | missing =>
    cases before' with
    | missing => exact same
    | present schemeEnds _ =>
      rw [List.nil_append, List.append_assoc] at same
      exact absurd same (ne_scheme_append schemeEnds begins _)
  | present schemeEnds authorityEnds =>
    cases before' with
    | missing =>
      rw [List.nil_append, List.append_assoc] at same
      exact absurd same.symm (ne_scheme_append schemeEnds begins' _)
    | present schemeEnds' authorityEnds' =>
      rw [List.append_assoc, List.append_assoc] at same
      -- The schemes end at the first colon, and then the authorities at the first mark.
      obtain ⟨-, authorities⟩ := append_inj_of_stop (· == ':') same
        (by simpa using fun c known => (schemeEnds c known).2) (by simp)
        (by simpa using fun c known => (schemeEnds' c known).2) (by simp)
      simp only [List.cons_append, List.cons.injEq, true_and] at authorities
      exact (append_inj_of_stop isMark authorities authorityEnds begins authorityEnds' begins').2

theorem Carries.unique {text raw raw' : List Char} (carries : Carries text raw)
    (carries' : Carries text raw') : raw = raw' := by
  cases carries with
  | @after origin rest before begins =>
    generalize same : origin ++ rest = text at carries'
    cases carries' with
    | after before' begins' => rw [before.rest_unique before' same begins begins']

/-! ## What is read of a target -/

theorem readQuery_eq_some {cs query : List Char} (read : readQuery cs = some query) :
    query = cs.takeWhile (· != '#') := by
  induction cs generalizing query with
  | nil => exact (Option.some.inj read).symm
  | cons c cs ih =>
    rw [readQuery] at read
    split at read
    case isTrue fragment =>
      rw [← Option.some.inj read, List.takeWhile_cons_of_neg (by simpa using fragment)]
    case isFalse other =>
      split at read
      case isTrue =>
        obtain ⟨query, rest, rfl⟩ := Option.map_eq_some_iff.mp read
        rw [List.takeWhile_cons_of_pos (by simpa using other), ih rest]
      case isFalse => cases read

/-- A path is read as it stands there, up to the fragment. -/
theorem readPath_eq_some {cs raw : List Char} (read : readPath cs = some raw) :
    raw = cs.takeWhile (· != '#') := by
  induction cs generalizing raw with
  | nil => exact (Option.some.inj read).symm
  | cons c cs ih =>
    rw [readPath] at read
    split at read
    case isTrue fragment =>
      rw [← Option.some.inj read, List.takeWhile_cons_of_neg (by simpa using fragment)]
    case isFalse other =>
      rw [List.takeWhile_cons_of_pos (by simpa using other)]
      split at read
      case isTrue =>
        obtain ⟨query, rest, rfl⟩ := Option.map_eq_some_iff.mp read
        rw [readQuery_eq_some rest]
      case isFalse =>
        split at read
        case isTrue =>
          obtain ⟨path, rest, rfl⟩ := Option.map_eq_some_iff.mp read
          rw [ih rest]
        case isFalse => cases read

/-- An authority goes on over each character that is no mark. -/
theorem readAuthority_cons_eq_some {seen : AuthorityScan} {c : Char} {cs rest : List Char}
    (other : isMark c = false) (read : readAuthority seen (c :: cs) = some rest) :
    ∃ seen, readAuthority seen cs = some rest := by
  have goes : ¬ (c = '/' ∨ c = '?' ∨ c = '#') := by
    simp [← isMark_eq_true_iff, other]
  rw [readAuthority, if_neg goes] at read
  grind

theorem readAuthority_eq_some {seen : AuthorityScan} {cs rest : List Char}
    (read : readAuthority seen cs = some rest) :
    ∃ authority, cs = authority ++ rest ∧ (∀ c ∈ authority, isMark c = false) ∧
      ∀ c ∈ rest.head?, isMark c = true := by
  induction cs generalizing seen with
  | nil =>
    rw [readAuthority, readAuthority.close] at read
    split at read
    · cases read
    · exact ⟨[], by simpa using read, by simp, by simp [← Option.some.inj read]⟩
  | cons c cs ih =>
    cases mark : isMark c with
    | true =>
      rw [readAuthority, if_pos (isMark_eq_true_iff.mp mark), readAuthority.close] at read
      split at read
      · cases read
      · exact ⟨[], by simpa using read, by simp, by simp [← Option.some.inj read, mark]⟩
    | false =>
      obtain ⟨seen, read⟩ := readAuthority_cons_eq_some mark read
      obtain ⟨authority, rfl, goes, stop⟩ := ih read
      exact ⟨c :: authority, rfl, by simpa [mark] using goes, stop⟩

theorem isSchemeChar_ends {c : Char} (inside : isSchemeChar c = true) :
    isMark c = false ∧ c ≠ ':' := by
  refine ⟨Bool.eq_false_iff.mpr fun mark => ?_, fun colon => ?_⟩
  · rcases isMark_eq_true_iff.mp mark with rfl | rfl | rfl <;> exact absurd inside (by decide)
  · subst colon
    exact absurd inside (by decide)

/-- What follows a scheme with its colon and slashes. -/
def AfterScheme (cs rest : List Char) : Prop :=
  ∃ scheme, cs = scheme ++ ':' :: '/' :: '/' :: rest ∧ ∀ c ∈ scheme, isMark c = false ∧ c ≠ ':'

theorem scanScheme_eq_found {length : Nat} {cs rest : List Char}
    (read : scanScheme length cs = .found rest) : AfterScheme cs rest := by
  induction cs generalizing length with
  | nil => cases read
  | cons c cs ih =>
    rw [scanScheme.eq_def] at read
    split at read
    case h_1 => cases read
    case h_2 heq =>
      rw [heq]
      split at read
      · cases read
      · cases read
        exact ⟨[], rfl, by simp⟩
    case h_3 heq =>
      obtain ⟨rfl, rfl⟩ := List.cons.inj heq
      split at read
      case isTrue inside =>
        obtain ⟨scheme, rfl, ends⟩ := ih read
        exact ⟨c :: scheme, rfl, List.forall_mem_cons.mpr ⟨isSchemeChar_ends inside, ends⟩⟩
      case isFalse => cases read

/-- What becomes no letter in lower case was the same before. -/
theorem eq_of_toLower_eq {c d : Char} (same : c.toLower = d) (noLetter : d.isLower = false) :
    c = d := by
  by_cases upper : 'A'.val ≤ c.val ∧ c.val ≤ 'Z'.val
  · have least : 65 ≤ c.toNat := UInt32.le_iff_toNat_le.mp upper.1
    have most : c.toNat ≤ 90 := UInt32.le_iff_toNat_le.mp upper.2
    have lower : c.toLower.val = c.val + 32 := congrArg Char.val (dif_pos upper)
    have value : d.toNat = c.toNat + 32 := by
      rw [← same, ← Char.toNat_val, lower]
      exact (UInt32.toNat_add ..).trans (Nat.mod_eq_of_lt (show c.toNat + 32 < 2 ^ 32 by omega))
    -- A capital becomes a small letter, which is excluded here.
    have letter : (decide ('a'.val ≤ d.val) && decide (d.val ≤ 'z'.val)) = true := by
      rw [Bool.and_eq_true, decide_eq_true_eq, decide_eq_true_eq]
      exact ⟨UInt32.le_iff_toNat_le.mpr (show 97 ≤ d.toNat by omega),
        UInt32.le_iff_toNat_le.mpr (show d.toNat ≤ 122 by omega)⟩
    cases letter.symm.trans noLetter
  · have kept : c.toLower = c := dif_neg upper
    rw [← same, kept]

/-- A scheme is told in upper and lower case. -/
theorem afterScheme_of_startsWithFolded (word : List Char) {cs : List Char}
    (letters : word.all Char.isLower = true)
    (starts : startsWithFolded (word ++ [':', '/', '/']) cs = true) :
    AfterScheme cs (cs.drop (word ++ [':', '/', '/']).length) := by
  obtain ⟨scheme, marks, front, lower, marksLower⟩ :=
    List.map_eq_append_iff.mp (beq_iff_eq.mp starts)
  have marks : marks = [':', '/', '/'] := by
    obtain ⟨a, rest, rfl, colon, lower⟩ := List.map_eq_cons_iff.mp marksLower
    obtain ⟨b, rest, rfl, slash, lower⟩ := List.map_eq_cons_iff.mp lower
    obtain ⟨c, rest, rfl, slash', lower⟩ := List.map_eq_cons_iff.mp lower
    rw [eq_of_toLower_eq colon rfl, eq_of_toLower_eq slash rfl, eq_of_toLower_eq slash' rfl,
      List.map_eq_nil_iff.mp lower]
  subst marks
  refine ⟨scheme, ?_, fun c known => ?_⟩
  · calc
      cs = cs.take (word ++ [':', '/', '/']).length ++ cs.drop (word ++ [':', '/', '/']).length :=
        (List.take_append_drop _ cs).symm
      _ = _ := by rw [front, List.append_assoc]; rfl
  · have letter : c.toLower.isLower = true := 
      List.all_eq_true.mp letters _ (lower ▸ List.mem_map_of_mem known)
    refine ⟨Bool.eq_false_iff.mpr fun mark => ?_, fun colon => ?_⟩
    · rcases isMark_eq_true_iff.mp mark with rfl | rfl | rfl <;> exact absurd letter (by decide)
    · subst colon
      exact absurd letter (by decide)

theorem readScheme_eq_found {cs rest : List Char} (read : readScheme cs = .found rest) :
    AfterScheme cs rest := by
  rw [readScheme] at read
  split at read
  case isTrue starts =>
    cases read
    exact afterScheme_of_startsWithFolded "http".toList (by decide) starts
  case isFalse =>
    split at read
    case isTrue starts =>
      cases read
      exact afterScheme_of_startsWithFolded "https".toList (by decide) starts
    case isFalse =>
      split at read
      · exact scanScheme_eq_found read
      · cases read

/-- A target is an asterisk, an authority alone, or the path that its text carries; an empty path
is the root. -/
inductive Reading (cs : List Char) : Target → Prop
  | asterisk (bare : ∀ c ∈ cs, isMark c = false) : Reading cs ⟨some "*"⟩
  | authority (bare : ∀ c ∈ cs, isMark c = false) : Reading cs ⟨none⟩
  | path {raw : List Char} (carries : Carries cs raw) : Reading cs (pathOf raw)

theorem reading_readPath {cs origin rest : List Char} {t : Target} (before : Origin origin)
    (parts : cs = origin ++ rest) (begins : ∀ c ∈ rest.head?, isMark c = true)
    (read : (readPath rest).map pathOf = some t) : Reading cs t := by
  obtain ⟨raw, path, rfl⟩ := Option.map_eq_some_iff.mp read
  rw [parts, readPath_eq_some path]
  exact .path (.after before begins)

theorem Target.reading_ofChars? {cs : List Char} {t : Target}
    (read : Target.ofChars? cs = some t) : Reading cs t := by
  unfold Target.ofChars? at read
  split at read
  case h_1 => cases read
  case h_2 =>
    cases read
    exact .asterisk (List.forall_mem_singleton.mpr rfl)
  case h_3 rest =>
    exact reading_readPath .missing rfl (by simp [isMark]) read
  case h_4 =>
    split at read
    case h_1 => cases read
    case h_2 =>
      -- Without a scheme the whole text is an authority, so that no mark is left in it.
      obtain ⟨rest, authority, alone⟩ := Option.bind_eq_some_iff.mp read
      obtain ⟨authority, rfl, goes, -⟩ := readAuthority_eq_some authority
      split at alone
      case isTrue ended =>
        cases alone
        rw [List.isEmpty_iff.mp ended, List.append_nil]
        exact .authority goes
      case isFalse => cases alone
    case h_3 rest found =>
      obtain ⟨after, authority, path⟩ := Option.bind_eq_some_iff.mp read
      split at path
      · cases path
      · split at found
        · cases found
        · obtain ⟨scheme, rfl, ends⟩ := readScheme_eq_found found
          obtain ⟨authority, rfl, goes, begins⟩ := readAuthority_eq_some authority
          exact reading_readPath (.present ends goes) (by simp) begins path

theorem path_pathOf (raw : List Char) :
    (pathOf raw).path =
      if (raw.takeWhile (· != '?')).isEmpty then "/"
      else String.ofList (raw.takeWhile (· != '?')) := by
  cases raw with
  | nil => decide
  | cons c raw => simp [pathOf, Target.path]

theorem Carries.subset {text raw : List Char} (carries : Carries text raw) : raw ⊆ text := by
  cases carries
  exact fun c inside => List.mem_append_right _ ((List.takeWhile_sublist _).subset inside)

/-- A target whose text carries a path has that path, whatever its origin. -/
theorem Target.pathAndQuery_of_carries {cs raw : List Char} {t : Target}
    (read : Target.ofChars? cs = some t) (carries : Carries cs raw) (slash : '/' ∈ raw) :
    t.pathAndQuery = some (String.ofList raw) := by
  have marked : isMark '/' = true := by decide
  cases Target.reading_ofChars? read with
  | asterisk bare => exact absurd marked (by simp [bare '/' (carries.subset slash)])
  | authority bare => exact absurd marked (by simp [bare '/' (carries.subset slash)])
  | path carries' =>
    rw [carries'.unique carries, pathOf, if_neg (by simp [List.ne_nil_of_mem slash])]

end GrantConsole.Url
