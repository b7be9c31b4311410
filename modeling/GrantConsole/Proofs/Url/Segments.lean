import GrantConsole.Proofs.Url.Decoded
import GrantConsole.Url.Path

/-!
# Segments of a path

A path is its segments with a slash before each of them. Segments that name something stay where
they are when a path is brought into normal form; the two that do not are those that stand for one
dot and for two dots, whichever way these are written.
-/

namespace GrantConsole.Url

/-- The path with these segments. -/
def pathText (segments : List (List Char)) : List Char :=
  segments.flatMap fun segment => '/' :: segment

@[simp] theorem pathText_nil : pathText [] = [] := rfl

@[simp] theorem pathText_cons (segment : List Char) (segments : List (List Char)) :
    pathText (segment :: segments) = '/' :: (segment ++ pathText segments) := rfl

@[simp] theorem pathText_append (segments others : List (List Char)) :
    pathText (segments ++ others) = pathText segments ++ pathText others :=
  List.flatMap_append

/-! ## Splitting at slashes -/

theorem splitChars_ne_nil (sep : Char → Bool) (cs : List Char) : splitChars sep cs ≠ [] := by
  cases cs with
  | nil => exact List.cons_ne_nil _ _
  | cons c cs =>
    unfold splitChars
    split
    · exact List.cons_ne_nil _ _
    · split <;> exact List.cons_ne_nil _ _

/-- One piece without characters is left of nothing only. -/
theorem eq_nil_of_splitChars {sep : Char → Bool} {cs : List Char} (one : splitChars sep cs = [[]]) :
    cs = [] := by
  cases cs with
  | nil => rfl
  | cons c cs =>
    unfold splitChars at one
    split at one
    · exact absurd (List.cons.inj one).2 (splitChars_ne_nil sep cs)
    · split at one <;> cases (List.cons.inj one).1

theorem free_of_any {sep : Char → Bool} {cs : List Char} (none : cs.any sep = false) :
    ∀ c ∈ cs, sep c = false :=
  fun c mem => Bool.eq_false_iff.mpr (List.any_eq_false.mp none c mem)

section Split

variable {sep : Char → Bool} {piece rest : List Char} {c : Char}

theorem splitChars_of_free (free : ∀ c ∈ piece, sep c = false) : splitChars sep piece = [piece] := by
  induction piece with
  | nil => rfl
  | cons c piece ih =>
    obtain ⟨here, later⟩ := List.forall_mem_cons.mp free
    rw [splitChars, here, ih later]
    rfl

theorem splitChars_append_cons (free : ∀ c ∈ piece, sep c = false) (mark : sep c = true) :
    splitChars sep (piece ++ c :: rest) = piece :: splitChars sep rest := by
  induction piece with
  | nil => rw [List.nil_append, splitChars, if_pos mark]
  | cons d piece ih =>
    obtain ⟨here, later⟩ := List.forall_mem_cons.mp free
    rw [List.cons_append, splitChars, here, ih later]
    rfl

/-- A path is split into the segments that it was made of. -/
theorem splitChars_append_pathText {segments : List (List Char)} (slash : sep '/' = true)
    (free : ∀ s ∈ piece :: segments, ∀ c ∈ s, sep c = false) :
    splitChars sep (piece ++ pathText segments) = piece :: segments := by
  induction segments generalizing piece with
  | nil =>
    rw [pathText_nil, List.append_nil]
    exact splitChars_of_free (free piece List.mem_cons_self)
  | cons segment segments ih =>
    obtain ⟨here, later⟩ := List.forall_mem_cons.mp free
    rw [pathText_cons, splitChars_append_cons here slash, ih later]

end Split

/-! ## Characters that stay in a path -/

theorem isPathReserved_of_isUnreserved {c : Char} (plain : isUnreserved c = true) :
    isPathReserved c = false ∧ isWebSlash c = false := by
  simp only [isUnreserved, Bool.or_eq_true, beq_iff_eq] at plain
  rcases plain with (((letter | rfl) | rfl) | rfl) | rfl
  · have ranges := isAlphanum_iff.mp letter
    have other {d : Char} (mark : d.isAlphanum = false) : c ≠ d := by
      rintro rfl
      cases mark.symm.trans letter
    constructor
    · simp only [isPathReserved, isFragmentReserved, isControl, Bool.or_eq_false_iff]
      refine ⟨⟨⟨by simp; omega, by simp; omega⟩, ?_⟩, ?_⟩
      · simp [other]
      · simp [other]
    · simp [isWebSlash, other]
  all_goals decide

theorem encodeReserved_of_free {reserved : Char → Bool} {cs : List Char}
    (free : ∀ c ∈ cs, reserved c = false) : encodeReserved reserved cs = cs := by
  induction cs with
  | nil => rfl
  | cons c cs ih =>
    obtain ⟨here, later⟩ := List.forall_mem_cons.mp free
    rw [encodeReserved, List.flatMap_cons, here, ← encodeReserved, ih later]
    rfl

/-! ## Segments that name something -/

/-- The segment stands for itself and not for a place near it. -/
def NamesSegment (cs : List Char) : Prop :=
  Segment.ofChars cs = .name (encodeReserved isPathReserved cs)

theorem segment_cases (cs : List Char) :
    Segment.ofChars cs = .here ∨ Segment.ofChars cs = .above ∨ NamesSegment cs := by
  unfold NamesSegment Segment.ofChars
  dsimp only
  split
  · exact .inl rfl
  · split
    · exact .inr (.inl rfl)
    · exact .inr (.inr rfl)

theorem resolveSegments_ne_nil (before : List (List Char)) {cs : List (List Char)}
    (some : cs ≠ []) : resolveSegments before cs ≠ [] := by
  fun_induction resolveSegments before cs with
  | case1 before => exact absurd rfl some
  | case2 before last here => simp
  | case3 before last above => simp
  | case4 before last cs name => simp
  | case5 before cs rest more here ih => exact ih more
  | case6 before cs rest more above ih => exact ih more
  | case7 before cs rest more name same ih => exact ih more

/-- A path in normal form starts with a slash. -/
theorem normalPath_ne_empty (cs : List Char) : normalPath cs ≠ "" := by
  unfold normalPath normalPathBy
  intro empty
  have none := String.ofList_eq_empty_iff.mp empty
  rw [List.flatMap_eq_nil_iff] at none
  -- Whatever the path is, it has a segment, and each one begins with a slash.
  exact resolveSegments_ne_nil [] (splitChars_ne_nil isWebSlash _)
    (List.eq_nil_iff_forall_not_mem.mpr fun segment mem => List.cons_ne_nil _ _ (none segment mem))

theorem resolveSegments_append {segments rest : List (List Char)}
    (names : ∀ s ∈ segments, NamesSegment s) (more : rest ≠ []) (before : List (List Char)) :
    resolveSegments before (segments ++ rest) =
      resolveSegments ((segments.map (encodeReserved isPathReserved)).reverse ++ before) rest := by
  induction segments generalizing before with
  | nil => rfl
  | cons segment segments ih =>
    obtain ⟨here, later⟩ := List.forall_mem_cons.mp names
    have goesOn : segments ++ rest ≠ [] := List.append_ne_nil_of_right_ne_nil _ more
    rw [List.cons_append, resolveSegments.eq_3 _ _ _ goesOn, here]
    dsimp only
    rw [ih later, List.map_cons, List.reverse_cons, List.append_assoc]
    rfl

/-- The last segment is taken from, or put at, the end of a path of names. -/
theorem resolveSegments_concat {segments : List (List Char)}
    (names : ∀ s ∈ segments, NamesSegment s) (last : List Char) :
    resolveSegments [] (segments ++ [last]) =
      let before := segments.map (encodeReserved isPathReserved)
      match Segment.ofChars last with
      | .here => before ++ [[]]
      | .above => (dropLastSegment before.reverse).reverse ++ [[]]
      | .name cs => before ++ [cs] := by
  rw [resolveSegments_append names (List.cons_ne_nil last []), List.append_nil, resolveSegments]
  dsimp only
  cases Segment.ofChars last <;> simp

/-- A path of names and a last segment is brought into normal form at its last segment. -/
theorem normalPathBy_concat {slash : Char → Bool} (mark : slash '/' = true)
    {segments : List (List Char)} {last : List Char}
    (free : ∀ s ∈ segments ++ [last], ∀ c ∈ s, slash c = false)
    (names : ∀ s ∈ segments, NamesSegment s) :
    normalPathBy slash (pathText (segments ++ [last])) =
      let before := segments.map (encodeReserved isPathReserved)
      match Segment.ofChars last with
      | .here => pathText before ++ ['/']
      | .above => pathText (dropLastSegment before.reverse).reverse ++ ['/']
      | .name cs => pathText (before ++ [cs]) := by
  have split : normalPathBy slash (pathText (segments ++ [last])) =
      pathText (resolveSegments [] (segments ++ [last])) := by
    obtain ⟨first, others, parts⟩ : ∃ first others, segments ++ [last] = first :: others :=
      List.ne_nil_iff_exists_cons.mp (List.concat_ne_nil last segments)
    rw [parts] at free ⊢
    rw [pathText_cons, normalPathBy, if_pos mark, splitChars_append_pathText mark free]
    rfl
  rw [split, resolveSegments_concat names]
  dsimp only
  cases Segment.ofChars last <;> simp

/-! ## Segments that are dots -/

/-- A small letter comes of itself or of its capital. -/
theorem eq_or_of_toLower_eq_e {c : Char} (same : c.toLower = 'e') : c = 'e' ∨ c = 'E' := by
  by_cases upper : 'A'.val ≤ c.val ∧ c.val ≤ 'Z'.val
  · have lower : c.toLower.val = c.val + 32 := congrArg Char.val (dif_pos upper)
    rw [same] at lower
    refine .inr (Char.ext ?_)
    have value : c.val + 32 = 'E'.val + 32 := lower.symm
    exact (UInt32.add_left_inj 32).mp value
  · exact .inl ((dif_neg upper : c.toLower = c).symm.trans same)

/-- However a dot is written at the front of a piece, the piece stands for a text with a dot at its
front. -/
theorem decodeBytes_of_dot {cs word : List Char}
    (folded : cs.map Char.toLower = '.' :: word ∨ cs.map Char.toLower = '%' :: '2' :: 'e' :: word) :
    ∃ rest, rest.map Char.toLower = word ∧ decodeBytes cs = 0x2E :: decodeBytes rest := by
  rcases folded with folded | folded
  · obtain ⟨a, rest, rfl, dot, folded⟩ := List.map_eq_cons_iff.mp folded
    rw [eq_of_toLower_eq dot rfl]
    exact ⟨rest, folded, decodeBytes_cons_of_ne (by decide) rest⟩
  · obtain ⟨a, rest, rfl, percent, folded⟩ := List.map_eq_cons_iff.mp folded
    obtain ⟨b, rest, rfl, two, folded⟩ := List.map_eq_cons_iff.mp folded
    obtain ⟨c, rest, rfl, letter, folded⟩ := List.map_eq_cons_iff.mp folded
    rw [eq_of_toLower_eq percent rfl, eq_of_toLower_eq two rfl]
    refine ⟨rest, folded, ?_⟩
    rcases eq_or_of_toLower_eq_e letter with rfl | rfl <;> rfl

theorem decodeBytes_of_folded_nil {cs : List Char} (folded : cs.map Char.toLower = []) :
    decodeBytes cs = [] := by
  rw [List.map_eq_nil_iff.mp folded]
  rfl

theorem decode?_of_bytes {cs : List Char} {s : String}
    (bytes : decodeBytes cs = s.toByteArray.data.toList) : decode? (String.ofList cs) = some s := by
  have same : (⟨(decodeBytes cs).toArray⟩ : ByteArray) = s.toByteArray := by
    rw [bytes]
  rw [decode?, String.toList_ofList, same, String.fromUTF8?, dif_pos s.isValidUTF8]
  rfl

/-- A segment that is taken for the place itself stands for one dot. -/
theorem decode?_of_here {cs : List Char} (here : Segment.ofChars cs = .here) :
    decode? (String.ofList cs) = some "." := by
  unfold Segment.ofChars at here
  dsimp only at here
  split at here
  · rename_i dot
    have folded := dot.imp (congrArg String.toList) (congrArg String.toList)
    rw [String.toList_ofList] at folded
    obtain ⟨rest, none, bytes⟩ := @decodeBytes_of_dot cs [] folded
    refine decode?_of_bytes ?_
    rw [bytes, decodeBytes_of_folded_nil none]
    rfl
  · split at here <;> cases here

/-- A segment that is taken for the place above stands for two dots. -/
theorem decode?_of_above {cs : List Char} (above : Segment.ofChars cs = .above) :
    decode? (String.ofList cs) = some ".." := by
  unfold Segment.ofChars at above
  dsimp only at above
  split at above
  · cases above
  · split at above
    · rename_i dots
      have folded : (∃ word, (word = ['.'] ∨ word = ['%', '2', 'e']) ∧
          (cs.map Char.toLower = '.' :: word ∨ cs.map Char.toLower = '%' :: '2' :: 'e' :: word)) := by
        rcases dots with dots | dots | dots | dots <;>
          have dots := (String.toList_ofList ▸ congrArg String.toList dots : cs.map Char.toLower = _)
        · exact ⟨_, .inl rfl, .inl dots⟩
        · exact ⟨_, .inr rfl, .inl dots⟩
        · exact ⟨_, .inl rfl, .inr dots⟩
        · exact ⟨_, .inr rfl, .inr dots⟩
      obtain ⟨word, second, first⟩ := folded
      obtain ⟨rest, again, bytes⟩ := decodeBytes_of_dot first
      obtain ⟨rest', none, bytes'⟩ := @decodeBytes_of_dot rest [] (again ▸ second)
      refine decode?_of_bytes ?_
      rw [bytes, bytes', decodeBytes_of_folded_nil none]
      rfl
    · cases above

/-! ## Dot segments

URLs in general are rid of dot segments from the front of the path on, segment by segment: one dot
is left out, and two dots take the segment before with them. Unlike the normal form of the web this
knows no other way to write the dots, and encodes nothing. -/

section Dots

/-- A path without its last segment and the slash before it. -/
def withoutLastSegment (path : List Char) : List Char :=
  ((path.reverse.dropWhile (· != '/')).drop 1).reverse

/-- What is left of a path without dot segments, after the part of it that has been read. -/
def removeDotSegments (read : List Char) : List Char → List Char
  | [] => read
  | '.' :: '.' :: '/' :: rest => removeDotSegments read rest
  | '.' :: '/' :: rest => removeDotSegments read rest
  | '/' :: '.' :: '/' :: rest => removeDotSegments read ('/' :: rest)
  | ['/', '.'] => removeDotSegments read ['/']
  | '/' :: '.' :: '.' :: '/' :: rest => removeDotSegments (withoutLastSegment read) ('/' :: rest)
  | ['/', '.', '.'] => removeDotSegments (withoutLastSegment read) ['/']
  | ['.'] => read
  | ['.', '.'] => read
  | c :: rest =>
    removeDotSegments (read ++ c :: rest.takeWhile (· != '/')) (rest.dropWhile (· != '/'))
termination_by path => path.length
decreasing_by
  all_goals simp only [List.length_cons, List.length_nil]
  all_goals first
    | omega
    | exact Nat.lt_succ_of_le (List.dropWhile_sublist _).length_le

variable {read segment rest : List Char}

/-- What goes on after a segment. -/
def Continues (rest : List Char) : Prop :=
  ∀ c ∈ rest.head?, c = '/'

theorem continues_pathText (segments : List (List Char)) : Continues (pathText segments) := by
  cases segments <;> simp [Continues]

theorem takeWhile_segment (free : '/' ∉ segment) (continues : Continues rest) :
    (segment ++ rest).takeWhile (· != '/') = segment ∧
      (segment ++ rest).dropWhile (· != '/') = rest := by
  have within : ∀ c ∈ segment, (c != '/') = true := fun c mem =>
    bne_iff_ne.mpr fun same => free (same ▸ mem)
  rw [List.takeWhile_append_of_pos within, List.dropWhile_append_of_pos within]
  cases rest with
  | nil => simp
  | cons c rest => simp [continues c rfl]

/-- A segment that is no dot segment is read as it is. -/
theorem removeDotSegments_segment (free : '/' ∉ segment) (one : segment ≠ ['.'])
    (two : segment ≠ ['.', '.']) (continues : Continues rest) :
    removeDotSegments read ('/' :: (segment ++ rest)) =
      removeDotSegments (read ++ '/' :: segment) rest := by
  obtain ⟨taken, left⟩ := takeWhile_segment free continues
  have other {tail : List Char} (dots : tail.takeWhile (· != '/') = ['.'] ∨
      tail.takeWhile (· != '/') = ['.', '.']) : segment ++ rest ≠ tail := by
    rintro rfl
    rw [taken] at dots
    exact dots.elim one two
  rw [removeDotSegments.eq_10]
  · rw [taken, left]
  -- The cases before the last one are about dot segments, and this segment is none.
  all_goals intros; try contradiction
  all_goals
    rename_i same
    exact other (by simp) same

/-- A segment that stays where it is when dot segments are removed. -/
structure NoDots (segment : List Char) : Prop where
  free : '/' ∉ segment
  one : segment ≠ ['.']
  two : segment ≠ ['.', '.']

theorem noDots_of_names (free : '/' ∉ segment) (names : NamesSegment segment) : NoDots segment where
  free := free
  one := by
    rintro rfl
    cases (names : Segment.here = _)
  two := by
    rintro rfl
    cases (names : Segment.above = _)

theorem removeDotSegments_pathText {segments : List (List Char)}
    (plain : ∀ s ∈ segments, NoDots s) (continues : Continues rest) (read : List Char) :
    removeDotSegments read (pathText segments ++ rest) =
      removeDotSegments (read ++ pathText segments) rest := by
  induction segments generalizing read with
  | nil => simp
  | cons segment segments ih =>
    obtain ⟨here, later⟩ := List.forall_mem_cons.mp plain
    have goesOn : Continues (pathText segments ++ rest) := by
      cases segments with
      | nil => exact continues
      | cons => simp [Continues]
    rw [pathText_cons, List.cons_append, List.append_assoc,
      removeDotSegments_segment here.free here.one here.two goesOn, ih later, List.append_assoc]
    rfl

theorem withoutLastSegment_pathText (segments : List (List Char)) (free : '/' ∉ segment) :
    withoutLastSegment (pathText (segments ++ [segment])) = pathText segments := by
  have within : ∀ c ∈ segment.reverse, (c != '/') = true := fun c mem =>
    bne_iff_ne.mpr fun same => free (same ▸ List.mem_reverse.mp mem)
  have turned : (pathText (segments ++ [segment])).reverse =
      segment.reverse ++ '/' :: (pathText segments).reverse := by
    simp
  rw [withoutLastSegment, turned, List.dropWhile_append_of_pos within]
  simp

theorem removeDotSegments_slash (read : List Char) :
    removeDotSegments read ['/'] = read ++ ['/'] := by
  rw [removeDotSegments.eq_10]
  · exact removeDotSegments.eq_1 _
  all_goals nofun

/-- Only the last segment of such a path can be a dot segment. -/
theorem removeDotSegments_concat {segments : List (List Char)}
    (plain : ∀ s ∈ segments, NoDots s) {last : List Char} (free : '/' ∉ last) :
    removeDotSegments [] (pathText (segments ++ [last])) =
      if last = ['.'] then pathText segments ++ ['/']
      else if last = ['.', '.'] then withoutLastSegment (pathText segments) ++ ['/']
      else pathText (segments ++ [last]) := by
  rw [pathText_append, removeDotSegments_pathText plain (continues_pathText _), List.nil_append]
  split
  · rename_i one
    rw [one, show pathText [['.']] = ['/', '.'] from rfl, removeDotSegments.eq_5]
    exact removeDotSegments_slash _
  · rename_i one
    split
    · rename_i two
      rw [two, show pathText [['.', '.']] = ['/', '.', '.'] from rfl, removeDotSegments.eq_7]
      exact removeDotSegments_slash _
    · rename_i two
      rw [pathText_cons, removeDotSegments_segment free one two (continues_pathText []),
        pathText_nil, List.append_nil]
      exact removeDotSegments.eq_1 _

end Dots

end GrantConsole.Url
