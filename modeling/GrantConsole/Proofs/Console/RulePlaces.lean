import GrantConsole.Proofs.Url.Followed

/-!
# The place of a rule

The path of a rule is the path of the rules with the id of the rule after it, as it is. Which page
it leads to is said by what comes out of it: the page of that rule is found exactly for the ids that
name themselves.
-/

namespace GrantConsole.Url

/-! ## Pieces of a path -/

/-- A piece is a part of the text without marks. -/
theorem mem_splitChars {sep : Char → Bool} {cs piece : List Char}
    (mem : piece ∈ splitChars sep cs) : piece.Sublist cs ∧ ∀ c ∈ piece, sep c = false := by
  induction cs generalizing piece with
  | nil =>
    rw [List.mem_singleton.mp mem]
    exact ⟨List.Sublist.refl _, List.forall_mem_nil _⟩
  | cons c cs ih =>
    have later {piece : List Char} (mem : piece ∈ splitChars sep cs) :
        piece.Sublist (c :: cs) ∧ ∀ c ∈ piece, sep c = false :=
      ⟨(ih mem).1.cons c, (ih mem).2⟩
    rw [splitChars] at mem
    split at mem
    · rcases List.mem_cons.mp mem with rfl | mem
      · exact ⟨List.nil_sublist _, List.forall_mem_nil _⟩
      · exact later mem
    · rename_i other
      have here : sep c = false := Bool.eq_false_iff.mpr other
      split at mem
      · rw [List.mem_singleton.mp mem, List.forall_mem_singleton]
        exact ⟨(List.nil_sublist cs).cons_cons c, here⟩
      · rename_i pieces parts
        rw [parts] at ih later
        rcases List.mem_cons.mp mem with rfl | mem
        · obtain ⟨sub, free⟩ := ih List.mem_cons_self
          exact ⟨sub.cons_cons c, List.forall_mem_cons.mpr ⟨here, free⟩⟩
        · exact later (List.mem_cons_of_mem _ mem)

/-- The pieces that name something, as they stand in a path. -/
def namesAmong (pieces : List (List Char)) : List (List Char) :=
  pieces.filterMap fun piece =>
    match Segment.ofChars piece with
    | .name cs => some cs
    | _ => none

theorem namesAmong_cons_of_name {piece name : List Char}
    (names : Segment.ofChars piece = .name name) (pieces : List (List Char)) :
    namesAmong (piece :: pieces) = name :: namesAmong pieces := by
  rw [namesAmong, List.filterMap_cons, names]
  rfl

theorem namesAmong_cons_of_moves {piece : List Char}
    (moves : Segment.ofChars piece = .here ∨ Segment.ofChars piece = .above)
    (pieces : List (List Char)) : namesAmong (piece :: pieces) = namesAmong pieces := by
  rw [namesAmong, List.filterMap_cons]
  rcases moves with here | above
  · rw [here]
    rfl
  · rw [above]
    rfl

theorem mem_namesAmong {pieces : List (List Char)} {name : List Char}
    (mem : name ∈ namesAmong pieces) :
    ∃ piece ∈ pieces, NamesSegment piece ∧ name = encodeReserved isPathReserved piece := by
  obtain ⟨piece, mem, named⟩ := List.mem_filterMap.mp mem
  refine ⟨piece, mem, ?_⟩
  rcases segment_cases piece with here | above | names
  · rw [here] at named
    cases named
  · rw [above] at named
    cases named
  · rw [names] at named
    exact ⟨names, (Option.some.inj named).symm⟩

theorem dropLastSegment_sublist (before : List (List Char)) :
    (dropLastSegment before).Sublist before := by
  cases before with
  | nil => exact List.Sublist.refl _
  | cons segment before =>
    rw [dropLastSegment]
    split
    · exact List.Sublist.refl _
    · exact List.sublist_cons_self _ _

/-- Resolving takes names away and adds no other; a path may end in an empty one. -/
theorem resolveSegments_cases (before pieces : List (List Char)) :
    ∃ kept : List (List Char), kept.Sublist (before.reverse ++ namesAmong pieces) ∧
      (resolveSegments before pieces = kept ∨ resolveSegments before pieces = kept ++ [[]]) := by
  fun_induction resolveSegments before pieces with
  | case1 before => exact ⟨_, List.sublist_append_left _ _, .inl rfl⟩
  | case2 before last here =>
    exact ⟨before.reverse, List.sublist_append_left _ _, .inr List.reverse_cons⟩
  | case3 before last above =>
    have sub := (dropLastSegment_sublist before).reverse
    exact ⟨_, sub.trans (List.sublist_append_left _ _), .inr List.reverse_cons⟩
  | case4 before last cs name =>
    refine ⟨_, ?_, .inl rfl⟩
    rw [namesAmong_cons_of_name name, List.reverse_cons]
    exact List.Sublist.refl _
  | case5 before cs rest more here ih =>
    rw [namesAmong_cons_of_moves (.inl here)]
    exact ih
  | case6 before cs rest more above ih =>
    rw [namesAmong_cons_of_moves (.inr above)]
    obtain ⟨kept, sub, left⟩ := ih
    have fewer := (dropLastSegment_sublist before).reverse.append_right (namesAmong rest)
    exact ⟨kept, sub.trans fewer, left⟩
  | case7 before cs rest more name same ih =>
    rw [namesAmong_cons_of_name same]
    rwa [List.reverse_cons, List.append_assoc] at ih

end GrantConsole.Url

namespace GrantConsole.Console.Place

open GrantConsole.Url

theorem ofSegments_eq_rule_iff {pieces : List String} {id : String} :
    ofSegments pieces = .rule id ↔
      ∃ piece, pieces = ["rules", piece] ∧ piece ≠ "new" ∧ piece ≠ "" ∧ readPiece piece = id := by
  constructor
  · intro found
    unfold ofSegments at found
    split at found
    all_goals try cases found
    rename_i piece other
    split at found
    · cases found
    · rename_i some
      refine ⟨piece, rfl, fun new => other (by rw [new]), fun empty => some (by rw [empty]; rfl), ?_⟩
      injection found
  · rintro ⟨piece, rfl, other, some, rfl⟩
    have none : piece.isEmpty = false := by simpa using some
    rw [ofSegments.eq_11 _ fun new => other new, none]
    rfl

/-- A path without the empty segment at its end. -/
def withoutLastEmpty (segments : List (List Char)) : List (List Char) :=
  match segments.reverse with
  | [] :: before => before.reverse
  | _ => segments

theorem segments_pathText {names : List (List Char)}
    (free : ∀ name ∈ names, ∀ c ∈ name, isSlash c = false) :
    segments (String.ofList (pathText names)) = (withoutLastEmpty names).map String.ofList := by
  rw [segments, String.toList_ofList]
  cases names with
  | nil => rfl
  | cons name others =>
    have pieces : splitChars isSlash (name ++ pathText others) = name :: others :=
      splitChars_append_pathText rfl free
    rw [pathText_cons]
    simp only [pieces]
    rfl

theorem withoutLastEmpty_sublist {segments kept : List (List Char)}
    (left : segments = kept ∨ segments = kept ++ [[]]) :
    (withoutLastEmpty segments).Sublist kept := by
  unfold withoutLastEmpty
  split
  · rename_i before turned
    have whole : segments = before.reverse ++ [[]] := by
      rw [← segments.reverse_reverse, turned, List.reverse_cons]
    rcases left with rfl | same
    · rw [whole]
      exact List.sublist_append_left _ _
    · have all : before.reverse = kept := List.append_cancel_right (whole.symm.trans same)
      exact all ▸ List.Sublist.refl _
  · rename_i other
    rcases left with rfl | same
    · exact List.Sublist.refl _
    · exact absurd (by rw [same, List.reverse_append]; rfl) (other kept.reverse)

/-! ## Ids in paths -/

/-- The text names a rule in the path that is made of it. -/
structure NamesItself (id : String) : Prop where
  whole : ∀ c ∈ id.toList, c ∉ ['/', '\\', '?', '#', '\t', '\n', '\r']
  closed : ∀ c ∈ id.toList.getLast?, 0x20 < c.toNat
  named : id ∉ ["", ".", "..", "new"]
  written : ReadAsWritten id

theorem isSlash_of_isWebSlash {c : Char} (other : isWebSlash c = false) : isSlash c = false :=
  (Bool.or_eq_false_iff.mp other).1

theorem free_rules : ∀ c ∈ "rules".toList, isWebSlash c = false :=
  free_of_any rfl

theorem normalPath_rules (cs : List Char) :
    normalPath (rulesFront ++ cs) = String.ofList (pathText
      (resolveSegments [] ("rules".toList :: splitChars isWebSlash cs))) := by
  have split : splitChars isWebSlash ("rules".toList ++ '/' :: cs) =
      "rules".toList :: splitChars isWebSlash cs := splitChars_append_cons free_rules rfl
  rw [← split]
  rfl

theorem namesSegment_rules : NamesSegment "rules".toList := rfl

/-- If the page of a rule is found, its id is the last segment, and nothing of it got lost. -/
theorem NamesItself.of_place {cs : List Char} {id : String} (sub : cs.Sublist id.toList)
    (found : ofPath (normalPath (rulesFront ++ cs)) = .rule id) :
    cs = id.toList ∧ (∀ c ∈ cs, isWebSlash c = false) ∧ id ∉ ["", ".", "..", "new"] ∧
      ReadAsWritten id := by
  let pieces := "rules".toList :: splitChars isWebSlash cs
  obtain ⟨kept, resolved, left⟩ := resolveSegments_cases [] pieces
  rw [List.reverse_nil, List.nil_append] at resolved
  have free : ∀ name ∈ resolveSegments [] pieces, ∀ c ∈ name, isSlash c = false := by
    have among : ∀ name ∈ kept, ∀ c ∈ name, isSlash c = false := by
      intro name mem c inside
      obtain ⟨part, source, -, rfl⟩ := mem_namesAmong (resolved.subset mem)
      refine isSlash_of_isWebSlash (noSlash_encodeReserved ?_ c inside)
      rcases List.mem_cons.mp source with rfl | source
      · exact free_rules
      · exact (mem_splitChars source).2
    rcases left with same | same
    · exact same ▸ among
    · rw [same, List.forall_mem_append, List.forall_mem_singleton]
      exact ⟨among, List.forall_mem_nil _⟩
  rw [ofPath, normalPath_rules, segments_pathText free, ofSegments_eq_rule_iff] at found
  obtain ⟨piece, parts, other, some, read⟩ := found
  -- The segment after that of the rules is one of the pieces, encoded.
  have parts : withoutLastEmpty (resolveSegments [] pieces) = ["rules".toList, piece.toList] := by
    have := congrArg (List.map String.toList) parts
    simpa [Function.comp_def] using this
  have last : [piece.toList].Sublist (namesAmong (splitChars isWebSlash cs)) := by
    have both := (withoutLastEmpty_sublist left).trans resolved
    rw [parts, namesAmong_cons_of_name namesSegment_rules] at both
    exact List.cons_sublist_cons.mp both
  obtain ⟨part, inside, names, encoded⟩ := mem_namesAmong (List.singleton_sublist.mp last)
  obtain ⟨within_, whole⟩ := mem_splitChars inside
  have same : piece = String.ofList (encodeReserved isPathReserved part) := by
    rw [← encoded, String.ofList_toList]
  obtain ⟨all, written⟩ := readPiece_of_sublist (within_.trans sub) (same ▸ read)
  have full : cs = part := (within_.eq_of_length_le (all ▸ sub.length_le)).symm
  rw [full]
  refine ⟨all, whole, fun special => ?_, written⟩
  rw [List.mem_cons, List.mem_cons, List.mem_cons, List.mem_singleton] at special
  rcases special with rfl | rfl | rfl | rfl
  · exact some (by rw [same, all]; rfl)
  · rw [all] at names
    cases (names : Segment.here = _)
  · rw [all] at names
    cases (names : Segment.above = _)
  · exact other (by rw [same, all]; rfl)

/-- An id that names itself is the last segment of the path. -/
theorem NamesItself.place {id : String} (names : NamesItself id) :
    ofPath (normalPath (rulesFront ++ id.toList)) = .rule id := by
  have whole : ∀ c ∈ id.toList, isWebSlash c = false := by
    intro c mem
    have := names.whole c mem
    simp_all [isWebSlash]
  have named : NamesSegment id.toList := by
    have other {s : String} (special : s ∈ ["", ".", "..", "new"]) :
        decode? (String.ofList id.toList) ≠ some s := by
      rw [String.ofList_toList]
      intro told
      exact names.named (names.written.eq_of_decode? told ▸ special)
    rcases segment_cases id.toList with here | above | named
    · exact absurd (decode?_of_here here) (other (by decide))
    · exact absurd (decode?_of_above above) (other (by decide))
    · exact named
  let last := encodeReserved isPathReserved id.toList
  have resolved : resolveSegments [] ("rules".toList :: splitChars isWebSlash id.toList) =
      ["rules".toList, last] := by
    have concat := resolveSegments_concat
      (List.forall_mem_singleton.mpr namesSegment_rules) id.toList
    rw [splitChars_of_free whole]
    rw [named] at concat
    exact concat
  have free : ∀ name ∈ ["rules".toList, last], ∀ c ∈ name, isSlash c = false := by
    rw [List.forall_mem_cons, List.forall_mem_singleton]
    exact ⟨fun c mem => isSlash_of_isWebSlash (free_rules c mem),
      fun c mem => isSlash_of_isWebSlash (noSlash_encodeReserved whole c mem)⟩
  let piece := String.ofList last
  have read : readPiece piece = id := readPiece_of_readAsWritten names.written
  have other {s : String} (special : s ∈ ["", ".", "..", "new"]) (self : readPiece s = s) :
      piece ≠ s := by
    intro same
    rw [same, self] at read
    exact names.named (read ▸ special)
  have some : piece ≠ "" := other (by decide) rfl
  rw [ofPath, normalPath_rules, resolved, segments_pathText free, ofSegments_eq_rule_iff]
  refine ⟨piece, ?_, other (by decide) rfl, some, read⟩
  have kept : withoutLastEmpty ["rules".toList, last] = ["rules".toList, last] := by
    cases chars : last with
    | nil => exact absurd (congrArg String.ofList chars) some
    | cons => rfl
  rw [kept]
  rfl

/-- The path that the edit of a rule leads to is that of the rule exactly if the id names itself. -/
theorem ofPath_follow_rules_iff (here : Location) (id : String) :
    ofPath (here.follow ("/rules/" ++ id)).path = .rule id ↔ NamesItself id := by
  obtain ⟨front, before, same, path⟩ := follow_rules here id
  rw [path]
  constructor
  · intro found
    have sub := (linkEnd_sublist front).trans before.sublist
    obtain ⟨whole, free, named, written⟩ := NamesItself.of_place sub found
    -- Each part of the id that is taken is all of it.
    have all : front = id.toList :=
      before.eq_of_length_le (whole ▸ (linkEnd_sublist front).length_le)
    have ends : EndsLink id.toList := linkEnd_eq_self_iff.mp (by rwa [all] at whole)
    rw [whole] at free
    refine ⟨fun c mem => ?_, ends.closed, named, written⟩
    have noSlash := free c mem
    have noMark := ends.whole c mem
    simp_all [isWebSlash]
  · intro names
    have free : '/' ∉ id.toList := fun mem => names.whole _ mem (by decide)
    have among : ['\t', '\n', '\r', '#', '?'] ⊆ ['/', '\\', '?', '#', '\t', '\n', '\r'] := by
      simp
    have ends : EndsLink id.toList :=
      ⟨fun c mem mark => names.whole c mem (among mark), names.closed⟩
    rw [same free, linkEnd_eq_self_iff.mpr ends]
    exact names.place

end GrantConsole.Console.Place
