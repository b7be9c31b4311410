import GrantConsole.Console.Place
import GrantConsole.Proofs.Url.Escapes
import Mathlib.Data.List.TakeWhile

/-!
# Paths that are made of ids

A path that is followed is cut at its marks, rid of blanks and ends of lines, split at its slashes,
resolved and encoded before a page is found for it. A text that is put at its end as it is comes out
as the last segment only if it holds nothing of what is looked for on this way.
-/

namespace GrantConsole.Url

/-! ## What is left of the end of a link -/

/-- Blanks and controls at the end do not count, and neither do tabs and the ends of lines. -/
def closedEnd (cs : List Char) : List Char :=
  ((cs.reverse.dropWhile fun c => decide (c.toNat ≤ 0x20)).reverse).filter fun c =>
    c != '\t' && c != '\n' && c != '\r'

/-- What stands before query and fragment. -/
def linkEnd (cs : List Char) : List Char :=
  ((closedEnd cs).takeWhile (· != '#')).takeWhile (· != '?')

/-- Nothing of a text gets lost at the end of a link. -/
structure EndsLink (cs : List Char) : Prop where
  whole : ∀ c ∈ cs, c ∉ ['\t', '\n', '\r', '#', '?']
  closed : ∀ c ∈ cs.getLast?, 0x20 < c.toNat

theorem closedEnd_sublist (cs : List Char) : (closedEnd cs).Sublist cs := by
  have cut := (List.dropWhile_sublist (l := cs.reverse) fun c => decide (c.toNat ≤ 0x20)).reverse
  rw [List.reverse_reverse] at cut
  exact List.filter_sublist.trans cut

theorem linkEnd_sublist_closedEnd (cs : List Char) : (linkEnd cs).Sublist (closedEnd cs) :=
  (List.takeWhile_sublist _).trans (List.takeWhile_sublist _)

theorem linkEnd_sublist (cs : List Char) : (linkEnd cs).Sublist cs :=
  (linkEnd_sublist_closedEnd cs).trans (closedEnd_sublist cs)

/-- Blanks are cut off the end only if the last character is one. -/
theorem dropWhile_blank_eq_self_iff {cs : List Char} :
    (cs.reverse.dropWhile fun c => decide (c.toNat ≤ 0x20)) = cs.reverse ↔
      ∀ c ∈ cs.getLast?, 0x20 < c.toNat := by
  rw [← List.head?_reverse]
  cases cs.reverse with
  | nil => simp
  | cons c rest =>
    rw [List.dropWhile_cons]
    split
    · rename_i blank
      refine iff_of_false (fun same => ?_) fun closed => ?_
      · have shorter : (c :: rest).length ≤ rest.length :=
          same ▸ (List.dropWhile_sublist _).length_le
        rw [List.length_cons] at shorter
        omega
      · have := closed c rfl
        simp only [decide_eq_true_eq] at blank
        omega
    · rename_i other
      simpa using other

theorem linkEnd_eq_self_iff {cs : List Char} : linkEnd cs = cs ↔ EndsLink cs := by
  constructor
  · intro kept
    have closed : closedEnd cs = cs := by
      refine (closedEnd_sublist cs).eq_of_length_le ?_
      have := (linkEnd_sublist_closedEnd cs).length_le
      rwa [kept] at this
    refine ⟨fun c mem => ?_, ?_⟩
    · have taken : c ∈ linkEnd cs := kept.symm ▸ mem
      have ends := List.mem_takeWhile_imp ((List.takeWhile_sublist _).subset taken)
      have asks := List.mem_takeWhile_imp taken
      have plain := (List.mem_filter.mp (closed.symm ▸ mem : c ∈ closedEnd cs)).2
      simp_all
    · refine dropWhile_blank_eq_self_iff.mp ((List.dropWhile_sublist _).eq_of_length_le ?_)
      have := List.length_filter_le (fun c => c != '\t' && c != '\n' && c != '\r')
        (cs.reverse.dropWhile fun c => decide (c.toNat ≤ 0x20)).reverse
      rw [← closedEnd, closed, List.length_reverse] at this
      rwa [List.length_reverse]
  · intro ends
    have other {c mark : Char} (mem : c ∈ cs) (marks : mark ∈ ['\t', '\n', '\r', '#', '?']) :
        (c != mark) = true :=
      bne_iff_ne.mpr fun same => ends.whole c mem (same ▸ marks)
    have closed : closedEnd cs = cs := by
      rw [closedEnd, dropWhile_blank_eq_self_iff.mpr ends.closed, List.reverse_reverse]
      refine List.filter_eq_self.mpr fun c mem => ?_
      rw [other mem (by decide), other mem (by decide), other mem (by decide)]
      rfl
    rw [linkEnd, closed, List.takeWhile_eq_self_iff.mpr fun c mem => other mem (by decide),
      List.takeWhile_eq_self_iff.mpr fun c mem => other mem (by decide)]

/-! ## From a path to its normal form -/

/-- The path of the rules, with a slash after it. -/
def rulesFront : List Char := "/rules/".toList

theorem length_takeWhile_append_le {p : Char → Bool} {c : Char} (stops : p c = false)
    (cs rest : List Char) : ((cs ++ c :: rest).takeWhile p).length ≤ cs.length := by
  induction cs with
  | nil => simp [stops]
  | cons d cs ih =>
    rw [List.cons_append, List.takeWhile_cons]
    split
    · exact Nat.succ_le_succ ih
    · exact Nat.zero_le _

/-- No more than what is put on the path is trimmed away. -/
theorem trimSlashes_append (cs : List Char) :
    ∃ front, front <+: cs ∧ ('/' ∉ cs → front = cs) ∧
      '/' :: trimSlashes (rulesFront ++ cs) = rulesFront ++ front := by
  let name : List Char := "rules/".toList
  let trailing := ((name ++ cs).reverse.takeWhile isSlash).length
  have trimmed : trimSlashes (rulesFront ++ cs) =
      (name ++ cs).take ((name ++ cs).length - (trailing - 1)) := rfl
  have turned : (name ++ cs).reverse = cs.reverse ++ '/' :: "rules".toList.reverse :=
    List.reverse_append
  have few : trailing ≤ cs.length + 1 := by
    have stops := length_takeWhile_append_le (p := isSlash) (c := 's') rfl
      (cs.reverse ++ ['/']) "rule".toList.reverse
    rw [List.append_assoc, List.length_append, List.length_reverse] at stops
    show ((name ++ cs).reverse.takeWhile isSlash).length ≤ cs.length + 1
    rw [turned]
    exact stops
  refine ⟨cs.take (cs.length - (trailing - 1)), List.take_prefix .., fun free => ?_, ?_⟩
  · have one : trailing ≤ 1 := by
      show ((name ++ cs).reverse.takeWhile isSlash).length ≤ 1
      rw [turned]
      cases last : cs.reverse with
      | nil => decide
      | cons c rest =>
        have other : isSlash c = false := by
          refine beq_eq_false_iff_ne.mpr fun same => free ?_
          rw [← same, ← List.mem_reverse, last]
          exact List.mem_cons_self
        rw [List.cons_append, List.takeWhile_cons, other]
        exact Nat.zero_le _
    exact List.take_of_length_le (by omega)
  · have whole : name.length ≤ (name ++ cs).length - (trailing - 1) := by
      rw [List.length_append]
      omega
    have rest : (name ++ cs).length - (trailing - 1) - name.length =
        cs.length - (trailing - 1) := by
      rw [List.length_append]
      omega
    rw [trimmed, List.take_append, List.take_of_length_le whole, rest]
    rfl

theorem plainChars_append (cs : List Char) :
    plainChars (rulesFront ++ cs) = rulesFront ++ closedEnd cs := by
  have front : (rulesFront ++ cs).dropWhile (fun c => decide (c.toNat ≤ 0x20)) =
      rulesFront ++ cs := rfl
  have back : (cs.reverse ++ rulesFront.reverse).dropWhile (fun c => decide (c.toNat ≤ 0x20)) =
      cs.reverse.dropWhile (fun c => decide (c.toNat ≤ 0x20)) ++ rulesFront.reverse := by
    rw [List.dropWhile_append]
    split
    · rename_i empty
      rw [List.isEmpty_iff.mp empty]
      rfl
    · rfl
  simp only [plainChars, front]
  rw [List.reverse_append, back, List.reverse_append, List.reverse_reverse, List.filter_append]
  rfl

/-- Where a path under that of the rules leads, from everywhere. -/
theorem follow_rules (here : Location) (id : String) :
    ∃ front, front <+: id.toList ∧ ('/' ∉ id.toList → front = id.toList) ∧
      (here.follow ("/rules/" ++ id)).path = normalPath (rulesFront ++ linkEnd front) := by
  obtain ⟨front, before, same, trimmed⟩ := trimSlashes_append id.toList
  refine ⟨front, before, same, ?_⟩
  have whole : ("/rules/" ++ id).toList = rulesFront ++ id.toList := String.toList_append
  have link : here.resolve ("/rules/" ++ id) = String.ofList (rulesFront ++ front) := by
    rw [Location.resolve, whole, ← trimmed]
    rfl
  have within : Location.isElsewhere (String.ofList (rulesFront ++ front)) = false := by
    rw [Location.isElsewhere, String.toList_ofList, plainChars_append]
    rfl
  rw [Location.follow, link]
  simp only [within]
  rw [Location.ofLink, String.toList_ofList, plainChars_append]
  rfl

end GrantConsole.Url
