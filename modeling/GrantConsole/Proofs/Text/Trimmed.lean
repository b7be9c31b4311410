import GrantConsole.Text.Blank
import Mathlib.Data.List.TakeWhile

/-!
# Trimmed text

Trimming cuts a blank piece off each end of a text. What is left neither starts nor ends with a
blank, and it is the only piece of the text with blanks alone around it that does neither.
-/

namespace GrantConsole.Text

/-- All characters are blank. -/
def Blank (cs : List Char) : Prop :=
  ∀ c ∈ cs, isBlank c = true

/-- Neither the first character nor the last is blank. -/
structure Bare (cs : List Char) : Prop where
  first : ∀ c ∈ cs.head?, isBlank c = false
  last : ∀ c ∈ cs.getLast?, isBlank c = false

/-- A piece of a text that has blanks alone around it. -/
def Surrounded (core cs : List Char) : Prop :=
  ∃ before after, Blank before ∧ Blank after ∧ cs = before ++ core ++ after

theorem blank_takeWhile (cs : List Char) : Blank (cs.takeWhile isBlank) :=
  fun _ member => List.mem_takeWhile_imp member

theorem dropWhile_blank {before cs : List Char} (blank : Blank before)
    (first : ∀ c ∈ cs.head?, isBlank c = false) : (before ++ cs).dropWhile isBlank = cs := by
  rw [List.dropWhile_append_of_pos blank]
  cases cs with
  | nil => rfl
  | cons c cs => exact List.dropWhile_cons_of_neg (by simp [first c rfl])

/-- Trimming cuts off blanks alone. -/
theorem surrounded_trimChars (cs : List Char) : Surrounded (trimChars cs) cs := by
  let inner := cs.dropWhile isBlank
  have outer : cs = cs.takeWhile isBlank ++ inner := List.takeWhile_append_dropWhile.symm
  have ends : inner = trimChars cs ++ (inner.reverse.takeWhile isBlank).reverse := by
    rw [trimChars, ← List.reverse_append, List.takeWhile_append_dropWhile, List.reverse_reverse]
  refine ⟨_, (inner.reverse.takeWhile isBlank).reverse, blank_takeWhile cs, ?_, ?_⟩
  · intro c member
    exact blank_takeWhile _ c (List.mem_reverse.mp member)
  · rw [List.append_assoc, ← ends]
    exact outer

/-- A piece with blanks alone around it that starts and ends with none is what trimming leaves. -/
theorem trimChars_eq {core cs : List Char} (surrounded : Surrounded core cs) (bare : Bare core) :
    trimChars cs = core := by
  obtain ⟨before, after, blank, blank', rfl⟩ := surrounded
  have last : ∀ c ∈ core.reverse.head?, isBlank c = false := by
    rw [List.head?_reverse]
    exact bare.last
  have back : Blank after.reverse := fun c member => blank' c (List.mem_reverse.mp member)
  rw [trimChars, List.append_assoc]
  cases core with
  | nil =>
      -- All of the text is blank.
      have all : Blank (before ++ after) := fun c member =>
        (List.mem_append.mp member).elim (blank c) (blank' c)
      have none : (before ++ after ++ []).dropWhile isBlank = [] := dropWhile_blank all nofun
      rw [List.append_nil] at none
      rw [List.nil_append, none]
      rfl
  | cons c core =>
      rw [dropWhile_blank blank (by simpa using bare.first c rfl), List.reverse_append,
        dropWhile_blank back last, List.reverse_reverse]

/-- What trimming leaves starts and ends with no blank. -/
theorem bare_trimChars (cs : List Char) : Bare (trimChars cs) where
  first c first := by
    let inner := cs.dropWhile isBlank
    have ends : inner = trimChars cs ++ (inner.reverse.takeWhile isBlank).reverse := by
      rw [trimChars, ← List.reverse_append, List.takeWhile_append_dropWhile, List.reverse_reverse]
    have head : inner.head? = some c := by
      rw [ends, List.head?_append, Option.mem_def.mp first, Option.some_or]
    have stops := List.head?_dropWhile_not isBlank cs
    rwa [show cs.dropWhile isBlank = inner from rfl, head] at stops
  last c last := by
    have stops := List.head?_dropWhile_not isBlank (cs.dropWhile isBlank).reverse
    rw [trimChars, List.getLast?_reverse, Option.mem_def] at last
    rwa [last] at stops

/-! ## Texts -/

theorem surrounded_trim (s : String) : Surrounded (trim s).toList s.toList := by
  rw [trim, String.toList_ofList]
  exact surrounded_trimChars _

theorem bare_trim (s : String) : Bare (trim s).toList := by
  rw [trim, String.toList_ofList]
  exact bare_trimChars _

theorem toList_trim_eq {s : String} {core : List Char} (surrounded : Surrounded core s.toList)
    (bare : Bare core) : (trim s).toList = core := by
  rw [trim, String.toList_ofList, trimChars_eq surrounded bare]

theorem trim_of_bare {s : String} (bare : Bare s.toList) : trim s = s := by
  have whole : Surrounded s.toList s.toList :=
    ⟨[], [], nofun, nofun, (List.append_nil _).symm⟩
  exact String.toList_inj.mp (toList_trim_eq whole bare)

theorem isBlankText_iff (s : String) : isBlankText s = true ↔ Blank s.toList :=
  List.all_eq_true

end GrantConsole.Text
