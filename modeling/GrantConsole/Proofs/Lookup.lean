/-!
# Looking up entries

What is found under a key in a list of entries.
-/

namespace GrantConsole

variable {α : Type}

theorem lookup_cons_eq_ite (key other : String) (a : α) (rest : List (String × α)) :
    List.lookup other ((key, a) :: rest) = if other = key then some a else rest.lookup other := by
  by_cases found : other = key
  · simp [found]
  · have apart : (other == key) = false := by simpa using found
    simp [List.lookup_cons, apart, found]

theorem lookup_filter_ne (key other : String) (entries : List (String × α)) :
    (entries.filter fun entry => entry.1 != key).lookup other =
      if other = key then none else entries.lookup other := by
  induction entries with
  | nil => simp
  | cons entry rest ih =>
      obtain ⟨k, a⟩ := entry
      by_cases dropped : k = key
      · simp only [dropped, bne_self_eq_false, Bool.false_eq_true, not_false_eq_true,
          List.filter_cons_of_neg, ih, lookup_cons_eq_ite]
        grind
      · have stays : (k != key) = true := by simpa using dropped
        simp only [stays, List.filter_cons_of_pos, lookup_cons_eq_ite, ih]
        grind

end GrantConsole
