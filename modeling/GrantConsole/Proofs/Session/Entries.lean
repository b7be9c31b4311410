import GrantConsole.Proofs.Lookup
import GrantConsole.Session.Basic

/-!
# Texts under keys

What is found under a key after the session has changed. A text that is set is found under its key
and nothing else changes, unless the session keeps nothing at all.
-/

namespace GrantConsole.Session

theorem lookup_insertEntry (key value other : String) (entries : List (String × String)) :
    (insertEntry key value entries).lookup other =
      if other = key then some value else entries.lookup other := by
  induction entries with
  | nil => simp [insertEntry]
  | cons entry rest ih =>
      obtain ⟨k, v⟩ := entry
      unfold insertEntry
      split
      · rename_i same
        subst same
        simp only [lookup_cons_eq_ite]
        split <;> rfl
      · split
        · simp only [lookup_cons_eq_ite]
        · simp only [lookup_cons_eq_ite, ih]
          grind

theorem get?_set (s : Session) (key value other : String) :
    (s.set key value).get? other =
      if other = key then s.entries.map (fun _ => value) else s.get? other := by
  obtain ⟨_ | entries⟩ := s
  · simp [set, get?]
  · simp [set, get?, lookup_insertEntry]

theorem get?_remove (s : Session) (key other : String) :
    (s.remove key).get? other = if other = key then none else s.get? other := by
  obtain ⟨_ | entries⟩ := s
  · simp [remove, get?]
  · simp [remove, get?, lookup_filter_ne]

theorem get?_signOut (s : Session) (key : String) :
    s.signOut.get? key =
      if key = tokenKey ∨ key = grantIdKey ∨ key = grantTitleKey then none else s.get? key := by
  simp only [signOut, clearGrant, get?_remove]
  grind

theorem get?_selectGrant (s : Session) (id title key : String) :
    (s.selectGrant id title).get? key =
      if key = grantTitleKey then s.entries.map (fun _ => title)
      else if key = grantIdKey then s.entries.map (fun _ => id)
      else s.get? key := by
  have still : (s.set grantIdKey id).entries.map (fun _ => title) =
      s.entries.map fun _ => title := by
    rw [set, Option.map_map]
    rfl
  rw [selectGrant, get?_set, get?_set, still]

/-- No token is kept, or an empty one. -/
def LacksToken (s : Session) : Prop :=
  s.get? tokenKey = none ∨ s.get? tokenKey = some ""

theorem token?_eq_none_iff (s : Session) : s.token? = none ↔ s.LacksToken := by
  unfold token? getNonempty? LacksToken
  cases s.get? tokenKey <;> simp

theorem token?_eq_get? {s : Session} (kept : ¬ s.LacksToken) : s.token? = s.get? tokenKey := by
  unfold token? getNonempty? LacksToken at *
  cases found : s.get? tokenKey with
  | none => simp [found] at kept
  | some token => simpa [found] using kept

end GrantConsole.Session
