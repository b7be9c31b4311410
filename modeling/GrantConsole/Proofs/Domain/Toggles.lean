import GrantConsole.Domain.Account
import GrantConsole.Screen.Roles
import Mathlib.Data.List.Basic
import Mathlib.Data.List.Induction

/-!
# Permissions given and taken

Permissions are given and taken one at a time. However many times that is done, what a role holds in
the end are permissions of the catalogue in its order, each one as the last toggle of it says; those
that no toggle was of are held if they were held before.
-/

namespace GrantConsole

/-- A permission that is given or taken. -/
structure Toggle where
  permission : String
  enabled : Bool
deriving Repr, DecidableEq

/-- The permissions after toggles that follow each other. -/
def toggleAll (permissions : List String) (ts : List Toggle) : List String :=
  ts.foldl (fun held t => togglePermission held t.permission t.enabled) permissions

/-- None of the toggles is of the permission. -/
def Untoggled (ts : List Toggle) (p : String) : Prop :=
  ∀ t ∈ ts, t.permission ≠ p

/-- The last of the toggles that are of the permission gives it. -/
def GivenLast (ts : List Toggle) (p : String) : Prop :=
  ∃ before after, ts = before ++ ⟨p, true⟩ :: after ∧ Untoggled after p

/-- The toggles give the permission in the end, or leave it as it was held at the start. -/
def HeldAfter (start : List String) (ts : List Toggle) (p : String) : Prop :=
  GivenLast ts p ∨ Untoggled ts p ∧ p ∈ start

variable {start : List String} {ts us : List Toggle} {t : Toggle} {p : String}

/-! ## One toggle more -/

@[simp] theorem toggleAll_nil (start : List String) : toggleAll start [] = start := rfl

@[simp] theorem toggleAll_concat (start : List String) (ts : List Toggle) (t : Toggle) :
    toggleAll start (ts ++ [t]) =
      togglePermission (toggleAll start ts) t.permission t.enabled := by
  simp [toggleAll]

theorem nodup_permissionCatalogue : permissionCatalogue.Nodup := by
  decide

theorem mem_togglePermission {held : List String} {permission : String} {enabled : Bool} :
    p ∈ togglePermission held permission enabled ↔
      p ∈ permissionCatalogue ∧ if p = permission then enabled = true else p ∈ held := by
  rw [togglePermission, List.mem_filter]
  split <;> simp

theorem untoggled_concat : Untoggled (ts ++ [t]) p ↔ t.permission ≠ p ∧ Untoggled ts p := by
  simp only [Untoggled, List.mem_append, List.mem_singleton, or_imp, forall_and, forall_eq]
  exact and_comm

/-- The last toggle decides about its own permission and about no other. -/
theorem givenLast_concat :
    GivenLast (ts ++ [t]) p ↔ if p = t.permission then t.enabled = true else GivenLast ts p := by
  constructor
  · rintro ⟨before, after, parts, quiet⟩
    rcases List.eq_nil_or_concat' after with rfl | ⟨after, last, rfl⟩
    · obtain ⟨-, rfl⟩ := List.append_inj' parts rfl |>.imp_right List.singleton_inj.mp
      rw [if_pos rfl]
    · obtain ⟨other, earlier⟩ := untoggled_concat.mp quiet
      rw [← List.cons_append, ← List.append_assoc] at parts
      obtain ⟨rfl, rfl⟩ := List.append_inj' parts rfl |>.imp_right List.singleton_inj.mp
      rw [if_neg other.symm]
      exact ⟨before, after, rfl, earlier⟩
  · intro given
    split at given
    · rename_i own
      subst own
      exact ⟨ts, [], by rw [← given], nofun⟩
    · rename_i other
      obtain ⟨before, after, rfl, quiet⟩ := given
      exact ⟨before, after ++ [t], by simp, untoggled_concat.mpr ⟨Ne.symm other, quiet⟩⟩

theorem heldAfter_nil : HeldAfter start [] p ↔ p ∈ start := by
  simp [HeldAfter, GivenLast, Untoggled]

theorem heldAfter_concat :
    HeldAfter start (ts ++ [t]) p ↔
      if p = t.permission then t.enabled = true else HeldAfter start ts p := by
  unfold HeldAfter
  rw [givenLast_concat, untoggled_concat]
  split
  · rename_i own
    simp [own]
  · rename_i other
    simp [Ne.symm other]

/-! ## Any number of toggles -/

/-- By induction on the toggles, the last one first: of a permission of the catalogue nothing but
the toggles of it counts. -/
theorem mem_toggleAll (known : p ∈ permissionCatalogue) :
    p ∈ toggleAll start ts ↔ HeldAfter start ts p := by
  induction ts using List.reverseRecOn with
  | nil => exact heldAfter_nil.symm
  | append_singleton ts t ih =>
    rw [toggleAll_concat, mem_togglePermission, heldAfter_concat, ih]
    exact and_iff_right known

/-- As soon as there is a toggle, what is held is a part of the catalogue. -/
theorem toggleAll_sublist (some : ts ≠ []) :
    (toggleAll start ts).Sublist permissionCatalogue := by
  obtain ⟨before, last, rfl⟩ := (List.eq_nil_or_concat' ts).resolve_left some
  rw [toggleAll_concat]
  exact List.filter_sublist

theorem toggleAll_eq_filter (some : ts ≠ []) :
    toggleAll start ts = permissionCatalogue.filter (· ∈ toggleAll start ts) := by
  obtain ⟨before, last, rfl⟩ := (List.eq_nil_or_concat' ts).resolve_left some
  rw [toggleAll_concat]
  refine List.filter_congr fun q known => ?_
  simp [mem_togglePermission, known]

/-- Toggles that settle the same about every permission come to the same. -/
theorem toggleAll_congr (some : ts ≠ []) (some' : us ≠ [])
    (same : ∀ p, HeldAfter start ts p ↔ HeldAfter start us p) :
    toggleAll start ts = toggleAll start us := by
  rw [toggleAll_eq_filter some, toggleAll_eq_filter some']
  refine List.filter_congr fun q known => decide_eq_decide.mpr ?_
  rw [mem_toggleAll known, mem_toggleAll known, same q]

/-- What was settled before is all that counts for later toggles. -/
theorem heldAfter_append_congr (same : ∀ p, HeldAfter start ts p ↔ HeldAfter start us p)
    (later : List Toggle) :
    ∀ p, HeldAfter start (ts ++ later) p ↔ HeldAfter start (us ++ later) p := by
  induction later using List.reverseRecOn with
  | nil => simpa using same
  | append_singleton later t ih =>
    intro p
    rw [← List.append_assoc, ← List.append_assoc, heldAfter_concat, heldAfter_concat, ih p]

/-- Toggles of other permissions settle nothing about this one. -/
theorem heldAfter_append_untoggled (quiet : Untoggled us p) :
    HeldAfter start (ts ++ us) p ↔ HeldAfter start ts p := by
  induction us using List.reverseRecOn with
  | nil => rw [List.append_nil]
  | append_singleton us t ih =>
    obtain ⟨other, quiet⟩ := untoggled_concat.mp quiet
    rw [← List.append_assoc, heldAfter_concat, if_neg other.symm, ih quiet]

/-- Two toggles of different permissions may change places. -/
theorem heldAfter_swap {u : Toggle} (different : t.permission ≠ u.permission) :
    HeldAfter start (ts ++ [t, u]) p ↔ HeldAfter start (ts ++ [u, t]) p := by
  have last (a b : Toggle) : ts ++ [a, b] = ts ++ [a] ++ [b] := by simp
  rw [last, last, heldAfter_concat, heldAfter_concat, heldAfter_concat, heldAfter_concat]
  by_cases first : p = t.permission
  · simp [first, different]
  · simp [first]

/-- A toggle that repeats the last one of its permission settles nothing more. -/
theorem heldAfter_repeat (quiet : Untoggled us t.permission) :
    HeldAfter start (ts ++ t :: us ++ [t]) p ↔ HeldAfter start (ts ++ t :: us) p := by
  rw [heldAfter_concat]
  split
  · rename_i own
    have parts : ts ++ t :: us = ts ++ [t] ++ us := by simp
    rw [own, parts, heldAfter_append_untoggled quiet, heldAfter_concat, if_pos rfl]
  · exact Iff.rfl

/-- What a role holds after toggles. -/
structure LastToggleWins (start : List String) (ts : List Toggle) (held : List String) : Prop where
  /-- Permissions of the catalogue, in its order. -/
  ordered : held.Sublist permissionCatalogue
  distinct : held.Nodup
  told : ∀ p, p ∈ held ↔ p ∈ permissionCatalogue ∧ HeldAfter start ts p

/-- Toggles of permissions, from any permissions at the start. -/
structure TogglesSettle (start : List String) : Prop where
  settled : ∀ t ts, LastToggleWins start (t :: ts) (toggleAll start (t :: ts))
  /-- Toggles of different permissions may change places. -/
  commute : ∀ before t u after, t.permission ≠ u.permission →
    toggleAll start (before ++ t :: u :: after) = toggleAll start (before ++ u :: t :: after)
  /-- A toggle may be made again, as long as there is no other of its permission between. -/
  again : ∀ before t between after, Untoggled between t.permission →
    toggleAll start (before ++ t :: between ++ t :: after) =
      toggleAll start (before ++ t :: between ++ after)

/-- Of all toggles of a permission the last one counts. -/
theorem toggles_settle (start : List String) : TogglesSettle start where
  settled t ts := by
    have part : (toggleAll start (t :: ts)).Sublist permissionCatalogue :=
      toggleAll_sublist (List.cons_ne_nil t ts)
    refine ⟨part, nodup_permissionCatalogue.sublist part, fun p => ⟨fun mem => ?_, ?_⟩⟩
    · have known := part.subset mem
      exact ⟨known, (mem_toggleAll known).mp mem⟩
    · rintro ⟨known, held⟩
      exact (mem_toggleAll known).mpr held
  commute before t u after different := by
    refine toggleAll_congr (by simp) (by simp) ?_
    have same := heldAfter_append_congr
      (fun p => @heldAfter_swap start before t p u different) after
    simpa using same
  again before t between after quiet := by
    refine toggleAll_congr (by simp) (by simp) ?_
    have same := heldAfter_append_congr
      (fun p => @heldAfter_repeat start before between t p quiet) after
    simpa using same

/-- A permission that is unknown, one that is held twice, and toggles of one permission with others
between them. -/
theorem toggles_settle_mixed :
    let start := ["fly", "view_grant", "view_grant", "create_rules"]
    let ts : List Toggle := [⟨"create_rules", false⟩, ⟨"swim", true⟩, ⟨"edit_grant", true⟩,
      ⟨"create_rules", true⟩, ⟨"edit_grant", false⟩]
    LastToggleWins start ts ["create_rules", "view_grant"] ∧
      Untoggled ts "view_grant" ∧ GivenLast ts "create_rules" ∧
      toggleAll start (ts ++ [⟨"swim", true⟩]) = toggleAll start ts := by
  intro start ts
  have held : toggleAll start ts = ["create_rules", "view_grant"] := by decide +kernel
  have settles := toggles_settle start
  have settled : LastToggleWins start ts (toggleAll start ts) := settles.settled _ _
  have again := settles.again [⟨"create_rules", false⟩] ⟨"swim", true⟩
    [⟨"edit_grant", true⟩, ⟨"create_rules", true⟩, ⟨"edit_grant", false⟩] []
    (by simp [Untoggled])
  refine ⟨held ▸ settled, by simp [Untoggled, ts], ?_, again⟩
  exact ⟨ts.take 3, ts.drop 4, rfl, by simp [Untoggled, ts]⟩

/-! ## In the dialog of a role -/

namespace Screen.Roles

/-- The page after boxes of the catalogue have been ticked and cleared in its dialog. -/
def tickAll (s : Roles) (session : Session) (ts : List Toggle) : Roles :=
  ts.foldl (fun s t =>
    (s.handle session (.permission t.permission) ⟨"", t.enabled⟩).state) s

theorem draft?_editDraft (s : Roles) (f : Role → Role) :
    (rows.listing (s.editDraft f)).draft? = (rows.listing s).draft?.map f := by
  have update : rows.listing (s.editDraft f) = (rows.listing s).editDraft f := rfl
  rw [update, Listing.draft?, Listing.editDraft, Listing.draft?]
  cases (rows.listing s).dialog <;> rfl

/-- The role in the dialog holds what the boxes say that were ticked and cleared last; nothing else
of it is changed. -/
theorem draft?_tickAll {s : Roles} {role : Role} (opened : (rows.listing s).draft? = some role)
    (session : Session) (ts : List Toggle) :
    (rows.listing (s.tickAll session ts)).draft? =
      some { role with permissions := toggleAll role.permissions ts } := by
  induction ts using List.reverseRecOn with
  | nil => exact opened
  | append_singleton ts t ih =>
    have one : s.tickAll session (ts ++ [t]) =
        (s.tickAll session ts).editDraft fun r =>
          { r with permissions := togglePermission r.permissions t.permission t.enabled } := by
      simp [tickAll, handle]
    rw [one, draft?_editDraft, ih, toggleAll_concat]
    rfl

end Screen.Roles

end GrantConsole
