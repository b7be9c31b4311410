import GrantConsole.Proofs.Console.Events
import GrantConsole.Proofs.Markup.Shell

/-!
# Properties that an operator sets

What an operator types into an element, or checks, is a property of it. Nothing else is ever set
from outside: the attributes that tell what an element is are those that the program gave it.
-/

namespace GrantConsole.Console.Tab

open GrantConsole.Api GrantConsole.Markup GrantConsole.Screen GrantConsole.Url

/-- Only properties of inputs were set from outside. -/
def Loose (tab : Tab) : Prop :=
  ∀ stray ∈ tab.strays, stray.property.isFixed = false

section Work

variable (tab : Tab)

@[simp] theorem commands_strays (page : Nat) (cs : List (Command Page.Call)) :
    (tab.commands page cs).strays = tab.strays :=
  commands_field tab page cs Tab.strays (fun _ _ _ => rfl) (fun _ _ => rfl)

@[simp] theorem takeTurn_strays (t : Turn Page Page.Call) :
    (tab.takeTurn t).strays = tab.strays := by
  simp [takeTurn]

@[simp] theorem settleCall_strays (page : Nat) (c : Page.Call) (outcome : Outcome c.Answer) :
    (tab.settleCall page c outcome).strays = tab.strays := by
  unfold settleCall
  split <;> simp [push]

@[simp] theorem send_strays (page : Nat) (c : Page.Call) :
    (tab.send page c).strays = tab.strays := by
  rcases tab.send_cases page c with
    ⟨-, sent⟩ | ⟨request, -, ⟨r, server, -, sent⟩ | ⟨server, -, sent⟩⟩
  · rw [sent, settleCall_strays]
  · rw [sent, reply, settleCall_strays]
  · rw [sent]

/-- Another page has no properties that were set on the one before. -/
theorem goto_strays (location : Location) : (tab.goto location).strays ⊆ tab.strays := by
  rcases tab.goto_cases location with same | ⟨_, _, same⟩ | ⟨_, same⟩ <;> rw [same]
  · exact List.Subset.refl _
  · exact List.Subset.refl _
  · exact List.nil_subset _

theorem Works.strays {tab after : Tab} {due : Due} (works : Works tab due after) :
    after.strays ⊆ tab.strays := by
  cases works with
  | mounts => rw [takeTurn_strays]; exact List.Subset.refl _
  | calls page c => rw [send_strays]; exact List.Subset.refl _
  | goes path => exact goto_strays ..
  | signsOut => exact goto_strays ..
  | expires => exact goto_strays { tab with expired := false } _
  | left own elsewhere => exact List.Subset.refl _
  | seen => exact List.Subset.refl _

theorem run_strays : tab.run.strays ⊆ tab.strays := by
  have worked : (tab.runFor workLimit).strays ⊆ tab.strays :=
    tab.runFor_carries (fun a b => b.strays ⊆ a.strays) (fun _ => List.Subset.refl _)
      (fun first second => List.Subset.trans second first)
      (fun tab due rest _ => (works_work { tab with due := rest } due).strays) workLimit
  exact fun stray kept => worked (List.mem_filter.mp kept).1

end Work

section Loose

variable {tab other : Tab}

theorem Loose.mono (loose : tab.Loose) (fewer : other.strays ⊆ tab.strays) : other.Loose :=
  fun stray mem => loose stray (fewer mem)

theorem Loose.run (loose : tab.Loose) : tab.run.Loose :=
  loose.mono tab.run_strays

theorem Loose.act (loose : tab.Loose) (a : Act) (entry : Entry) : (tab.act a entry).Loose := by
  cases a with
  | page a =>
    have turned : (tab.takeTurn (tab.page.handle tab.session a entry)).Loose :=
      loose.mono (by rw [takeTurn_strays]; exact List.Subset.refl _)
    exact turned.run
  | signOut =>
    have out : (push { tab with session := tab.session.signOut } .signedOut).Loose := loose
    exact out.run
  | dismiss id => exact loose

theorem Loose.visit (loose : tab.Loose) (path : String) : (tab.visit path).Loose :=
  (loose.mono (tab.goto_strays _)).run

theorem Loose.setProperty (loose : tab.Loose) (spot : Spot Act) {property : Attribute}
    (shown : property.isFixed = false) : (tab.setProperty spot property).Loose := by
  intro stray mem
  rcases List.mem_cons.mp mem with rfl | old
  · exact shown
  · exact loose stray (List.mem_filter.mp old).1

theorem loose_upheld : Upheld Loose where
  acts _ loose a entry := loose.act a entry
  visits _ loose path := loose.visit path
  types _ loose spot _ := loose.setProperty spot rfl
  ticks _ loose spot _ := loose.setProperty spot rfl

theorem Loose.step (loose : tab.Loose) (s : Step) : (tab.step s).1.Loose := by
  cases s with
  | visit path => exact loose.visit path
  | reply r nth =>
    simp only [Tab.step]
    split
    · rename_i answered
      obtain ⟨flight, -, rfl⟩ := Option.map_eq_some_iff.mp answered
      refine Loose.run (loose.mono ?_)
      rw [reply, settleCall_strays]
      exact List.Subset.refl _
    · exact loose
  | wait ms => exact loose
  | keep key value => cases value <;> exact loose
  | _ => exact loose_upheld.step loose rfl

/-- All runs of the console leave the attributes alone that tell what an element is. -/
theorem loose_after (session : Session) (server : Server) (path : String) (steps : List Step) :
    ((opened session server path).after steps).Loose := by
  have kept (tab : Tab) (loose : tab.Loose) : (tab.after steps).Loose := by
    induction steps generalizing tab with
    | nil => exact loose
    | cons s steps ih => exact ih _ (loose.step s)
  have first : (launched session server path).Loose := fun stray mem => nomatch mem
  exact kept _ (opened_eq session server path ▸ first.run)

end Loose

end GrantConsole.Console.Tab
