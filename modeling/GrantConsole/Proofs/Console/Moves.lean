import Mathlib.Logic.Relation
import GrantConsole.Proofs.Console.Steps
import GrantConsole.Proofs.Console.Underway

/-!
# The moves of the console

A step of an operator is made of moves: the event, and the pieces of work that it makes due, one by
one. What every move keeps holds at all times, also between the pieces of work.
-/

namespace GrantConsole.Console

open GrantConsole.Api GrantConsole.Markup GrantConsole.Screen GrantConsole.Url

namespace Tab

/-- One move of the console. Events are taken in when nothing is due. -/
inductive Moves : Tab → Tab → Prop
  /-- The work that became due first is done. -/
  | works {tab after : Tab} (next : tab.next = some after) : Moves tab after
  /-- The page takes in an act. A rule is submitted only as the page offers it. -/
  | acts {tab : Tab} (rests : tab.due = []) {a : Page.Act}
      (offered : a.submits = true → ∃ c h, tab.page.Offers c h a) (entry : Entry) :
      Moves tab (tab.takeTurn (tab.page.handle tab.session a entry))
  | signsOut {tab : Tab} (rests : tab.due = []) :
      Moves tab ({ tab with session := tab.session.signOut }.push .signedOut)
  | visits {tab : Tab} (rests : tab.due = []) (path : String) : Moves tab (tab.follow path)
  | answers {tab : Tab} (rests : tab.due = []) {nth : Nat} {flight : Flight}
      (held : tab.flights[nth]? = some flight) (r : Reply) :
      Moves tab
        ({ tab with flights := tab.flights.eraseIdx nth }.reply flight.page flight.call r)
  | dismisses (tab : Tab) (id : Nat) : Moves tab { tab with toasts := tab.toasts.dismiss id }
  | waits (tab : Tab) (ms : Nat) : Moves tab (tab.wait ms)
  | keeps (tab : Tab) (key : String) (value : Option String) : Moves tab (tab.keep key value)
  /-- Properties of elements that the program does not set change or are forgotten. -/
  | dresses (tab : Tab) (strays : List Stray) : Moves tab { tab with strays }

/-- What any number of moves lead to. -/
abbrev Leads : Tab → Tab → Prop :=
  Relation.ReflTransGen Moves

section Leads

variable {tab before after : Tab}

theorem leads_runFor (tab : Tab) (fuel : Nat) : Leads tab (tab.runFor fuel) :=
  tab.runFor_carries Leads (fun _ => .refl) (fun first second => first.trans second)
    (fun tab _ _ first => .single (.works (next_eq_some tab first))) fuel

theorem leads_run (tab : Tab) : Leads tab tab.run :=
  (leads_runFor tab workLimit).tail (.dresses _ _)

theorem leads_act (rests : tab.due = []) {a : Act}
    (offered : ∀ asked, a = .page asked → asked.submits = true →
      ∃ c h, tab.page.Offers c h asked) (entry : Entry) : Leads tab (tab.act a entry) := by
  cases a with
  | page a => exact .head (.acts rests (offered a rfl) entry) (leads_run _)
  | signOut => exact .head (.signsOut rests) (leads_run _)
  | dismiss id => exact .single (.dismisses tab id)

theorem leads_visit (rests : tab.due = []) (path : String) : Leads tab (tab.visit path) :=
  .head (.visits rests path) (leads_run _)

/-- An act that is heard is one that the page offers. -/
theorem Hears.offered_act {chain : List (Node Act)} {h : Happening} {a : Act}
    (heard : tab.Hears chain h a) :
    ∀ asked, a = .page asked → ∃ c, tab.page.Offers c h asked := by
  rintro asked rfl
  obtain ⟨-, n, -, c, -, offers⟩ := heard
  obtain ⟨own, -, offered⟩ := offers asked rfl
  exact ⟨own, offered⟩

theorem Later.leads (later : Later before after) (rests : before.due = []) : Leads before after := by
  induction later with
  | none => exact .refl
  | visits later path ih => exact ih.trans (leads_visit (later.due rests) path)
  | hears later heard noClick submitted ih =>
    refine ih.trans (leads_act (later.due rests) (fun asked same submits => ?_) _)
    -- A submit was heard as the document shows the form now.
    obtain ⟨c, offers⟩ := heard.offered_act asked same
    obtain ⟨c, shown⟩ := (submitted (offers.submits submits).1).offered_act asked same
    exact ⟨c, _, shown⟩

theorem Redressed.leads (dressed : tab.Redressed before) : Leads tab before := by
  obtain ⟨strays, rfl⟩ := dressed
  exact .single (.dresses tab strays)

/-- A step is made of moves. -/
theorem leads_step (rests : tab.due = []) (s : Step) : Leads tab (tab.step s).1 := by
  have does := does_step tab s
  generalize (tab.step s).1 = after at does
  cases does with
  | nothing => exact .refl
  | visits path => exact leads_visit rests path
  | answers answered =>
    obtain ⟨flight, held, rfl⟩ := Option.map_eq_some_iff.mp answered
    exact .head (.answers rests held _) (leads_run _)
  | waits ms => exact .single (.waits tab ms)
  | keeps key value => exact .single (.keeps tab key value)
  | unheard dressed later => exact dressed.leads.trans (later.leads (dressed.due.trans rests))
  | hears dressed mem heard click later =>
    have quiet := dressed.due.trans rests
    refine dressed.leads.trans (.trans (leads_act quiet (fun asked same _ => ?_) _)
      (later.leads (act_due quiet _ _)))
    obtain ⟨c, offers⟩ := heard.offered_act asked same
    exact ⟨c, _, dressed.page ▸ offers⟩

end Leads

/-- Runs of the console are made of moves. -/
theorem leads_after (session : Session) (server : Server) (path : String) (steps : List Step) :
    Leads (launched session server path) ((opened session server path).after steps) := by
  obtain ⟨back, rfl⟩ : ∃ back : List Step, steps = back.reverse := ⟨steps.reverse, by simp⟩
  induction back with
  | nil => exact opened_eq session server path ▸ leads_run _
  | cons s back ih =>
    rw [List.reverse_cons, after_concat]
    exact ih.trans (leads_step (after_due session server path _) s)

/-! ## What moves keep -/

section Kept

variable {tab after : Tab}

theorem launched_sound (session : Session) (server : Server) (path : String) :
    (launched session server path).Sound where
  opened page mem := Nat.le_of_eq (List.mem_singleton.mp mem)
  made f mem := nomatch mem
  own f mem := nomatch mem
  steady := by
    rw [launched_page]
    exact Page.steady_opened _ session

/-- A call that is answered is taken from those that wait. -/
theorem calls_eraseIdx {nth : Nat} {flight : Flight} (held : tab.flights[nth]? = some flight) :
    tab.calls.Perm (flight :: calls { tab with flights := tab.flights.eraseIdx nth }) := by
  obtain ⟨within_, rfl⟩ := List.getElem?_eq_some_iff.mp held
  have taken := (List.getElem_cons_eraseIdx_perm within_).symm
  exact (taken.append_left _).trans List.perm_middle

theorem Moves.sound (moves : Moves tab after) (sound : tab.Sound) : after.Sound := by
  cases moves with
  | works next => exact next_sound sound next
  | acts rests offered entry =>
    refine takeTurn_sound ?_
    have none : tab.mounts = [] := by rw [mounts, rests]; rfl
    rw [none]
    have quiet : Console.Sound tab.page tab.number [] tab.calls := none ▸ sound
    exact quiet.acts tab.session offered entry
  | signsOut rests =>
    have calls : calls ({ tab with session := tab.session.signOut }.push .signedOut) = tab.calls := by
      simp [Tab.calls, push, rests, Due.flight?]
    have mounts : mounts ({ tab with session := tab.session.signOut }.push .signedOut) =
        tab.mounts := by
      simp [Tab.mounts, push, rests, Due.mounted?]
    unfold Sound
    rw [calls, mounts]
    exact sound
  | visits rests path => exact follow_sound sound path
  | @answers _ nth flight held r =>
    have taken := Console.Sound.perm sound (calls_eraseIdx held)
    exact @settleCall_sound { tab with flights := tab.flights.eraseIdx nth } flight.page flight.call
      taken _
  | dismisses id => exact sound
  | waits ms => exact sound
  | keeps key value => cases value <;> exact sound
  | dresses strays => exact sound

theorem Leads.sound (leads : Leads tab after) (sound : tab.Sound) : after.Sound := by
  induction leads with
  | refl => exact sound
  | tail _ moves ih => exact moves.sound ih

end Kept

end Tab

end GrantConsole.Console
