import GrantConsole.Proofs.Console.Views

/-!
# What the document offers

The page stands in the document between header and footer, with the properties on it that the
program does not set. None of this adds to what the page offers: one event on an element brings
about one act at most, and an act of the page only as the page offers it.
-/

namespace GrantConsole.Console

open GrantConsole.Markup GrantConsole.Screen GrantConsole.Widget

/-- What the screen offers, the page does. -/
theorem Page.offers_map {α : Type} {p : Page} {f : α → Page.Act} {view : Node α}
    (all : OffersAll p f [view]) : Every (Lone p.Offers) [] (view.map f) := by
  refine every_map f [] [] view (Every.imp (fun c around lone => ?_) [] view all.1)
  rw [List.append_nil]
  exact Lone.map lone

theorem Page.offers_view (p : Page) : Every (Lone p.Offers) [] p.view := by
  cases p with
  | signIn s => exact offers_map s.offers
  | grants s => exact offers_map s.offers
  | overview s => exact s.silent
  | expenses s => exact offers_map s.offers
  | approvals s => exact offers_map s.offers
  | categories s => exact offers_map s.offers
  | roles s => exact offers_map s.offers
  | users s => exact offers_map s.offers
  | rules s => exact offers_map s.offers
  | ruleEditor s => exact offers_map s.offers
  | missing => trivial

namespace Tab

/-- What can bring about an act in the document: an act of the page only what the page offers. -/
def Offers (tab : Tab) (c : Control Act) (h : Happening) (a : Act) : Prop :=
  ∀ asked, a = .page asked → ∃ own : Control Page.Act, c = own.map .page ∧
    tab.page.Offers own h asked

variable (tab : Tab)

theorem offers_other {a : Act} (other : ∀ asked, a ≠ .page asked) (c : Control Act)
    (h : Happening) : tab.Offers c h a :=
  fun asked same => absurd same (other asked)

theorem offers_header : EveryAmong (Lone tab.Offers) [] tab.header := by
  have bare : (Ground.page (α := Act)).Allowed tab.Offers := trivial
  have places : EveryAmong (Lone tab.Offers) [] (links.map fun link =>
      (Node.link (linkClass link.1 tab.chrome.path) link.1 link.2 : Node Act)) := by
    rw [everyAmong_iff]
    intro n mem
    obtain ⟨link, -, rfl⟩ := List.mem_map.mp mem
    simp [Node.link, Every]
  have signOut : Every (Lone tab.Offers) []
      (Node.button "btn nav-shell__sign-out" "Sign out" Act.signOut) :=
    every_button bare fun h _ => tab.offers_other (fun _ same => by cases same) _ h
  unfold header Chrome.header
  split
  · simpa [Node.link, Every] using ⟨places, signOut⟩
  · trivial

theorem offers_footer : EveryAmong (Lone tab.Offers) [] tab.footer := by
  unfold footer Chrome.footer
  split
  · simp
  · trivial

theorem offers_toastHost : Every (Lone tab.Offers) [] tab.toastHost := by
  have bare : (Ground.page (α := Act)).Allowed tab.Offers := trivial
  simp only [toastHost, Widget.toastHost, every_el, everyAmong_iff]
  intro n mem
  obtain ⟨toast, -, rfl⟩ := List.mem_map.mp mem
  have closes : Lone tab.Offers ⟨"button", Node.contentAll [.text (α := Act) "×"],
      [.on .click (.dismiss toast.id)]⟩ [] :=
    lone_click bare fun h _ => tab.offers_other (fun _ same => by cases same) _ h
  simpa [toastNode, Every] using closes

theorem offers_main : Every (Lone tab.Offers) [] tab.main := by
  refine every_shownIn tab.strays ?_
  have view : Every (Lone tab.Offers) [] (tab.page.view.map Act.page) := by
    refine every_map Act.page [] [] _ (Every.imp (fun c around lone => ?_) [] _ tab.page.offers_view)
    rw [List.append_nil]
    refine Lone.map (lone.imp fun c h a offers asked same => ?_)
    cases same
    exact ⟨c, rfl, offers⟩
  simpa [plainMain] using view

/-- At most one act comes about in the document at a time, and it is offered there. -/
theorem offers_body : EveryAmong (Lone tab.Offers) [] tab.body := by
  simp only [body, everyAmong_append, everyAmong_cons, everyAmong_nil, and_true]
  exact ⟨⟨⟨tab.offers_header, tab.offers_main⟩, tab.offers_footer⟩, tab.offers_toastHost⟩

/-- What is heard on an element of the document and around it. -/
theorem heard_spot {s : Spot Act} (mem : s ∈ spots tab.body) {chain : List (Node Act)}
    (suffix : chain <:+ s.chain) (h : Happening) :
    heard h (chain.map Node.listeners) = [] ∨
      ∃ n ∈ chain, ∃ c a, IsControl n c ∧ heard h (chain.map Node.listeners) = [a] ∧
        tab.Offers c h a := by
  rcases spots_voiced tab.offers_body mem suffix with silent | ⟨n, within_, c, around, is, lone, same⟩
  · exact .inl (silent h)
  · rw [same h]
    exact (lone h).imp id fun ⟨a, one, offers⟩ => ⟨n, within_, c, a, is, one, offers⟩

end Tab

end GrantConsole.Console
