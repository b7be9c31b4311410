import GrantConsole.Proofs.Console.Controls
import GrantConsole.Proofs.Console.Questions

/-!
# What the pages offer

The controls of a page bring about acts of that page, one at a time. Deletions are asked for by the
buttons in the rows of the listed records, a question is answered yes by the button of its dialog,
and a rule is submitted by the form of the editor, which is shown only once its rule is loaded.
-/

namespace GrantConsole.Console

open GrantConsole.Markup GrantConsole.Screen GrantConsole.Widget

namespace Page

/-- The act submits a rule. -/
def Act.submits : Act → Bool
  | ruleEditor .submit => true
  | _ => false

/-- What can bring about an act on a page. -/
structure Offers (p : Page) (c : Control Act) (h : Tab.Happening) (a : Act) : Prop where
  own : a.kind = p.kind
  asks : ∀ id, a.asks? = some id →
    h.event = .click ∧ c = ⟨"button", p.deleteLabel, [.on .click a]⟩ ∧ id ∈ p.listed
  confirms : a.confirms = true →
    h.event = .click ∧ c = ⟨"button", p.deleteLabel, [.on .click a]⟩ ∧ ∃ id, p.asked? = some id
  submits : a.submits = true →
    h.event = .submit ∧ ∃ s, p = ruleEditor s ∧ s.loading = false ∧ s.problem = none

/-- An act of a screen that neither asks nor answers nor submits: it can come about in any way. -/
def Act.isPlain (a : Act) (kind : Kind) : Bool :=
  a.kind == kind && a.asks?.isNone && !a.confirms && !a.submits

theorem Offers.plain {p : Page} {c : Control Act} {h : Tab.Happening} {a : Act}
    (isPlain : a.isPlain p.kind = true) : p.Offers c h a := by
  simp only [Act.isPlain, Bool.and_eq_true, beq_iff_eq, Bool.not_eq_true', Option.isNone_iff_eq_none]
    at isPlain
  obtain ⟨⟨⟨own, asksNot⟩, confirmsNot⟩, submitsNot⟩ := isPlain
  exact
    { own
      asks := fun id asked => by rw [asksNot] at asked; cases asked
      confirms := fun confirmed => by rw [confirmsNot] at confirmed; cases confirmed
      submits := fun submitted => by rw [submitsNot] at submitted; cases submitted }

/-- What a screen offers that is a page. -/
def OffersAs {α : Type} (p : Page) (f : α → Act) (c : Control α) (h : Tab.Happening) (a : α) : Prop :=
  p.Offers (c.map f) h (f a)

section OffersAs

variable {α : Type} {p : Page} {f : α → Act} {a : α}

theorem OffersAs.plain (isPlain : (f a).isPlain p.kind = true) (c : Control α)
    (h : Tab.Happening) : p.OffersAs f c h a :=
  Offers.plain isPlain

/-- The button that answers a question yes. -/
theorem OffersAs.confirm {id : String} (own : (f a).kind = p.kind)
    (kinds : ((f a).asks?, (f a).submits) = (none, false)) (asked : p.asked? = some id)
    (h : Tab.Happening) (click : h.event = .click) :
    p.OffersAs f ⟨"button", p.deleteLabel, [.on .click a]⟩ h a where
  own := own
  asks id asked := by rw [(Prod.mk.inj kinds).1] at asked; cases asked
  confirms _ := ⟨click, rfl, id, asked⟩
  submits submitted := by rw [(Prod.mk.inj kinds).2] at submitted; cases submitted

/-- The button in the row of a listed record. -/
theorem OffersAs.ask {id : String} (own : (f a).kind = p.kind)
    (kinds : ((f a).asks?, (f a).confirms, (f a).submits) = (some id, false, false))
    (listed : id ∈ p.listed) (h : Tab.Happening) (click : h.event = .click) :
    p.OffersAs f ⟨"button", p.deleteLabel, [.on .click a]⟩ h a := by
  simp only [Prod.mk.injEq] at kinds
  obtain ⟨asks, confirms, submits⟩ := kinds
  exact
    { own
      asks := fun other asked => by
        rw [asks] at asked
        cases asked
        exact ⟨click, rfl, listed⟩
      confirms := fun confirmed => by rw [confirms] at confirmed; cases confirmed
      submits := fun submitted => by rw [submits] at submitted; cases submitted }

end OffersAs

end Page

/-- The id of a row is listed. -/
theorem mem_ids {R : Type} [Resource R] {items : List R} {row : R} {id : String} (mem : row ∈ items)
    (known : Resource.id? row = some id) : id ∈ Listing.ids items :=
  List.mem_filterMap.mpr ⟨row, mem, known⟩

/-- Everything among nodes of a screen is offered by the page that it is. -/
abbrev OffersAll {α : Type} (p : Page) (f : α → Page.Act) (nodes : List (Node α)) : Prop :=
  EveryAmong (Lone (p.OffersAs f)) [] nodes

end GrantConsole.Console
