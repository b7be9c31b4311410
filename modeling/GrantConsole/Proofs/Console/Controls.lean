import GrantConsole.Proofs.Console.Hearing
import GrantConsole.Console.Chrome
import GrantConsole.Widget.Clause
import GrantConsole.Widget.Dialog
import GrantConsole.Widget.Field
import GrantConsole.Widget.Table
import GrantConsole.Widget.ToastHost

/-!
# What the widgets offer

A control stands on the page itself, in a dialog or in a form. Wherever it stands, one event on it
brings about one act at most: a dialog lets no click through to its backdrop, and no control hears
an event twice. For each widget it is said of which acts this makes sure that a property holds.
-/

namespace GrantConsole.Console

open GrantConsole.Markup GrantConsole.Screen GrantConsole.Widget

variable {α β R : Type}

/-- At most one act is heard on a control, and that act has a property. -/
def Lone (Q : Control α → Tab.Happening → α → Prop) (c : Control α)
    (around : List (List (Listener α))) : Prop :=
  ∀ h, heard h (c.listeners :: around) = [] ∨
    ∃ a, heard h (c.listeners :: around) = [a] ∧ Q c h a

theorem Lone.imp {P Q : Control α → Tab.Happening → α → Prop}
    (weaker : ∀ c h a, P c h a → Q c h a) {c : Control α} {around : List (List (Listener α))}
    (lone : Lone P c around) : Lone Q c around :=
  fun h => (lone h).imp id fun ⟨a, one, holds⟩ => ⟨a, one, weaker c h a holds⟩

theorem Lone.map {f : α → β} {Q : Control β → Tab.Happening → β → Prop} {c : Control α}
    {around : List (List (Listener α))} (lone : Lone (fun c h a => Q (c.map f) h (f a)) c around) :
    Lone Q (c.map f) (around.map (mapListeners f)) := by
  intro h
  have same : heard h ((c.map f).listeners :: around.map (mapListeners f)) =
      (heard h (c.listeners :: around)).map f := heard_map f h (c.listeners :: around)
  rw [same]
  rcases lone h with none | ⟨a, one, holds⟩
  · exact .inl (by rw [none]; rfl)
  · exact .inr ⟨f a, by rw [one]; rfl, holds⟩

/-- What a control stands in. -/
inductive Ground (α : Type)
  | page
  | dialog (close : α)
  | form (submit : α)

namespace Ground

/-- The listeners around the controls in it. -/
def around : Ground α → List (List (Listener α))
  | page => []
  | dialog close => [[.stop .click, .onEscape close], [.on .click close]]
  | form submit => [[.on .submit submit]]

/-- What the ground itself brings about has a property. -/
def Allowed (Q : Control α → Tab.Happening → α → Prop) : Ground α → Prop
  | page => True
  | dialog close => ∀ c h, h.event = .keydown → Q c h close
  | form submit => ∀ c h, h.event = .submit → Q c h submit

variable {Q : Control α → Tab.Happening → α → Prop} {g : Ground α}

/-- The ground hears the Escape key and submits, and lets them bring about one act. -/
theorem heard_around (allowed : g.Allowed Q) (c : Control α) (h : Tab.Happening) :
    heard h g.around = [] ∨
      (h.event = .keydown ∨ h.event = .submit) ∧ ∃ a, heard h g.around = [a] ∧ Q c h a := by
  cases g with
  | page => exact .inl rfl
  | dialog close =>
    by_cases escape : h.event = .keydown ∧ h.key = "Escape"
    · refine .inr ⟨.inl escape.1, close, ?_, allowed c h escape.1⟩
      simp [around, heard, answered?, passes, escape, List.filterMap_cons]
    · refine .inl ?_
      by_cases click : h.event = .click
      · simp [around, heard, answered?, passes, click, List.filterMap_cons]
      · have other : .click ≠ h.event := fun same => click same.symm
        simp [around, heard, answered?, escape, other, List.filterMap_cons]
  | form submit =>
    by_cases same : h.event = .submit
    · refine .inr ⟨.inr same, submit, ?_, allowed c h same⟩
      simp [around, heard, answered?, same]
    · refine .inl ?_
      have other : .submit ≠ h.event := fun eq => same eq.symm
      simp [around, heard, answered?, other]

end Ground

section Widgets

variable {Q : Control α → Tab.Happening → α → Prop} {g : Ground α} (allowed : g.Allowed Q)

include allowed

/-- A control that lets every event pass, and answers one kind of event with one act at most, none
of them an event that the ground hears. -/
theorem lone_leaf {c : Control α} (open_ : ∀ h, c.listeners.all (passes h) = true)
    (own : ∀ h, c.listeners.filterMap (answered? h) = [] ∨
      h.event ≠ .keydown ∧ h.event ≠ .submit ∧
        ∃ a, c.listeners.filterMap (answered? h) = [a] ∧ Q c h a) :
    Lone Q c g.around := by
  intro h
  rw [heard, if_pos (open_ h)]
  rcases own h with silent | ⟨noKey, noSubmit, a, one, holds⟩
  · rw [silent, List.nil_append]
    exact (Ground.heard_around allowed c h).imp id And.right
  · rcases Ground.heard_around allowed c h with silent | ⟨key | submit, -⟩
    · exact .inr ⟨a, by rw [one, silent]; rfl, holds⟩
    · exact absurd key noKey
    · exact absurd submit noSubmit

theorem lone_click {tag content : String} {act : α}
    (own : ∀ h, h.event = .click → Q ⟨tag, content, [.on .click act]⟩ h act) :
    Lone Q ⟨tag, content, [.on .click act]⟩ g.around := by
  refine lone_leaf allowed (fun _ => rfl) fun h => ?_
  by_cases click : h.event = .click
  · exact .inr ⟨by simp [click], by simp [click], act, by simp [answered?, click], own h click⟩
  · have other : .click ≠ h.event := fun same => click same.symm
    exact .inl (by simp [answered?, other])

theorem lone_input {tag content : String} {typed : α} (holds : ∀ c h, Q c h typed) :
    Lone Q ⟨tag, content, [.on .input typed]⟩ g.around := by
  refine lone_leaf allowed (fun _ => rfl) fun h => ?_
  by_cases input : h.event = .input
  · exact .inr ⟨by simp [input], by simp [input], typed, by simp [answered?, input], holds _ h⟩
  · have other : .input ≠ h.event := fun same => input same.symm
    exact .inl (by simp [answered?, other])

theorem lone_change {tag content : String} {chosen : α} (holds : ∀ c h, Q c h chosen) :
    Lone Q ⟨tag, content, [.on .change chosen]⟩ g.around := by
  refine lone_leaf allowed (fun _ => rfl) fun h => ?_
  by_cases change : h.event = .change
  · exact .inr ⟨by simp [change], by simp [change], chosen, by simp [answered?, change], holds _ h⟩
  · have other : .change ≠ h.event := fun same => change same.symm
    exact .inl (by simp [answered?, other])

theorem lone_choice {tag content : String} {typed chosen : α} (types : ∀ c h, Q c h typed)
    (chooses : ∀ c h, Q c h chosen) :
    Lone Q ⟨tag, content, [.on .input typed, .on .change chosen]⟩ g.around := by
  refine lone_leaf allowed (fun _ => rfl) fun h => ?_
  cases event : h.event with
  | input => exact .inr ⟨by simp, by simp, typed, by simp [answered?, event], types _ h⟩
  | change => exact .inr ⟨by simp, by simp, chosen, by simp [answered?, event], chooses _ h⟩
  | click | submit | keydown => exact .inl (by simp [answered?, event])

theorem every_button {cls label : String} {act : α}
    (own : ∀ h, h.event = .click → Q ⟨"button", label, [.on .click act]⟩ h act) :
    Every (Lone Q) g.around (.button cls label act) := by
  have content : Node.contentAll [Node.text (α := α) label] = label := by
    simp [Node.contentAll, Node.content]
  simp only [Node.button, Every, content]
  exact ⟨lone_click allowed own, by simp⟩

theorem every_plainButton {cls label : String} {act : α} (holds : ∀ c h, Q c h act) :
    Every (Lone Q) g.around (.plainButton cls label act) := by
  simp only [Node.plainButton, Every]
  exact ⟨lone_click allowed fun h _ => holds _ h, by simp⟩

theorem every_textField {label kind placeholder value : String} {typed : α}
    (holds : ∀ c h, Q c h typed) :
    Every (Lone Q) g.around (textField label kind placeholder value typed) := by
  simpa [textField, Every] using lone_input allowed holds

theorem every_textArea {label value : String} {typed : α} (holds : ∀ c h, Q c h typed) :
    Every (Lone Q) g.around (textArea label value typed) := by
  simpa [textArea, Every] using lone_input allowed holds

theorem every_checkField {label : String} {checked : Bool} {toggled : α}
    (holds : ∀ c h, Q c h toggled) :
    Every (Lone Q) g.around (checkField label checked toggled) := by
  simpa [checkField, Every] using lone_change allowed holds

theorem every_selectField {label shown current : String} {options : List (String × String)}
    {typed chosen : α} (types : ∀ c h, Q c h typed) (chooses : ∀ c h, Q c h chosen) :
    Every (Lone Q) g.around (selectField label shown current options typed chosen) := by
  have silent (around : List (List (Listener α))) :
      EveryAmong (Lone Q) around (options.map (optionNode current)) := by
    rw [everyAmong_iff]
    intro n mem
    obtain ⟨option, -, rfl⟩ := List.mem_map.mp mem
    simp [optionNode]
  simp only [selectField, every_box, everyAmong_cons, Every, everyAmong_nil, and_true, true_and]
  exact ⟨lone_choice allowed types chooses, silent _⟩

theorem every_dialogActions {close confirm : α} {cls label : String}
    (closes : ∀ c h, Q c h close)
    (own : ∀ h, h.event = .click → Q ⟨"button", label, [.on .click confirm]⟩ h confirm) :
    Every (Lone Q) g.around (dialogActions close cls label confirm) := by
  simp only [dialogActions, every_box, everyAmong_cons, everyAmong_nil, and_true]
  exact ⟨every_button allowed fun h _ => closes _ h, every_button allowed own⟩

/-- The buttons of a table stand in the rows of the records with their ids. -/
theorem every_table [Resource R] {columns : List (Column R)} {actions : List (RowAction α)}
    {rows : List R} {loading : Bool} {emptyText : String}
    (own : ∀ row ∈ rows, ∀ id, Resource.id? row = some id → ∀ action ∈ actions, ∀ h,
      h.event = .click → Q ⟨"button", action.label, [.on .click (action.act id)]⟩ h (action.act id)) :
    Every (Lone Q) g.around (table columns actions rows loading emptyText) := by
  have buttons (row : R) (mem : row ∈ rows) :
      EveryAmong (Lone Q) g.around (rowButtons actions row) := by
    unfold rowButtons
    split
    · rename_i id known
      rw [everyAmong_iff]
      intro n button
      obtain ⟨action, offered, rfl⟩ := List.mem_map.mp button
      exact every_button allowed (own row mem id known action offered)
    · simp
  have cells (texts : List String) (tag : String) :
      EveryAmong (Lone Q) g.around (texts.map fun text => Node.el tag [] [.text text]) := by
    simp [everyAmong_iff]
  have line (row : R) (mem : row ∈ rows) :
      Every (Lone Q) g.around (tableRow columns actions row) := by
    simp only [tableRow, every_el, everyAmong_append]
    refine ⟨cells _ _, ?_⟩
    split
    · simp
    · simpa using buttons row mem
  have head : Every (Lone Q) g.around (tableHead columns actions) := by
    simp only [tableHead, every_el, everyAmong_cons, everyAmong_append, everyAmong_nil, and_true]
    refine ⟨?_, by split <;> simp⟩
    simp [everyAmong_iff]
  have lines : EveryAmong (Lone Q) g.around (rows.map (tableRow columns actions)) := by
    rw [everyAmong_iff]
    intro n mem
    obtain ⟨row, here, rfl⟩ := List.mem_map.mp mem
    exact line row here
  unfold table
  split
  · simp
  · simpa using ⟨head, lines⟩

end Widgets

section Dialogs

variable {Q : Control α → Tab.Happening → α → Prop}

/-- A dialog closes on the Escape key and on a click beside it; what is in it stands in a dialog. -/
theorem every_modal {title cls : String} {close : α} {children : List (Node α)}
    (closes : ∀ c h, Q c h close)
    (inside : EveryAmong (Lone Q) (Ground.dialog close).around children) :
    Every (Lone Q) [] (modal title cls close children) := by
  have allowed : (Ground.dialog close).Allowed Q := fun c h _ => closes c h
  simp only [modal, Every, everyAmong_cons, everyAmong_nil, and_true, every_el, true_and]
  refine ⟨lone_click (g := .page) trivial fun h _ => closes _ h, fun h => ?_, inside⟩
  exact (Ground.heard_around allowed _ h).imp id And.right

theorem every_confirmDialog {message label : String} {cancel confirm : α}
    (closes : ∀ c h, Q c h cancel)
    (own : ∀ h, h.event = .click → Q ⟨"button", label, [.on .click confirm]⟩ h confirm) :
    Every (Lone Q) [] (confirmDialog message label cancel confirm) := by
  have allowed : (Ground.dialog cancel).Allowed Q := fun c h _ => closes c h
  refine every_modal closes ?_
  simpa using every_dialogActions allowed closes own

/-- What is in a form stands in a form. -/
theorem every_form {attributes : List Attribute} {submit : α} {children : List (Node α)}
    (submits : ∀ c h, h.event = .submit → Q c h submit)
    (inside : EveryAmong (Lone Q) (Ground.form submit).around children) :
    Every (Lone Q) [] (.element "form" attributes [.on .submit submit] children) := by
  have allowed : (Ground.form submit).Allowed Q := submits
  rw [Every]
  exact ⟨fun h => (Ground.heard_around allowed _ h).imp id And.right, inside⟩

end Dialogs

end GrantConsole.Console
