import GrantConsole.Proofs.Console.Offers

/-!
# The views of the screens

Every control in the view of a screen is offered by the page that the screen is. The tables carry
the buttons that ask to delete, the dialogs the button that answers, and the form of the rule editor
the submit; all other controls bring about plain acts.
-/

namespace GrantConsole.Screen

open GrantConsole.Console GrantConsole.Markup GrantConsole.Widget
open GrantConsole.Console.Page (OffersAs)

namespace Grants

theorem offers_dialog (s : Grants) : OffersAll (.grants s) .grants s.dialog := by
  have plain {a : Act} (isPlain : Console.Page.Act.isPlain (.grants a) .grants = true) :=
    OffersAs.plain (p := .grants s) isPlain
  have closes := plain (a := .close) rfl
  have allowed : (Ground.dialog Act.close).Allowed (OffersAs (.grants s) .grants) :=
    fun c h _ => closes c h
  have form (heading amount : String) (draft : Grant) :
      OffersAll (.grants s) .grants [form heading amount draft] :=
    ⟨every_modal closes
      ⟨every_textField allowed (plain rfl), every_textField allowed (plain rfl),
        every_textField allowed (plain rfl), every_textField allowed (plain rfl),
        every_textField allowed (plain rfl), every_textField allowed (plain rfl),
        every_textArea allowed (plain rfl),
        every_dialogActions allowed closes fun h _ => plain rfl _ h, trivial⟩,
      trivial⟩
  unfold dialog
  split
  · trivial
  · rename_i id asked
    have asks : Console.Page.asked? (.grants s) = some id := Dialog.asked?_eq_some_iff.mpr asked
    exact ⟨every_confirmDialog closes (OffersAs.confirm (p := .grants s) rfl rfl asks), trivial⟩
  · exact form _ _ _
  · exact form _ _ _

theorem offers (s : Grants) : OffersAll (.grants s) .grants [s.view] := by
  have plain {a : Act} (isPlain : Console.Page.Act.isPlain (.grants a) .grants = true) :=
    OffersAs.plain (p := .grants s) isPlain
  have bare : (Ground.page (α := Act)).Allowed (OffersAs (.grants s) .grants) := trivial
  have listing : Every (Lone (OffersAs (.grants s) .grants)) []
      (table columns actions (rows.listing s).items (rows.listing s).loading "No grants yet.") := by
    refine every_table bare fun row mem id known action offered h click => ?_
    simp only [actions, List.mem_cons, List.not_mem_nil, or_false] at offered
    rcases offered with rfl | rfl | rfl
    · exact plain rfl _ h
    · exact plain rfl _ h
    · exact OffersAs.ask (p := .grants s) rfl rfl (mem_ids mem known) h click
  simp only [view, frame, everyAmong_cons, every_box, everyAmong_nil, and_true]
  refine ⟨⟨?_, ?_⟩, listing, s.offers_dialog⟩
  · simp [title]
  · exact every_button bare fun h _ => plain rfl _ h

end Grants

namespace Expenses

theorem offers_dialog (s : Expenses) : OffersAll (.expenses s) .expenses s.dialog := by
  have plain {a : Act} (isPlain : Console.Page.Act.isPlain (.expenses a) .expenses = true) :=
    OffersAs.plain (p := .expenses s) isPlain
  have closes := plain (a := .close) rfl
  have allowed : (Ground.dialog Act.close).Allowed (OffersAs (.expenses s) .expenses) :=
    fun c h _ => closes c h
  unfold dialog
  split
  · trivial
  · trivial
  · rename_i id asked
    have asks : Console.Page.asked? (.expenses s) = some id := Dialog.asked?_eq_some_iff.mpr asked
    exact ⟨every_confirmDialog closes (OffersAs.confirm (p := .expenses s) rfl rfl asks), trivial⟩
  · exact
      ⟨every_modal closes
        ⟨every_textField allowed (plain rfl), every_textField allowed (plain rfl),
          every_textField allowed (plain rfl), every_selectField allowed (plain rfl) (plain rfl),
          every_textField allowed (plain rfl),
          every_dialogActions allowed closes fun h _ => plain rfl _ h, trivial⟩,
        trivial⟩

theorem offers (s : Expenses) : OffersAll (.expenses s) .expenses [s.view] := by
  have plain {a : Act} (isPlain : Console.Page.Act.isPlain (.expenses a) .expenses = true) :=
    OffersAs.plain (p := .expenses s) isPlain
  have bare : (Ground.page (α := Act)).Allowed (OffersAs (.expenses s) .expenses) := trivial
  have listing : Every (Lone (OffersAs (.expenses s) .expenses)) []
      (table columns [.danger "Delete" Act.delete] (rows.listing s).items
        (rows.listing s).loading "No expenses for this grant.") := by
    refine every_table bare fun row mem id known action offered h click => ?_
    cases List.mem_singleton.mp offered
    exact OffersAs.ask (p := .expenses s) rfl rfl (mem_ids mem known) h click
  simp only [view, frame, everyAmong_cons, every_box, everyAmong_nil, and_true]
  refine ⟨⟨?_, ?_, ?_⟩, listing, s.offers_dialog⟩
  · simp [title]
  · simp [scopeNode]
  · exact every_button bare fun h _ => plain rfl _ h

end Expenses

namespace Approvals

theorem offers_dialog (s : Approvals) : OffersAll (.approvals s) .approvals s.dialog := by
  have plain {a : Act} (isPlain : Console.Page.Act.isPlain (.approvals a) .approvals = true) :=
    OffersAs.plain (p := .approvals s) isPlain
  have closes := plain (a := .close) rfl
  have allowed : (Ground.dialog Act.close).Allowed (OffersAs (.approvals s) .approvals) :=
    fun c h _ => closes c h
  unfold dialog
  split
  · rename_i id asked
    have asks : Console.Page.asked? (.approvals s) = some id := Dialog.asked?_eq_some_iff.mpr asked
    exact ⟨every_confirmDialog closes (OffersAs.confirm (p := .approvals s) rfl rfl asks), trivial⟩
  · trivial

theorem offers (s : Approvals) : OffersAll (.approvals s) .approvals [s.view] := by
  have plain {a : Act} (isPlain : Console.Page.Act.isPlain (.approvals a) .approvals = true) :=
    OffersAs.plain (p := .approvals s) isPlain
  have bare : (Ground.page (α := Act)).Allowed (OffersAs (.approvals s) .approvals) := trivial
  have listing : Every (Lone (OffersAs (.approvals s) .approvals)) []
      (table columns [.danger "Delete" Act.delete] (rows.listing s).items
        (rows.listing s).loading "No approvals recorded.") := by
    refine every_table bare fun row mem id known action offered h click => ?_
    cases List.mem_singleton.mp offered
    exact OffersAs.ask (p := .approvals s) rfl rfl (mem_ids mem known) h click
  have waiting : Every (Lone (OffersAs (.approvals s) .approvals)) []
      (table pendingColumns [.normal "Approve" Act.approve, .danger "Reject" Act.reject]
        (pendingRows.listing s).items (pendingRows.listing s).loading
        "Nothing awaiting approval.") := by
    refine every_table bare fun row mem id known action offered h click => ?_
    simp only [List.mem_cons, List.not_mem_nil, or_false] at offered
    rcases offered with rfl | rfl
    · exact plain rfl _ h
    · exact plain rfl _ h
  simp only [view, frame, everyAmong_cons, everyAmong_append, every_box, every_el, everyAmong_nil,
    and_true]
  refine ⟨⟨?_, lone_input bare (plain rfl), trivial⟩, ⟨waiting, ?_, listing⟩, s.offers_dialog⟩
  · simp [title]
  · simp

end Approvals

namespace Categories

theorem offers_dialog (s : Categories) : OffersAll (.categories s) .categories s.dialog := by
  have plain {a : Act} (isPlain : Console.Page.Act.isPlain (.categories a) .categories = true) :=
    OffersAs.plain (p := .categories s) isPlain
  have closes := plain (a := .close) rfl
  have allowed : (Ground.dialog Act.close).Allowed (OffersAs (.categories s) .categories) :=
    fun c h _ => closes c h
  unfold dialog
  split
  · trivial
  · trivial
  · rename_i id asked
    have asks : Console.Page.asked? (.categories s) = some id := Dialog.asked?_eq_some_iff.mpr asked
    exact ⟨every_confirmDialog closes (OffersAs.confirm (p := .categories s) rfl rfl asks), trivial⟩
  · exact
      ⟨every_modal closes
        ⟨every_textField allowed (plain rfl), every_textField allowed (plain rfl),
          every_textArea allowed (plain rfl), every_checkField allowed (plain rfl),
          every_dialogActions allowed closes fun h _ => plain rfl _ h, trivial⟩,
        trivial⟩

theorem offers (s : Categories) : OffersAll (.categories s) .categories [s.view] := by
  have plain {a : Act} (isPlain : Console.Page.Act.isPlain (.categories a) .categories = true) :=
    OffersAs.plain (p := .categories s) isPlain
  have bare : (Ground.page (α := Act)).Allowed (OffersAs (.categories s) .categories) := trivial
  have listing : Every (Lone (OffersAs (.categories s) .categories)) []
      (table columns [.danger "Delete" Act.delete] (rows.listing s).items
        (rows.listing s).loading "No categories yet.") := by
    refine every_table bare fun row mem id known action offered h click => ?_
    cases List.mem_singleton.mp offered
    exact OffersAs.ask (p := .categories s) rfl rfl (mem_ids mem known) h click
  simp only [view, frame, everyAmong_cons, every_box, everyAmong_nil, and_true]
  refine ⟨⟨?_, ?_⟩, listing, s.offers_dialog⟩
  · simp [title]
  · exact every_button bare fun h _ => plain rfl _ h

end Categories

namespace Roles

theorem offers_dialog (s : Roles) : OffersAll (.roles s) .roles s.dialog := by
  have plain {a : Act} (isPlain : Console.Page.Act.isPlain (.roles a) .roles = true) :=
    OffersAs.plain (p := .roles s) isPlain
  have closes := plain (a := .close) rfl
  have allowed : (Ground.dialog Act.close).Allowed (OffersAs (.roles s) .roles) :=
    fun c h _ => closes c h
  have permissions (held : List String) :
      EveryAmong (Lone (OffersAs (.roles s) .roles)) (Ground.dialog Act.close).around
        (permissionCatalogue.map (permissionField held)) := by
    rw [everyAmong_iff]
    intro n mem
    obtain ⟨permission, -, rfl⟩ := List.mem_map.mp mem
    exact every_checkField allowed (plain rfl)
  unfold dialog
  split
  · trivial
  · trivial
  · rename_i id asked
    have asks : Console.Page.asked? (.roles s) = some id := Dialog.asked?_eq_some_iff.mpr asked
    exact ⟨every_confirmDialog closes (OffersAs.confirm (p := .roles s) rfl rfl asks), trivial⟩
  · refine
      ⟨every_modal closes
        ⟨every_selectField allowed (plain rfl) (plain rfl),
          every_selectField allowed (plain rfl) (plain rfl), ?_,
          every_dialogActions allowed closes fun h _ => plain rfl _ h, trivial⟩,
        trivial⟩
    simpa using permissions _

theorem offers (s : Roles) : OffersAll (.roles s) .roles [s.view] := by
  have plain {a : Act} (isPlain : Console.Page.Act.isPlain (.roles a) .roles = true) :=
    OffersAs.plain (p := .roles s) isPlain
  have bare : (Ground.page (α := Act)).Allowed (OffersAs (.roles s) .roles) := trivial
  have listing : Every (Lone (OffersAs (.roles s) .roles)) []
      (table columns [.danger "Remove" Act.delete] (rows.listing s).items
        (rows.listing s).loading "No roles on this grant.") := by
    refine every_table bare fun row mem id known action offered h click => ?_
    cases List.mem_singleton.mp offered
    exact OffersAs.ask (p := .roles s) rfl rfl (mem_ids mem known) h click
  simp only [view, frame, everyAmong_cons, every_box, everyAmong_nil, and_true]
  refine ⟨⟨?_, ?_, ?_⟩, listing, s.offers_dialog⟩
  · simp [title]
  · simp [scopeNode]
  · exact every_button bare fun h _ => plain rfl _ h

end Roles

namespace Users

theorem offers_dialog (s : Users) : OffersAll (.users s) .users s.dialog := by
  have plain {a : Act} (isPlain : Console.Page.Act.isPlain (.users a) .users = true) :=
    OffersAs.plain (p := .users s) isPlain
  have closes := plain (a := .close) rfl
  have allowed : (Ground.dialog Act.close).Allowed (OffersAs (.users s) .users) :=
    fun c h _ => closes c h
  have password (shown : Option String) :
      Every (Lone (OffersAs (.users s) .users)) (Ground.dialog Act.close).around
        (passwordField shown) := by
    cases shown with
    | none => exact every_text _
    | some password => exact every_textField allowed (plain rfl)
  have form (heading : String) (shown : Option String) (draft : User) :
      OffersAll (.users s) .users [form heading shown draft] :=
    ⟨every_modal closes
      ⟨every_textField allowed (plain rfl), every_textField allowed (plain rfl), password shown,
        every_checkField allowed (plain rfl), every_checkField allowed (plain rfl),
        every_dialogActions allowed closes fun h _ => plain rfl _ h, trivial⟩,
      trivial⟩
  unfold dialog
  split
  · trivial
  · rename_i id asked
    have asks : Console.Page.asked? (.users s) = some id := Dialog.asked?_eq_some_iff.mpr asked
    exact ⟨every_confirmDialog closes (OffersAs.confirm (p := .users s) rfl rfl asks), trivial⟩
  · exact form _ _ _
  · exact form _ _ _

theorem offers (s : Users) : OffersAll (.users s) .users [s.view] := by
  have plain {a : Act} (isPlain : Console.Page.Act.isPlain (.users a) .users = true) :=
    OffersAs.plain (p := .users s) isPlain
  have bare : (Ground.page (α := Act)).Allowed (OffersAs (.users s) .users) := trivial
  have listing : Every (Lone (OffersAs (.users s) .users)) []
      (table columns [.normal "Edit" Act.edit, .danger "Delete" Act.delete] (rows.listing s).items
        (rows.listing s).loading "No users.") := by
    refine every_table bare fun row mem id known action offered h click => ?_
    simp only [List.mem_cons, List.not_mem_nil, or_false] at offered
    rcases offered with rfl | rfl
    · exact plain rfl _ h
    · exact OffersAs.ask (p := .users s) rfl rfl (mem_ids mem known) h click
  simp only [view, frame, everyAmong_cons, every_box, everyAmong_nil, and_true]
  refine ⟨⟨?_, ?_⟩, listing, s.offers_dialog⟩
  · simp [title]
  · exact every_button bare fun h _ => plain rfl _ h

end Users

namespace Rules

theorem offers_dialog (s : Rules) : OffersAll (.rules s) .rules s.dialog := by
  have plain {a : Act} (isPlain : Console.Page.Act.isPlain (.rules a) .rules = true) :=
    OffersAs.plain (p := .rules s) isPlain
  have closes := plain (a := .close) rfl
  have allowed : (Ground.dialog Act.close).Allowed (OffersAs (.rules s) .rules) :=
    fun c h _ => closes c h
  unfold dialog
  split
  · rename_i id asked
    have asks : Console.Page.asked? (.rules s) = some id := Dialog.asked?_eq_some_iff.mpr asked
    exact ⟨every_confirmDialog closes (OffersAs.confirm (p := .rules s) rfl rfl asks), trivial⟩
  · trivial

theorem offers_templateDialog (s : Rules) : OffersAll (.rules s) .rules s.templateDialog := by
  have plain {a : Act} (isPlain : Console.Page.Act.isPlain (.rules a) .rules = true) :=
    OffersAs.plain (p := .rules s) isPlain
  have closes := plain (a := .closeTemplates) rfl
  have allowed : (Ground.dialog Act.closeTemplates).Allowed (OffersAs (.rules s) .rules) :=
    fun c h _ => closes c h
  unfold templateDialog
  split
  · exact
      ⟨every_modal closes
        ⟨every_selectField allowed (plain rfl) (plain rfl), every_textArea allowed (plain rfl),
          every_dialogActions allowed closes fun h _ => plain rfl _ h, trivial⟩,
        trivial⟩
  · trivial

theorem offers (s : Rules) : OffersAll (.rules s) .rules [s.view] := by
  have plain {a : Act} (isPlain : Console.Page.Act.isPlain (.rules a) .rules = true) :=
    OffersAs.plain (p := .rules s) isPlain
  have bare : (Ground.page (α := Act)).Allowed (OffersAs (.rules s) .rules) := trivial
  have listing : Every (Lone (OffersAs (.rules s) .rules)) []
      (table columns actions (rows.listing s).items (rows.listing s).loading
        "No rules for this grant.") := by
    refine every_table bare fun row mem id known action offered h click => ?_
    simp only [actions, List.mem_cons, List.not_mem_nil, or_false] at offered
    rcases offered with rfl | rfl | rfl
    · exact plain rfl _ h
    · exact plain rfl _ h
    · exact OffersAs.ask (p := .rules s) rfl rfl (mem_ids mem known) h click
  simp only [view, frame, everyAmong_cons, everyAmong_append, every_box, everyAmong_nil, and_true]
  refine ⟨⟨?_, ?_, ?_, ?_⟩, listing, s.offers_dialog, s.offers_templateDialog⟩
  · simp [title]
  · simp [scopeNode]
  · simp [Node.link, Every]
  · exact every_button bare fun h _ => plain rfl _ h

end Rules

namespace SignIn

theorem offers (s : SignIn) : OffersAll (.signIn s) .signIn [s.view] := by
  have plain {a : Act} (isPlain : Console.Page.Act.isPlain (.signIn a) .signIn = true) :=
    OffersAs.plain (p := .signIn s) isPlain
  have allowed : (Ground.form Act.submit).Allowed (OffersAs (.signIn s) .signIn) :=
    fun c h _ => plain rfl c h
  have input (kind placeholder completion value : String) (typed : Act)
      (isPlain : Console.Page.Act.isPlain (.signIn typed) .signIn = true) :
      Every (Lone (OffersAs (.signIn s) .signIn)) (Ground.form Act.submit).around
        (field kind placeholder completion value typed) :=
    ⟨lone_input allowed (plain isPlain), trivial⟩
  simp only [view, everyAmong_cons, every_box, every_el, every_text, everyAmong_nil, and_true,
    true_and]
  refine every_form allowed ⟨input _ _ _ _ _ rfl, input _ _ _ _ _ rfl, ?_, trivial⟩
  simp

end SignIn

namespace RuleEditor

section Form

variable {Q : Control Act → Tab.Happening → Act → Prop} {g : Ground Act} (allowed : g.Allowed Q)

include allowed

theorem every_dropDown {shown : String} {field : LateField} {chosen : Act}
    {options : List (Node Act)} (silent : ∀ around, EveryAmong (Lone Q) around options)
    (types : ∀ c h, Q c h (.clause (.typed field))) (chooses : ∀ c h, Q c h chosen) :
    Every (Lone Q) g.around (dropDown shown field chosen options) :=
  ⟨lone_choice allowed types chooses, silent _⟩

theorem every_lineInput {value : String} {typed : Act} (holds : ∀ c h, Q c h typed) :
    Every (Lone Q) g.around (lineInput value typed) :=
  ⟨lone_input allowed holds, trivial⟩

omit allowed in
theorem every_labelled {label : String} {around : List (List (Listener Act))} {input : Node Act}
    (inside : Every (Lone Q) around input) : Every (Lone Q) around (labelled label input) := by
  simpa [labelled] using inside

omit allowed in
theorem silent_words {β : Type} {words : List β} {word : β → String}
    (around : List (List (Listener Act))) :
    EveryAmong (Lone Q) around (words.map fun w => wordOption (word w)) := by
  rw [everyAmong_iff]
  intro n mem
  obtain ⟨w, -, rfl⟩ := List.mem_map.mp mem
  simp [wordOption]

end Form

section Clauses

variable {Q : Control Act → Tab.Happening → Act → Prop} {sent : Act}

/-- What holds of a clause that stands in the form. -/
abbrev InForm (Q : Control Act → Tab.Happening → Act → Prop) (sent : Act) (n : Node ClauseAct) :
    Prop :=
  Every (fun c around => Lone Q (c.map Act.clause)
    (around.map (mapListeners Act.clause) ++ (Ground.form sent).around)) [] n

variable (allowed : (Ground.form sent).Allowed Q) (clauses : ∀ act c h, Q c h (.clause act))

include allowed clauses

theorem inForm_clauseText (cls placeholder value : String) (disabled : Bool) (typed : ClauseAct) :
    InForm Q sent (clauseText cls placeholder value disabled typed) :=
  ⟨lone_input allowed (clauses typed), trivial⟩

theorem inForm_clauseOperator (shown : String) (disabled : Bool) (field : LateField)
    (chosen : ClauseAct) : InForm Q sent (clauseOperator shown disabled field chosen) := by
  refine ⟨lone_choice allowed (clauses (.typed field)) (clauses chosen), ?_⟩
  rw [everyAmong_iff]
  intro n mem
  obtain ⟨op, -, rfl⟩ := List.mem_map.mp mem
  simp [wordOption]

theorem inForm_clauseRemove (disabled : Bool) (act : ClauseAct) :
    InForm Q sent (clauseRemove disabled act) :=
  ⟨lone_click allowed fun h _ => clauses act _ h, by simp⟩

theorem inForm_filterRow (draft : Cell RuleDraft) (index : Nat) :
    InForm Q sent (filterRow draft index) :=
  ⟨inForm_clauseText allowed clauses .., inForm_clauseOperator allowed clauses ..,
    inForm_clauseText allowed clauses .., inForm_clauseRemove allowed clauses .., trivial⟩

theorem inForm_conditionRow (draft : Cell RuleDraft) (index : Nat) :
    InForm Q sent (conditionRow draft index) :=
  ⟨inForm_clauseText allowed clauses .., inForm_clauseOperator allowed clauses ..,
    inForm_clauseText allowed clauses ..,
    ⟨lone_choice allowed (clauses (.typed (.conditionOrder index)))
      (clauses (.conditionOrder index)), trivial⟩,
    inForm_clauseRemove allowed clauses .., trivial⟩

omit allowed clauses in
theorem every_clauseRows {draft : Cell RuleDraft} {row : Cell RuleDraft → Nat → Node ClauseAct}
    (each : ∀ index, InForm Q sent (row draft index)) (count : Nat) :
    EveryAmong (Lone Q) (Ground.form sent).around (clauseRows draft row count) := by
  rw [everyAmong_iff]
  intro n mem
  obtain ⟨index, -, rfl⟩ := List.mem_map.mp mem
  exact every_map Act.clause (Ground.form sent).around [] (row draft index) (each index)

end Clauses

theorem offers_form (s : RuleEditor) (loaded : s.loading = false) (fine : s.problem = none) :
    OffersAll (.ruleEditor s) .ruleEditor [s.form] := by
  have plain {a : Act} (isPlain : Console.Page.Act.isPlain (.ruleEditor a) .ruleEditor = true) :=
    OffersAs.plain (p := .ruleEditor s) isPlain
  have allowed : (Ground.form Act.submit).Allowed (OffersAs (.ruleEditor s) .ruleEditor) :=
    fun c h happened =>
      { own := rfl
        asks := nofun
        confirms := nofun
        submits := fun _ => ⟨happened, s, rfl, loaded, fine⟩ }
  have clauses (act : ClauseAct) := plain (a := .clause act) rfl
  have area : Every (Lone (OffersAs (.ruleEditor s) .ruleEditor)) (Ground.form Act.submit).around
      (.element "textarea" [.cls "dialog__textarea", .value (s.draft.value.rule.description.getD "")]
        [.on .input Act.description] []) :=
    ⟨lone_input allowed (plain rfl), trivial⟩
  have header : EveryAmong (Lone (OffersAs (.ruleEditor s) .ruleEditor))
      (Ground.form Act.submit).around s.headerFields :=
    ⟨every_labelled (every_lineInput allowed (plain rfl)), every_labelled area,
      every_labelled (every_dropDown allowed silent_words (plain rfl) (plain rfl)),
      every_labelled (every_dropDown allowed (fun around => ⟨by simp, silent_words around⟩)
        (plain rfl) (plain rfl)),
      every_labelled (every_lineInput allowed (plain rfl)), every_checkField allowed (plain rfl),
      trivial⟩
  have add (label : String) (act : Act)
      (isPlain : Console.Page.Act.isPlain (.ruleEditor act) .ruleEditor = true) :
      Every (Lone (OffersAs (.ruleEditor s) .ruleEditor)) (Ground.form Act.submit).around
        (addButton label act) :=
    every_plainButton allowed (plain isPlain)
  have error : EveryAmong (Lone (OffersAs (.ruleEditor s) .ruleEditor))
      (Ground.form Act.submit).around (errorNode s.draft.value) := by
    unfold errorNode
    split <;> simp
  refine ⟨every_form allowed ?_, trivial⟩
  simp only [sectionNode, everyAmong_cons, everyAmong_append, every_el, every_box, every_text,
    everyAmong_nil, and_true, true_and]
  exact ⟨header,
    ⟨every_clauseRows (inForm_filterRow allowed clauses s.draft) _, add _ _ rfl⟩,
    ⟨every_clauseRows (inForm_conditionRow allowed clauses s.draft) _, add _ _ rfl⟩, error⟩

theorem offers (s : RuleEditor) : OffersAll (.ruleEditor s) .ruleEditor [s.view] := by
  have shown : Every (Lone (OffersAs (.ruleEditor s) .ruleEditor)) [] s.content := by
    unfold content
    split
    · rename_i ready
      simp only [Bool.and_eq_true, Bool.not_eq_true', Option.isNone_iff_eq_none] at ready
      exact (s.offers_form ready.1 ready.2).1
    · simp
  simp only [view, everyAmong_cons, every_box, everyAmong_nil, and_true]
  exact ⟨⟨by simp [title], by simp [Node.link, Every]⟩, shown⟩

end RuleEditor

namespace Overview

theorem silent {α : Type} {P : Control α → List (List (Listener α)) → Prop} (s : Overview) :
    Every P [] (s.view : Node α) := by
  have lines (p : Projection) : EveryAmong P [] ((lines p).flatMap lineNodes) := by
    rw [everyAmong_iff]
    intro n mem
    obtain ⟨line, -, mem⟩ := List.mem_flatMap.mp mem
    simp only [lineNodes, List.mem_cons, List.not_mem_nil, or_false] at mem
    rcases mem with rfl | rfl <;> simp
  have shown : Every P [] (s.content : Node α) := by
    unfold content
    split
    · simp [hint]
    · rw [every_box]
      split
      · trivial
      · exact lines _
  simpa [view, frame, title] using shown

end Overview

end GrantConsole.Screen
