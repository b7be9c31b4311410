import GrantConsole.Proofs.Draft.Flight
import GrantConsole.Proofs.Markup.Shell
import GrantConsole.Screen.RuleEditor

/-!
# The buttons in the form of a rule

The form has a button in the row of each clause, one under the filters, one under the conditions
and one at its end. The buttons that add a clause say that they are no more than buttons; those of
the rows do not say so, and a form takes such a button for one that submits it.
-/

namespace GrantConsole.Screen

open GrantConsole.Markup GrantConsole.Widget

/-- A button in the form of a rule. -/
inductive FormButton
  | removeFilter (index : Nat)
  | addFilter
  | removeCondition (index : Nat)
  | addCondition
  | save
deriving DecidableEq

/-- The buttons in the form of a rule, in the order of the document. -/
def formButtons (rule : Rule) : List FormButton :=
  (List.range rule.filters.length).map .removeFilter ++ [.addFilter] ++
    (List.range rule.conditions.length).map .removeCondition ++ [.addCondition, .save]

namespace RuleEditor

/-! ## Shells -/

def formShell : Node Act :=
  .element "form" [.cls "rule-editor__form"] [.on .submit .submit] []

def groupShell (busy : Bool) : Node Act :=
  .el "fieldset" [.cls "rule-editor__section", .disabled busy] []

def rowShell : Node Act :=
  .box "div" "clause-row" []

def endShell : Node Act :=
  .box "div" "dialog__actions" []

def removeShell (busy : Bool) (act : ClauseAct) : Node Act :=
  .element "button" [.cls "btn btn--small btn--danger", .disabled busy]
    [.on .click (.clause act)] []

def addShell (act : Act) : Node Act :=
  .element "button" [.plain "type" "button", .cls "btn btn--small"] [.on .click act] []

def saveShell (busy : Bool) : Node Act :=
  .el "button" [.cls "btn btn--primary", .plain "type" "submit", .disabled busy] []

end RuleEditor

namespace FormButton

open RuleEditor

/-- What a button asks for when it is clicked; the last one leaves it to the form. -/
def act? : FormButton → Option RuleEditor.Act
  | removeFilter index => some (.clause (.removeFilter index))
  | addFilter => some .addFilter
  | removeCondition index => some (.clause (.removeCondition index))
  | addCondition => some .addCondition
  | save => none

/-- What a button says of its kind. -/
def type? : FormButton → Option String
  | removeFilter _ | removeCondition _ => none
  | addFilter | addCondition => some "button"
  | save => some "submit"

/-- The place of a button below the form, the innermost index first. -/
def place (draft : RuleDraft) : FormButton → List Nat
  | removeFilter index => [3, index + 1, 1]
  | addFilter => [draft.rule.filters.length + 1, 1]
  | removeCondition index => [4, index + 1, 2]
  | addCondition => [draft.rule.conditions.length + 1, 2]
  | save => [(errorNode draft).length, 3]

/-- The shells of a button and of what is around it in the form. -/
def shells (busy : Bool) : FormButton → List (Node RuleEditor.Act)
  | removeFilter index => [removeShell busy (.removeFilter index), rowShell, groupShell busy]
  | addFilter => [addShell .addFilter, groupShell busy]
  | removeCondition index => [removeShell busy (.removeCondition index), rowShell, groupShell busy]
  | addCondition => [addShell .addCondition, groupShell busy]
  | save => [saveShell busy, endShell]

/-- A button in a form at a place. -/
def spot (draft : RuleDraft) (path : List Nat) (outer : List (Node RuleEditor.Act))
    (b : FormButton) : Spot RuleEditor.Act :=
  ⟨b.place draft ++ path, b.shells draft.isSubmitting ++ formShell :: outer⟩

end FormButton

namespace RuleEditor

variable {path : List Nat} {outer : List (Node Act)}

/-! ## Rows and groups -/

theorem shellsAmong_singleton (index : Nat) (n : Node Act) :
    shellsAmong path outer index [n] = shellsOf (index :: path) outer n := by
  rw [shellsAmong, shellsAmong, List.append_nil]

theorem formButtons_button (inForm : outer.any (fun n => n.isTag "form") = true)
    (attributes : List Attribute) (listeners : List (Listener Act)) (label : String) :
    (shellsOf path outer (.element "button" attributes listeners [.text label])).filter
        Spot.isFormButton =
      [⟨path, .element "button" (attributes.filter Attribute.isFixed) listeners [] :: outer⟩] := by
  rw [shellsOf, shellsAmong_singleton]
  exact List.filter_cons_of_pos (by simpa [Spot.isFormButton, Node.isTag, Node.tag?] using inForm)

/-- Each row has a button after a number of inputs, which removes a clause. -/
def HasRemove (row : Nat → Node ClauseAct) (width : Nat) (busy : Bool) (remove : Nat → ClauseAct) :
    Prop :=
  ∀ i, ∃ inputs, Node.lacksAmong "button" inputs = true ∧ inputs.length = width ∧
    row i = .box "div" "clause-row" (inputs ++ [clauseRemove busy (remove i)])

theorem lacks_options {α β : Type} (words : List β) (word : β → String) :
    Node.lacksAmong "button" (words.map fun w => (wordOption (word w) : Node α)) = true :=
  lacksAmong_of_each "button" (fun _ => rfl) words

theorem hasRemove_filterRow (draft : Cell RuleDraft) :
    HasRemove (filterRow draft) 3 draft.value.isSubmitting .removeFilter := by
  intro i
  refine ⟨(filterRow draft i).children.dropLast, ?_, rfl, rfl⟩
  simp [filterRow, Node.box, Node.children, clauseText, clauseOperator, Node.lacks, Node.lacksAmong,
    lacks_options]

theorem hasRemove_conditionRow (draft : Cell RuleDraft) :
    HasRemove (conditionRow draft) 4 draft.value.isSubmitting .removeCondition := by
  intro i
  refine ⟨(conditionRow draft i).children.dropLast, ?_, rfl, rfl⟩
  simp [conditionRow, Node.box, Node.children, clauseText, clauseOperator, Node.lacks,
    Node.lacksAmong, lacks_options]

theorem formButtons_row (inForm : outer.any (fun n => n.isTag "form") = true)
    {inputs : List (Node ClauseAct)} (plain : Node.lacksAmong "button" inputs = true)
    (busy : Bool) (act : ClauseAct) :
    (shellsOf path outer
        ((Node.box "div" "clause-row" (inputs ++ [clauseRemove busy act])).map .clause)).filter
          Spot.isFormButton =
      [⟨inputs.length :: path, removeShell busy act :: rowShell :: outer⟩] := by
  have inputs' : Node.lacksAmong "button" (inputs.map fun n => n.map Act.clause) = true := by
    rw [← mapAll_eq_map, lacksAmong_mapAll]
    exact plain
  have inRow : (.box "div" "clause-row" [] :: outer).any (fun n => n.isTag "form") = true := by
    rw [List.any_cons, inForm, Bool.or_true]
  have remove : [clauseRemove busy act].map (fun n => n.map Act.clause) =
      [.element "button" [.cls "btn btn--small btn--danger", .disabled busy]
        [.on .click (.clause act)] [.text "Remove"]] := by
    simp [clauseRemove, Node.map, Node.mapAll, Listener.map]
  rw [Node.box, Node.map, mapAll_eq_map, List.map_append, remove, shellsOf,
    List.filter_cons_of_neg (by simp [Spot.isFormButton, Node.isTag, Node.tag?]),
    shellsAmong_append, List.filter_append,
    noFormButton_of_no_button (plainIn_of_lacksAmong _ _ _ _ inputs'),
    List.nil_append, shellsAmong_singleton, List.length_map, Nat.zero_add]
  exact formButtons_button inRow _ _ _

/-- A group of clauses has the buttons of its rows and one that adds a row. -/
theorem formButtons_group (inForm : outer.any (fun n => n.isTag "form") = true)
    {draft : Cell RuleDraft} {row : Cell RuleDraft → Nat → Node ClauseAct} {width : Nat}
    {busy : Bool} {remove : Nat → ClauseAct} (rows : HasRemove (row draft) width busy remove)
    (legend : String) (count : Nat) (label : String) (add : Act) :
    (shellsOf path outer
        (sectionNode busy legend (clauseRows draft row count ++ [addButton label add]))).filter
          Spot.isFormButton =
      (List.range count).map (fun i => ⟨width :: (i + 1) :: path,
          removeShell busy (remove i) :: rowShell :: groupShell busy :: outer⟩) ++
        [⟨(count + 1) :: path, addShell add :: groupShell busy :: outer⟩] := by
  have inGroup : (groupShell busy :: outer).any (fun n => n.isTag "form") = true := by
    rw [List.any_cons, inForm, Bool.or_true]
  have each (i : Nat) :
      (shellsOf ((1 + i) :: path) (groupShell busy :: outer)
          ((row draft i).map .clause)).filter Spot.isFormButton =
        [⟨width :: (i + 1) :: path,
          removeShell busy (remove i) :: rowShell :: groupShell busy :: outer⟩] := by
    obtain ⟨inputs, plain, wide, made⟩ := rows i
    rw [made, formButtons_row inGroup plain, wide, Nat.add_comm 1]
  have last : (shellsOf ((count + 1) :: path) (groupShell busy :: outer)
      (addButton label add)).filter Spot.isFormButton =
        [⟨(count + 1) :: path, addShell add :: groupShell busy :: outer⟩] :=
    formButtons_button inGroup _ _ _
  have inside : (shellsAmong path (groupShell busy :: outer) 1
      (clauseRows draft row count ++ [addButton label add])).filter Spot.isFormButton =
        (List.range count).map (fun i => ⟨width :: (i + 1) :: path,
            removeShell busy (remove i) :: rowShell :: groupShell busy :: outer⟩) ++
          [⟨(count + 1) :: path, addShell add :: groupShell busy :: outer⟩] := by
    rw [shellsAmong_append, List.filter_append, clauseRows, shellsAmong_range, List.filter_flatMap,
      shellsAmong_singleton, List.length_map, List.length_range, Nat.add_comm 1, last,
      List.map_eq_flatMap]
    simp only [each]
  rw [sectionNode, Node.el, shellsOf,
    List.filter_cons_of_neg (by simp [Spot.isFormButton, Node.isTag, Node.tag?]), shellsAmong,
    List.filter_append, noFormButton_of_no_button (plainIn_of_lacks _ _ _ rfl)]
  exact inside

/-! ## The form -/

theorem lacks_headerFields (s : RuleEditor) :
    Node.lacksAmong "button" s.headerFields = true := by
  simp [headerFields, labelled, lineInput, dropDown, checkField, Node.box, Node.el, Node.lacks,
    Node.lacksAmong, lacks_options]

theorem formButtons_end (inForm : outer.any (fun n => n.isTag "form") = true) (draft : RuleDraft)
    (busy : Bool) (label : String) :
    (shellsOf path outer (.box "div" "dialog__actions" (errorNode draft ++
        [.el "button" [.cls "btn btn--primary", .plain "type" "submit", .disabled busy]
          [.text label]]))).filter Spot.isFormButton =
      [⟨(errorNode draft).length :: path, saveShell busy :: endShell :: outer⟩] := by
  have inEnd : (endShell :: outer).any (fun n => n.isTag "form") = true := by
    rw [List.any_cons, inForm, Bool.or_true]
  have error : Node.lacksAmong "button" (errorNode draft) = true := by
    unfold errorNode
    split <;> rfl
  rw [Node.box, shellsOf,
    List.filter_cons_of_neg (by simp [Spot.isFormButton, Node.isTag, Node.tag?]),
    shellsAmong_append, List.filter_append,
    noFormButton_of_no_button (plainIn_of_lacksAmong _ _ _ _ error),
    List.nil_append, shellsAmong_singleton, Nat.zero_add]
  exact formButtons_button inEnd _ _ _

/-- The buttons of a form are those of its rows, of its groups and of its end. -/
theorem formButtons_form (s : RuleEditor) :
    (shellsOf path outer s.form).filter Spot.isFormButton =
      (formButtons s.draft.value.rule).map fun b => b.spot s.draft.value path outer := by
  have inForm : (formShell :: outer).any (fun n => n.isTag "form") = true := rfl
  have header : Node.lacks "button"
      (sectionNode s.draft.value.isSubmitting "Rule" s.headerFields) = true := by
    simp [sectionNode, Node.el, Node.lacks, Node.lacksAmong, lacks_headerFields]
  rw [form, shellsOf, List.filter_cons_of_neg (by simp [Spot.isFormButton, Node.isTag, Node.tag?])]
  change (shellsAmong path (formShell :: outer) 0 _).filter Spot.isFormButton = _
  simp only [shellsAmong, List.filter_append,
    noFormButton_of_no_button (plainIn_of_lacks _ _ _ header),
    formButtons_group inForm (hasRemove_filterRow s.draft),
    formButtons_group inForm (hasRemove_conditionRow s.draft), formButtons_end inForm]
  simp only [formButtons, List.map_append, List.map_map, List.map_cons, List.map_nil,
    List.append_assoc, List.cons_append, List.nil_append]
  rfl

def sectionShell : Node Act :=
  .box "section" "resource-page rule-editor" []

/-- Where the form is shown, its buttons are the only ones of the page. -/
theorem formButtons_view {s : RuleEditor} (loaded : s.loading = false) (fine : s.problem = none) :
    (shellsOf path outer s.view).filter Spot.isFormButton =
      (formButtons s.draft.value.rule).map fun b =>
        b.spot s.draft.value (1 :: path) (sectionShell :: outer) := by
  have shown : s.content = s.form := by
    rw [content, loaded, fine]
    rfl
  rw [view, shown, Node.box, shellsOf,
    List.filter_cons_of_neg (by simp [Spot.isFormButton, Node.isTag, Node.tag?]), shellsAmong,
    List.filter_append, shellsAmong_singleton, formButtons_form,
    noFormButton_of_no_button (plainIn_of_lacks _ _ _ (by
      simp [Node.box, Node.link, title, Node.el, Node.lacks, Node.lacksAmong]))]
  rfl

end RuleEditor

/-! ## What the buttons do -/

namespace FormButton

open RuleEditor

/-- What a button makes of a rule. -/
def change (rule : Rule) : FormButton → Rule
  | removeFilter index => { rule with filters := rule.filters.eraseIdx index }
  | addFilter => { rule with filters := rule.filters ++ [({} : Filter)] }
  | removeCondition index => { rule with conditions := rule.conditions.eraseIdx index }
  | addCondition => { rule with conditions := rule.conditions ++ [({} : Condition)] }
  | save => rule

/-- A click on the button submits the form: it is the one at the end, or that of a row which is
followed by another of its group. -/
def submits (rule : Rule) : FormButton → Bool
  | removeFilter index => index + 1 < rule.filters.length
  | removeCondition index => index + 1 < rule.conditions.length
  | addFilter | addCondition => false
  | save => true

/-- What a button does with the draft, before the form is submitted if it is. -/
def action? : FormButton → Option RuleDraft.Action
  | removeFilter index => some (.removeFilter index)
  | addFilter => some .addFilter
  | removeCondition index => some (.removeCondition index)
  | addCondition => some .addCondition
  | save => none

/-- The page after a button has been heard. -/
def turn (s : RuleEditor) (b : FormButton) : RuleEditor :=
  match b.action? with
  | some action => s.edit fun d => (d.act action).1
  | none => s

variable (s : RuleEditor) (b : FormButton)

theorem handle_act? {a : RuleEditor.Act} (asked : b.act? = some a) (session : Session)
    (entry : Entry) : s.handle session a entry = ⟨b.turn s, session, []⟩ := by
  cases b <;> cases asked <;> rfl

theorem turn_rule : (b.turn s).draft.value.rule = b.change s.draft.value.rule := by
  cases b with
  | removeFilter index => exact s.draft.value.rule_removeFilter index
  | removeCondition index => exact s.draft.value.rule_removeCondition index
  | addFilter => exact RuleDraft.touch_rule _
  | addCondition => exact RuleDraft.touch_rule _
  | save => rfl

theorem turn_isSubmitting :
    (b.turn s).draft.value.isSubmitting = s.draft.value.isSubmitting := by
  cases b with
  | save => rfl
  | _ => exact RuleDraft.isSubmitting_act_edit rfl s.draft.value

theorem turn_submitMode : (b.turn s).draft.value.submitMode = s.draft.value.submitMode := by
  have same : (b.change s.draft.value.rule).id = s.draft.value.rule.id := by cases b <;> rfl
  unfold RuleDraft.submitMode
  rw [b.turn_rule, same]

theorem turn_loading : (b.turn s).loading = s.loading := by
  cases b <;> rfl

theorem turn_problem : (b.turn s).problem = s.problem := by
  cases b <;> rfl

variable {s b}

theorem mem_formButtons {rule : Rule} : b ∈ formButtons rule ↔
    match b with
    | removeFilter index => index < rule.filters.length
    | removeCondition index => index < rule.conditions.length
    | _ => True := by
  cases b <;> simp [formButtons]

theorem untyped_of_submits {rule : Rule} (submits : b.submits rule = true) :
    (b.type? != some "button") = true := by
  cases b with
  | addFilter | addCondition => cases submits
  | _ => rfl

theorem type?_eq_none {rule : Rule} (untyped : (b.type? != some "button") = true)
    (last : b.submits rule = false) : b.type? = none := by
  cases b with
  | addFilter | addCondition => exact absurd untyped (by decide)
  | save => cases last
  | _ => rfl

/-- Where an item is removed, another takes its place if one follows it. -/
theorem lt_length_eraseIdx {α : Type} (xs : List α) (index : Nat) :
    index < (xs.eraseIdx index).length ↔ index + 1 < xs.length := by
  rw [List.length_eraseIdx]
  split <;> omega

/-- A button that submits stands at its place also after it has been heard. -/
theorem stays_of_submits (submits : b.submits s.draft.value.rule = true) :
    b ∈ formButtons (b.change s.draft.value.rule) ∧
      b.place (b.turn s).draft.value = b.place s.draft.value := by
  rw [mem_formButtons]
  cases b with
  | removeFilter index =>
    exact ⟨(lt_length_eraseIdx s.draft.value.rule.filters index).mpr (of_decide_eq_true submits),
      rfl⟩
  | removeCondition index =>
    exact ⟨(lt_length_eraseIdx s.draft.value.rule.conditions index).mpr (of_decide_eq_true submits),
      rfl⟩
  | addFilter | addCondition => cases submits
  | save => exact ⟨trivial, rfl⟩

/-- Of a button that removed the last row of its group nothing is left at its place. -/
theorem gone_of_not_submits (untyped : b.type? = none)
    (last : b.submits s.draft.value.rule = false) {other : FormButton}
    (stands : other ∈ formButtons (b.change s.draft.value.rule)) :
    other.place (b.turn s).draft.value ≠ b.place s.draft.value := by
  rw [mem_formButtons] at stands
  intro same
  cases b with
  | removeFilter index =>
    cases other with
    | removeFilter j =>
      obtain rfl : j = index := by simpa [place] using same
      exact of_decide_eq_false last
        ((lt_length_eraseIdx s.draft.value.rule.filters j).mp stands)
    | _ => simp [place] at same
  | removeCondition index =>
    cases other with
    | removeCondition j =>
      obtain rfl : j = index := by simpa [place] using same
      exact of_decide_eq_false last
        ((lt_length_eraseIdx s.draft.value.rule.conditions j).mp stands)
    | _ => simp [place] at same
  | addFilter | addCondition | save => cases untyped

end FormButton

end GrantConsole.Screen
