import GrantConsole.Proofs.Markup.Handles
import GrantConsole.Screen.RuleEditor

/-!
# The controls in the form of a rule

The form has six controls for the rule itself, four in the row of each filter, five in the row of
each condition, two that add a row and one that saves. All of them are disabled while a submit is in
flight, and none is at other times. Beside them nothing in the form listens but the form itself,
which hears that it is submitted.
-/

namespace GrantConsole.Screen

open GrantConsole.Markup GrantConsole.Widget

/-- The tags of the controls in the form of a rule, in the order of the document. -/
def formControls (rule : Rule) : List String :=
  ["input", "textarea", "select", "select", "input", "input"] ++
    rule.filters.flatMap (fun _ => ["input", "select", "input", "button"]) ++ ["button"] ++
    rule.conditions.flatMap (fun _ => ["input", "select", "input", "input", "button"]) ++
    ["button", "button"]

namespace RuleEditor

/-! ## Handles -/

def headerHandles (busy : Bool) : List (Handle Act) :=
  [⟨"input", busy, [.on .input .name]⟩,
    ⟨"textarea", busy, [.on .input .description]⟩,
    ⟨"select", busy, [.on .input (.clause (.typed .ruleType)), .on .change .type]⟩,
    ⟨"select", busy, [.on .input (.clause (.typed .aggregator)), .on .change .aggregator]⟩,
    ⟨"input", busy, [.on .input .complaint]⟩,
    ⟨"input", busy, [.on .change .active]⟩]

def filterHandles (busy : Bool) (i : Nat) : List (Handle ClauseAct) :=
  [⟨"input", busy, [.on .input (.filterField i)]⟩,
    ⟨"select", busy, [.on .input (.typed (.filterOperator i)), .on .change (.filterOperator i)]⟩,
    ⟨"input", busy, [.on .input (.filterValue i)]⟩,
    ⟨"button", busy, [.on .click (.removeFilter i)]⟩]

def conditionHandles (busy : Bool) (i : Nat) : List (Handle ClauseAct) :=
  [⟨"input", busy, [.on .input (.conditionField i)]⟩,
    ⟨"select", busy,
      [.on .input (.typed (.conditionOperator i)), .on .change (.conditionOperator i)]⟩,
    ⟨"input", busy, [.on .input (.conditionValue i)]⟩,
    ⟨"input", busy, [.on .input (.typed (.conditionOrder i)), .on .change (.conditionOrder i)]⟩,
    ⟨"button", busy, [.on .click (.removeCondition i)]⟩]

/-- The handles of a group: those of its rows, and the button that adds a row. -/
def groupHandles (busy : Bool) (row : Bool → Nat → List (Handle ClauseAct)) (count : Nat)
    (add : Act) : List (Handle Act) :=
  ((List.range count).flatMap fun i => (row busy i).map (Handle.map .clause)) ++
    [⟨"button", busy, [.on .click add]⟩]

def formHandles (draft : RuleDraft) : List (Handle Act) :=
  let busy := draft.isSubmitting
  ⟨"form", false, [.on .submit .submit]⟩ :: (headerHandles busy ++
    groupHandles busy filterHandles draft.rule.filters.length .addFilter ++
    groupHandles busy conditionHandles draft.rule.conditions.length .addCondition ++
    [⟨"button", busy, []⟩])

/-! ## The parts of the form -/

theorem handles_options {α β : Type} (frozen : Bool) (words : List β) (word : β → String) :
    Node.handlesAmong frozen (words.map fun w => (wordOption (word w) : Node α)) = [] := by
  rw [handlesAmong_map]
  exact List.flatMap_eq_nil_iff.mpr fun _ _ => rfl

section Parts

variable (busy : Bool)

theorem handles_clauseText (cls placeholder value : String) (typed : ClauseAct) :
    (clauseText cls placeholder value busy typed).handles busy =
      [⟨"input", busy, [.on .input typed]⟩] := by
  rw [clauseText, handles_control busy rfl fun _ => handlesAmong_nil _]
  cases busy <;> rfl

theorem handles_clauseOperator (shown : String) (field : LateField) (chosen : ClauseAct) :
    (clauseOperator shown busy field chosen).handles busy =
      [⟨"select", busy, [.on .input (.typed field), .on .change chosen]⟩] := by
  rw [clauseOperator, handles_control busy rfl fun frozen => handles_options frozen _ _]
  cases busy <;> rfl

theorem handles_clauseRemove (act : ClauseAct) :
    (clauseRemove busy act).handles busy = [⟨"button", busy, [.on .click act]⟩] := by
  rw [clauseRemove, handles_control busy rfl fun _ => rfl]
  cases busy <;> rfl

theorem handles_filterRow (draft : Cell RuleDraft) (i : Nat) :
    (filterRow draft i).handles draft.value.isSubmitting =
      filterHandles draft.value.isSubmitting i := by
  rw [filterRow, handles_box _ rfl rfl]
  simp only [handlesAmong_cons, handlesAmong_nil, handles_clauseText, handles_clauseOperator,
    handles_clauseRemove]
  rfl

theorem handles_conditionRow (draft : Cell RuleDraft) (i : Nat) :
    (conditionRow draft i).handles draft.value.isSubmitting =
      conditionHandles draft.value.isSubmitting i := by
  rw [conditionRow, handles_box _ rfl rfl]
  simp only [handlesAmong_cons, handlesAmong_nil, handles_clauseText, handles_clauseOperator,
    handles_clauseRemove]
  rw [handles_control draft.value.isSubmitting rfl fun _ => handlesAmong_nil _]
  cases draft.value.isSubmitting <;> rfl

/-- A group of the form disables what is in it. -/
theorem handles_sectionNode (legend : String) (content : List (Node Act)) :
    (sectionNode busy legend content).handles false = Node.handlesAmong busy content := by
  have freezes : (Node.element "fieldset" [.cls "rule-editor__section", .disabled busy] [] [] :
      Node Act).freezes = busy := by
    simp [Node.freezes, Node.isTag, Node.tag?, Node.hasFlag, Node.attributes, Attribute.disabled,
      Attribute.cls]
  rw [sectionNode, Node.el, Node.handles, freezes, Bool.or_false]
  rfl

theorem handles_group {draft : Cell RuleDraft} {row : Cell RuleDraft → Nat → Node ClauseAct}
    {handles : Bool → Nat → List (Handle ClauseAct)}
    (rows : ∀ i, (row draft i).handles busy = handles busy i) (legend : String) (count : Nat)
    (label : String) (add : Act) :
    (sectionNode busy legend (clauseRows draft row count ++ [addButton label add])).handles false =
      groupHandles busy handles count add := by
  have button : (addButton label add).handles busy = [⟨"button", busy, [.on .click add]⟩] := by
    rw [addButton, Node.plainButton, handles_control busy rfl fun _ => rfl]
    simp [Node.hasFlag, Node.attributes, Attribute.cls]
  rw [handles_sectionNode, handlesAmong_append, clauseRows, handlesAmong_map, handlesAmong_cons,
    handlesAmong_nil, button, List.append_nil]
  simp only [handles_map, rows]
  rfl

/-- The controls of the rule itself are disabled by their group. -/
theorem handles_headerFields (s : RuleEditor) :
    Node.handlesAmong busy s.headerFields = headerHandles busy := by
  have labels (label : String) (input : Node Act) :
      (labelled label input).handles busy = input.handles busy := by
    rw [labelled, handles_box _ rfl rfl, handlesAmong_cons, handlesAmong_cons, handles_text,
      handlesAmong_nil, List.nil_append, List.append_nil]
  have line (value : String) (typed : Act) :
      (lineInput value typed).handles busy = [⟨"input", busy, [.on .input typed]⟩] :=
    handles_control busy rfl fun _ => handlesAmong_nil _
  have lines (value : String) (typed : Act) :
      (Node.element "textarea" [.cls "dialog__textarea", .value value]
        [.on .input typed] []).handles busy = [⟨"textarea", busy, [.on .input typed]⟩] :=
    handles_control busy rfl fun _ => handlesAmong_nil _
  have choice (shown : String) (field : LateField) (chosen : Act) (options : List (Node Act))
      (silent : ∀ frozen, Node.handlesAmong frozen options = []) :
      (dropDown shown field chosen options).handles busy =
        [⟨"select", busy, [.on .input (.clause (.typed field)), .on .change chosen]⟩] :=
    handles_control busy rfl silent
  have box (checked : Bool) : (checkField "Active" checked Act.active).handles busy =
      [⟨"input", busy, [.on .change .active]⟩] := by
    rw [checkField, handles_box _ rfl rfl, handlesAmong_cons, handlesAmong_cons, handles_text,
      handles_control busy rfl fun _ => handlesAmong_nil _]
    rfl
  have types (frozen : Bool) : Node.handlesAmong frozen
      (RuleType.all.map fun t => (wordOption t.spelling : Node Act)) = [] :=
    handles_options frozen _ _
  have aggregators (frozen : Bool) : Node.handlesAmong frozen
      (.el "option" [.plain "value" ""] [.text "None"] ::
        Aggregator.offered.map fun a => (wordOption a.spelling : Node Act)) = [] := by
    rw [handlesAmong_cons, handles_options]
    rfl
  simp only [headerFields, handlesAmong_cons, handlesAmong_nil, labels, line, lines,
    choice _ _ _ _ types, choice _ _ _ _ aggregators, box]
  rfl

/-- The button that saves says itself whether it is disabled. -/
theorem handles_end (draft : RuleDraft) (label : String) :
    (Node.box "div" "dialog__actions" (errorNode draft ++
        [.el "button" [.cls "btn btn--primary", .plain "type" "submit", .disabled busy]
          [.text label]])).handles false = [⟨"button", busy, []⟩] := by
  have error : Node.handlesAmong false (errorNode draft) = [] := by
    unfold errorNode
    split <;> rfl
  rw [handles_box _ rfl rfl, handlesAmong_append, error, List.nil_append, handlesAmong_cons,
    Node.el, handles_control false rfl fun _ => rfl]
  cases busy <;> rfl

end Parts

/-! ## The form -/

/-- All that can be used in the form, and what it asks for. -/
theorem handles_form (s : RuleEditor) : s.form.handles false = formHandles s.draft.value := by
  have form (children : List (Node Act)) :
      (Node.element "form" [.cls "rule-editor__form"] [.on .submit Act.submit] children).handles
        false = ⟨"form", false, [.on .submit .submit]⟩ :: Node.handlesAmong false children := by
    rw [Node.handles]
    rfl
  rw [RuleEditor.form, form, formHandles]
  simp only [handlesAmong_cons, handlesAmong_nil, handles_sectionNode, handles_headerFields,
    handles_group _ (handles_filterRow s.draft), handles_group _ (handles_conditionRow s.draft),
    handles_end, List.append_assoc, List.append_nil]

/-- The form is shown. -/
def isReady (s : RuleEditor) : Bool :=
  !s.loading && s.problem.isNone

/-- Nothing else can be used on the page. -/
theorem handles_view (s : RuleEditor) :
    s.view.handles false = if s.isReady then formHandles s.draft.value else [] := by
  have header (label : String) : (Node.box "header" "resource-page__header"
      [title label, .link "btn" "/rules" "Back to rules"] : Node Act).handles false = [] := rfl
  rw [view, handles_box _ rfl rfl, handlesAmong_cons, header, handlesAmong_cons, handlesAmong_nil,
    List.nil_append, List.append_nil, content, ← isReady]
  split
  · exact handles_form s
  · rfl

/-! ## Controls -/

/-- The controls of a group: the same for each of its clauses, and the button that adds one. -/
theorem controls_group {α : Type} {busy : Bool} {row : Bool → Nat → List (Handle ClauseAct)}
    (tags : List String)
    (rows : ∀ i, ((row busy i).map (Handle.map Act.clause)).filterMap Handle.control? =
      tags.map fun tag => (tag, busy)) (clauses : List α) (add : Act) :
    (groupHandles busy row clauses.length add).filterMap Handle.control? =
      (clauses.flatMap (fun _ => tags) ++ ["button"]).map fun tag => (tag, busy) := by
  have each : (List.range clauses.length).flatMap (fun _ => tags) =
      clauses.flatMap fun _ => tags := by
    simp only [List.flatMap_def, List.map_const', List.length_range]
  rw [groupHandles, List.filterMap_append, List.filterMap_flatMap, ← each, List.map_append,
    List.map_flatMap]
  simp only [rows]
  rfl

theorem controls_formHandles (draft : RuleDraft) :
    (formHandles draft).filterMap Handle.control? =
      (formControls draft.rule).map fun tag => (tag, draft.isSubmitting) := by
  have form : (⟨"form", false, [.on .submit .submit]⟩ : Handle Act).control? = none := rfl
  have filters (clauses : List Filter) (busy : Bool) (add : Act) :=
    @controls_group _ busy filterHandles ["input", "select", "input", "button"] (fun _ => rfl)
      clauses add
  have conditions (clauses : List Condition) (busy : Bool) (add : Act) :=
    @controls_group _ busy conditionHandles ["input", "select", "input", "input", "button"]
      (fun _ => rfl) clauses add
  rw [formHandles, List.filterMap_cons_none form]
  simp only [List.filterMap_append, filters, conditions]
  simp only [formControls, List.map_append, List.append_assoc]
  rfl

/-- In any state of an editor the controls of its form are those of the rule at hand, and they are
disabled while a submit is in flight and at no other time. -/
theorem controls_form (s : RuleEditor) (path : List Nat) {outer : List (Node Act)}
    (free : outer.any Node.freezes = false) :
    (spotsOf path outer s.form).filterMap Spot.control? =
      (formControls s.draft.value.rule).map fun tag => (tag, s.draft.value.isSubmitting) := by
  rw [filterMap_control?_spotsOf, free, handles_form, controls_formHandles]

/-! ## What the controls hear -/

/-- The listener hears that a control is used. -/
def hearsUse : Listener Act → Bool
  | .on .click _ | .on .input _ | .on .change _ => true
  | _ => false

/-- A control of the form: it hears no more than that it is used. -/
structure IsField (busy : Bool) (h : Handle Act) : Prop where
  control : h.isControl = true
  disabled : h.disabled = busy
  hears : h.listeners.all hearsUse = true

theorem isField_headerHandles (busy : Bool) : ∀ h ∈ headerHandles busy, IsField busy h := by
  simp only [headerHandles, List.forall_mem_cons]
  exact ⟨⟨rfl, rfl, rfl⟩, ⟨rfl, rfl, rfl⟩, ⟨rfl, rfl, rfl⟩, ⟨rfl, rfl, rfl⟩, ⟨rfl, rfl, rfl⟩,
    ⟨rfl, rfl, rfl⟩, nofun⟩

theorem isField_filterHandles (busy : Bool) (i : Nat) :
    ∀ h ∈ filterHandles busy i, IsField busy (h.map Act.clause) := by
  simp only [filterHandles, List.forall_mem_cons]
  exact ⟨⟨rfl, rfl, rfl⟩, ⟨rfl, rfl, rfl⟩, ⟨rfl, rfl, rfl⟩, ⟨rfl, rfl, rfl⟩, nofun⟩

theorem isField_conditionHandles (busy : Bool) (i : Nat) :
    ∀ h ∈ conditionHandles busy i, IsField busy (h.map Act.clause) := by
  simp only [conditionHandles, List.forall_mem_cons]
  exact ⟨⟨rfl, rfl, rfl⟩, ⟨rfl, rfl, rfl⟩, ⟨rfl, rfl, rfl⟩, ⟨rfl, rfl, rfl⟩, ⟨rfl, rfl, rfl⟩,
    nofun⟩

theorem isField_group {busy : Bool} {row : Bool → Nat → List (Handle ClauseAct)}
    (rows : ∀ i, ∀ h ∈ row busy i, IsField busy (h.map Act.clause)) (count : Nat) (add : Act) :
    ∀ h ∈ groupHandles busy row count add, IsField busy h := by
  intro h mem
  rcases List.mem_append.mp mem with mem | mem
  · obtain ⟨i, -, ofRow⟩ := List.mem_flatMap.mp mem
    obtain ⟨own, inRow, rfl⟩ := List.mem_map.mp ofRow
    exact rows i own inRow
  · cases List.mem_singleton.mp mem
    exact ⟨rfl, rfl, rfl⟩

/-- All that can be used in the form are its controls; the form itself hears only that it is
submitted. -/
theorem mem_formHandles {draft : RuleDraft} {h : Handle Act} (mem : h ∈ formHandles draft) :
    h = ⟨"form", false, [.on .submit .submit]⟩ ∨ IsField draft.isSubmitting h := by
  have filters := isField_group (isField_filterHandles draft.isSubmitting)
    draft.rule.filters.length .addFilter
  have conditions := isField_group (isField_conditionHandles draft.isSubmitting)
    draft.rule.conditions.length .addCondition
  have last : ∀ h ∈ ([⟨"button", draft.isSubmitting, []⟩] : List (Handle Act)),
      IsField draft.isSubmitting h := by
    intro h mem
    cases List.mem_singleton.mp mem
    exact ⟨rfl, rfl, rfl⟩
  refine (List.mem_cons.mp mem).imp_right fun mem => ?_
  have above := List.forall_mem_append.mpr ⟨isField_headerHandles draft.isSubmitting, filters⟩
  exact List.forall_mem_append.mpr ⟨List.forall_mem_append.mpr ⟨above, conditions⟩, last⟩ h mem

end RuleEditor

end GrantConsole.Screen
