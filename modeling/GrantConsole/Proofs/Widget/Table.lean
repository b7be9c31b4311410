import GrantConsole.Proofs.Console.Repeats
import GrantConsole.Proofs.Markup.Shell
import GrantConsole.Widget.Table

/-!
# Rows of a table

A table shows its records one below the other, each with a cell for each column. The buttons in a
row act on the record of that row: each hands the id of that record to its own action. A record
without an id has no buttons, and nothing but the buttons listens.
-/

namespace GrantConsole.Widget

open GrantConsole.Console GrantConsole.Markup

variable {α β γ R : Type}

/-! ## Reading a document -/

/-- The elements with a tag that stand in a node itself. -/
def within (tag : String) (n : Node α) : List (Node α) :=
  n.children.filter (Node.isTag tag)

/-- The rows in the body of a table. -/
def bodyRows (t : Node α) : List (Node α) :=
  ((within "table" t).flatMap (within "tbody")).flatMap (within "tr")

def isButton (s : Spot α) : Bool :=
  s.chain.head?.any (Node.isTag "button")

/-- A button as an operator meets it. -/
structure Press where
  path : List Nat
  label : Option String
  enabled : Bool
  click : Tab → Tab

def press (s : Spot Act) : Press :=
  ⟨s.path, s.chain.head?.map Node.content, !s.isDisabled, fun tab => tab.click s⟩

/-- An element takes no part in what happens inside of it. -/
structure Inert (n : Node α) : Prop where
  silent : n.listeners = []
  noLink : n.isTag "a" = false
  noForm : n.isTag "form" = false
  noGroup : n.isTag "fieldset" = false

/-! ## Elements among siblings -/

theorem spotsAmong_append (path : List Nat) (chain : List (Node α)) (index : Nat)
    (ns others : List (Node α)) :
    spotsAmong path chain index (ns ++ others) =
      spotsAmong path chain index ns ++ spotsAmong path chain (index + ns.length) others := by
  induction ns generalizing index with
  | nil => rfl
  | cons n ns ih =>
    rw [List.cons_append, spotsAmong, spotsAmong, ih, List.append_assoc, List.length_cons,
      Nat.add_assoc, Nat.add_comm 1]

/-- Siblings that are made of the items of a list stand in the order of the list. -/
theorem spotsAmong_map (path : List Nat) (chain : List (Node α)) (index : Nat) (node : γ → Node α)
    (items : List γ) :
    spotsAmong path chain index (items.map node) =
      (items.zipIdx index).flatMap fun item => spotsOf (item.2 :: path) chain (node item.1) := by
  induction items generalizing index with
  | nil => rfl
  | cons item items ih =>
    rw [List.map_cons, spotsAmong, ih, List.zipIdx_cons, List.flatMap_cons]

/-- Where there is no button, none is found. -/
theorem filter_isButton_spotsAmong {ns : List (Node α)}
    (lacks : Node.lacksAmong "button" ns = true) (path : List Nat) (chain : List (Node α))
    (index : Nat) : (spotsAmong path chain index ns).filter isButton = [] := by
  refine List.filter_eq_nil_iff.mpr fun s mem => ?_
  have shell : s.shell ∈ shellsAmong path (chain.map Node.shell) index ns :=
    map_shell_spotsAmong path chain index ns ▸ List.mem_map_of_mem mem
  obtain ⟨n, inner, same, none⟩ := plainIn_of_lacksAmong _ _ index ns lacks _ shell
  have head := none n List.mem_cons_self
  obtain ⟨path, _ | ⟨m, outer⟩⟩ := s
  · simp [isButton]
  · obtain ⟨rfl, -⟩ := List.cons.inj same
    simpa [isButton] using head

/-- Elements without listeners hear nothing. -/
theorem heard_silent {chain : List (Node α)} (silent : ∀ n ∈ chain, n.listeners = [])
    (h : Tab.Happening) : heard h (chain.map Node.listeners) = [] := by
  induction chain with
  | nil => rfl
  | cons n around ih =>
    obtain ⟨own, others⟩ := List.forall_mem_cons.mp silent
    rw [List.map_cons, own, heard_nil_cons, ih others]

theorem silent_cons {n : Node α} {around : List (Node α)} (own : n.listeners = [])
    (silent : ∀ m ∈ around, m.listeners = []) : ∀ m ∈ n :: around, m.listeners = [] :=
  List.forall_mem_cons.mpr ⟨own, silent⟩

/-- Siblings in which nothing listens hear nothing where nothing around them listens. -/
theorem heard_spotsAmong {ns : List (Node α)} {chain : List (Node α)}
    (mute : EveryAmong (fun _ _ => False) [] ns) (silent : ∀ n ∈ chain, n.listeners = [])
    (path : List Nat) (index : Nat) {s : Spot α} (mem : s ∈ spotsAmong path chain index ns)
    (h : Tab.Happening) : heard h (s.chain.map Node.listeners) = [] := by
  have surrounds : Surrounds (fun _ _ => False) [] chain :=
    ⟨heard_silent silent, fun outer suffix =>
      .inl (heard_silent fun n mem => silent n (suffix.subset mem))⟩
  rcases surrounds.spotsAmong_voiced path index ns mute s mem s.chain (List.suffix_refl _) with
    none | ⟨_, _, _, _, _, impossible, _⟩
  · exact none h
  · exact impossible.elim

/-! ## The rows -/

def RowAction.map (f : α → β) (action : RowAction α) : RowAction β :=
  ⟨action.label, action.cls, fun id => f (action.act id)⟩

theorem tableRow_map [Resource R] (f : α → β) (columns : List (Column R))
    (actions : List (RowAction α)) (row : R) :
    (tableRow columns actions row).map f =
      tableRow columns (actions.map (RowAction.map f)) row := by
  have buttons : (rowButtons actions row).map (Node.map f) =
      rowButtons (actions.map (RowAction.map f)) row := by
    unfold rowButtons
    split
    · simp [actionButtons, Node.button, Node.map, Node.mapAll, RowAction.map, Listener.map]
    · rfl
  unfold tableRow
  split <;> simp_all [Node.el, Node.box, Node.map, mapAll_eq_map, Function.comp_def]

/-- The console runs a table with the acts of the page that it stands in. -/
theorem table_map [Resource R] (f : α → β) (columns : List (Column R))
    (actions : List (RowAction α)) (rows : List R) (loading : Bool) (emptyText : String) :
    (table columns actions rows loading emptyText).map f =
      table columns (actions.map (RowAction.map f)) rows loading emptyText := by
  have head : (tableHead columns actions).map f =
      tableHead columns (actions.map (RowAction.map f)) := by
    unfold tableHead
    split <;> simp_all [Node.el, Node.map, mapAll_eq_map, Function.comp_def]
  have body : (rows.map (tableRow columns actions)).map (Node.map f) =
      rows.map (tableRow columns (actions.map (RowAction.map f))) := by
    simp [Function.comp_def, tableRow_map]
  unfold table
  split
  · simp [Node.box, Node.map, Node.mapAll]
  · simp only [Node.box, Node.el, Node.map, mapAll_eq_map, List.map_cons, List.map_nil, head, body]

section Rows

variable [Resource R] (columns : List (Column R)) (actions : List (RowAction α)) (row : R)

def textCell (text : String) : Node α :=
  .el "td" [] [.text text]

/-- The cell at the end of a row. -/
def buttonsCell : Node α :=
  .box "td" "crud-table__actions" (rowButtons actions row)

def rowButton (action : RowAction α) (id : String) : Node α :=
  .button action.cls action.label (action.act id)

/-- The cells of a row: the texts, then the buttons if the table has any. -/
def cellsOf : List (Node α) :=
  (rowCells columns row).map textCell ++ if actions.isEmpty then [] else [buttonsCell actions row]

theorem tableRow_eq :
    tableRow columns actions row = .element "tr" [] [] (cellsOf columns actions row) :=
  rfl

/-- The buttons of a record, at the place of its row. -/
def buttonsOf (path : List Nat) (chain : List (Node α)) : List (Spot α) :=
  match Resource.id? row with
  | none => []
  | some id => actions.zipIdx.map fun action =>
    ⟨action.2 :: columns.length :: path,
      rowButton action.1 id :: buttonsCell actions row :: tableRow columns actions row :: chain⟩

/-- The elements in the last cell of a row are its buttons, one for each action. -/
theorem spotsAmong_rowButtons (path : List Nat) (chain : List (Node α)) :
    spotsAmong path chain 0 (rowButtons actions row) =
      match Resource.id? row with
      | none => []
      | some id => actions.zipIdx.map fun action =>
        ⟨action.2 :: path, rowButton action.1 id :: chain⟩ := by
  have single (place : List Nat) (around : List (Node α)) (action : RowAction α) (id : String) :
      spotsOf place around (rowButton action id) = [⟨place, rowButton action id :: around⟩] :=
    rfl
  unfold rowButtons
  cases Resource.id? row with
  | none => rfl
  | some id =>
    change spotsAmong path chain 0 (actions.map fun action => rowButton action id) = _
    rw [spotsAmong_map]
    simp only [single, ← List.map_eq_flatMap]

theorem isButton_of_mem_rowButtons {path : List Nat} {chain : List (Node α)} {s : Spot α}
    (mem : s ∈ spotsAmong path chain 0 (rowButtons actions row)) : isButton s = true := by
  rw [spotsAmong_rowButtons] at mem
  cases has : Resource.id? row with
  | none => simp [has] at mem
  | some id =>
    rw [has] at mem
    obtain ⟨action, -, rfl⟩ := List.mem_map.mp mem
    rfl

theorem filter_isButton_cons {s : Spot α} (other : isButton s = false) (ss : List (Spot α)) :
    (s :: ss).filter isButton = ss.filter isButton :=
  List.filter_cons_of_neg (by simp [other])

/-- The elements of a row: the row itself, those of its texts, and its last cell with the buttons. -/
theorem spotsOf_tableRow (path : List Nat) (chain : List (Node α)) :
    let row' := tableRow columns actions row :: chain
    spotsOf path chain (tableRow columns actions row) =
      ⟨path, row'⟩ :: (spotsAmong path row' 0 ((rowCells columns row).map textCell) ++
        if actions.isEmpty then []
        else ⟨columns.length :: path, buttonsCell actions row :: row'⟩ ::
          spotsAmong (columns.length :: path) (buttonsCell actions row :: row') 0
            (rowButtons actions row)) := by
  have width : ((rowCells columns row).map (textCell (α := α))).length = columns.length := by
    simp [rowCells]
  rw [tableRow_eq, spotsOf, cellsOf, spotsAmong_append, width, Nat.zero_add]
  cases actions with
  | nil => rfl
  | cons first others =>
    simp only [List.isEmpty_cons, Bool.false_eq_true, if_false, spotsAmong, List.append_nil]
    rfl

/-- The buttons of a record stand at the end of its row, one for each action. -/
theorem filter_isButton_tableRow (path : List Nat) (chain : List (Node α)) :
    (spotsOf path chain (tableRow columns actions row)).filter isButton =
      buttonsOf columns actions row path chain := by
  have texts : Node.lacksAmong (α := α) "button" ((rowCells columns row).map textCell) = true :=
    lacksAmong_of_each "button" (fun _ => rfl) _
  rw [spotsOf_tableRow, filter_isButton_cons rfl, List.filter_append,
    filter_isButton_spotsAmong texts, List.nil_append]
  cases actions with
  | nil => rw [buttonsOf]; cases Resource.id? row <;> rfl
  | cons first others =>
    rw [List.isEmpty_cons, if_neg Bool.false_ne_true, filter_isButton_cons rfl,
      List.filter_eq_self.mpr fun s mem => isButton_of_mem_rowButtons _ _ mem,
      spotsAmong_rowButtons]
    rfl

theorem mute_texts (texts : List String) :
    EveryAmong (fun _ _ => False) [] (texts.map (textCell (α := α))) :=
  everyAmong_iff.mpr fun n mem => by
    obtain ⟨text, -, rfl⟩ := List.mem_map.mp mem
    simp [textCell]

/-- Nothing but its buttons listens in a row. -/
theorem heard_tableRow {chain : List (Node α)} (silent : ∀ n ∈ chain, n.listeners = [])
    (path : List Nat) {s : Spot α} (mem : s ∈ spotsOf path chain (tableRow columns actions row))
    (other : isButton s = false) (h : Tab.Happening) :
    heard h (s.chain.map Node.listeners) = [] := by
  have inside := silent_cons (rfl : (tableRow columns actions row).listeners = []) silent
  rw [spotsOf_tableRow] at mem
  rcases List.mem_cons.mp mem with rfl | mem
  · exact heard_silent inside h
  rcases List.mem_append.mp mem with text | last
  · exact heard_spotsAmong (mute_texts _) inside path 0 text h
  split at last
  · cases last
  rcases List.mem_cons.mp last with rfl | button
  · exact heard_silent (silent_cons rfl inside) h
  · simp [isButton_of_mem_rowButtons _ _ button] at other

/-- A button hears nothing but clicks. -/
theorem heard_rowButton {chain : List (Node α)} (silent : ∀ n ∈ chain, n.listeners = [])
    (action : RowAction α) (id : String) {h : Tab.Happening} (other : h.event ≠ .click) :
    heard h ((rowButton action id :: chain).map Node.listeners) = [] := by
  have deaf : answered? h (.on .click (action.act id)) = none := if_neg (Ne.symm other)
  rw [List.map_cons, heard, heard_silent silent, ite_self, List.append_nil]
  simp [rowButton, Node.button, Node.listeners, deaf]

end Rows

/-! ## The head -/

section Head

variable (columns : List (Column R)) (actions : List (RowAction α))

/-- The cells of the head. -/
def headCells : List (Node α) :=
  (columns.map fun column => .el "th" [] [.text column.header]) ++
    if actions.isEmpty then [] else [.el "th" [] [.text "Actions"]]

theorem mem_headCells {n : Node α} (mem : n ∈ headCells columns actions) :
    ∃ text, n = .el "th" [] [.text text] := by
  rcases List.mem_append.mp mem with mem | mem
  · obtain ⟨column, -, rfl⟩ := List.mem_map.mp mem
    exact ⟨_, rfl⟩
  · split at mem
    · cases mem
    · exact ⟨_, List.mem_singleton.mp mem⟩

theorem lacks_tableHead : (tableHead columns actions).lacks "button" = true := by
  have cells : Node.lacksAmong "button" (headCells columns actions) = true := by
    refine (lacksAmong_iff _).mpr fun n mem => ?_
    obtain ⟨text, rfl⟩ := mem_headCells columns actions mem
    rfl
  simpa [tableHead, headCells, Node.el, Node.lacks, Node.lacksAmong] using cells

theorem mute_tableHead : Every (fun _ _ => False) [] (tableHead columns actions) := by
  have cells : EveryAmong (fun _ _ => False) [] (headCells columns actions) := by
    refine everyAmong_iff.mpr fun n mem => ?_
    obtain ⟨text, rfl⟩ := mem_headCells columns actions mem
    simp
  simpa [tableHead, headCells] using cells

end Head

/-! ## The whole table -/

section Whole

variable [Resource R] (columns : List (Column R)) (actions : List (RowAction α)) (rows : List R)

def tableBody : Node α :=
  .el "tbody" [] (rows.map (tableRow columns actions))

def tableNode : Node α :=
  .box "table" "crud-table" [tableHead columns actions, tableBody columns actions rows]

def tableWrap : Node α :=
  .box "div" "crud-table__wrap" [tableNode columns actions rows]

/-- The elements around the rows. -/
def rowsIn (around : List (Node α)) : List (Node α) :=
  tableBody columns actions rows :: tableNode columns actions rows ::
    tableWrap columns actions rows :: around

theorem table_eq {rows : List R} (nonempty : rows ≠ []) (loading : Bool) (emptyText : String) :
    table columns actions rows loading emptyText = tableWrap columns actions rows := by
  cases rows with
  | nil => exact absurd rfl nonempty
  | cons row rows => rfl

/-- The elements of a table: those around the rows, those of the head, and those of each row. -/
theorem spotsOf_tableWrap (path : List Nat) (around : List (Node α)) :
    let wrap := tableWrap columns actions rows :: around
    let inner := tableNode columns actions rows :: wrap
    let rowsIn := tableBody columns actions rows :: inner
    spotsOf path around (tableWrap columns actions rows) =
      ⟨path, wrap⟩ :: ⟨0 :: path, inner⟩ ::
        (spotsAmong (0 :: path) inner 0 [tableHead columns actions] ++
          ⟨1 :: 0 :: path, rowsIn⟩ :: rows.zipIdx.flatMap fun row =>
            spotsOf (row.2 :: 1 :: 0 :: path) rowsIn (tableRow columns actions row.1)) := by
  intro wrap inner rowsIn
  rw [← spotsAmong_map]
  simp only [tableWrap, tableNode, tableBody, Node.box, Node.el, spotsOf, spotsAmong, wrap, inner,
    rowsIn, List.append_nil]

/-- The buttons of a table are those of its rows. -/
theorem filter_isButton_tableWrap (path : List Nat) (around : List (Node α)) :
    (spotsOf path around (tableWrap columns actions rows)).filter isButton =
      rows.zipIdx.flatMap fun row =>
        buttonsOf columns actions row.1 (row.2 :: 1 :: 0 :: path)
          (rowsIn columns actions rows around) := by
  have head : Node.lacksAmong "button" [tableHead columns actions] = true := by
    simp [Node.lacksAmong, lacks_tableHead]
  rw [spotsOf_tableWrap, filter_isButton_cons rfl, filter_isButton_cons rfl, List.filter_append,
    filter_isButton_spotsAmong head, filter_isButton_cons rfl, List.nil_append,
    List.filter_flatMap]
  simp only [filter_isButton_tableRow]
  rfl

/-- Nothing but its buttons listens in a table. -/
theorem heard_tableWrap {around : List (Node α)} (silent : ∀ n ∈ around, n.listeners = [])
    (path : List Nat) {s : Spot α}
    (mem : s ∈ spotsOf path around (tableWrap columns actions rows))
    (other : isButton s = false) (h : Tab.Happening) :
    heard h (s.chain.map Node.listeners) = [] := by
  have inWrap := silent_cons (rfl : (tableWrap columns actions rows).listeners = []) silent
  have inTable := silent_cons (rfl : (tableNode columns actions rows).listeners = []) inWrap
  have inBody := silent_cons (rfl : (tableBody columns actions rows).listeners = []) inTable
  rw [spotsOf_tableWrap] at mem
  rcases List.mem_cons.mp mem with rfl | mem
  · exact heard_silent inWrap h
  rcases List.mem_cons.mp mem with rfl | mem
  · exact heard_silent inTable h
  rcases List.mem_append.mp mem with head | mem
  · exact heard_spotsAmong (everyAmong_cons.mpr ⟨mute_tableHead columns actions, everyAmong_nil⟩)
      inTable _ 0 head h
  rcases List.mem_cons.mp mem with rfl | mem
  · exact heard_silent inBody h
  obtain ⟨row, -, inRow⟩ := List.mem_flatMap.mp mem
  exact heard_tableRow columns actions row.1 inBody _ inRow other h

theorem bodyRows_tableWrap :
    bodyRows (tableWrap columns actions rows) = rows.map (tableRow columns actions) := by
  have rowsOnly : (rows.map (tableRow columns actions)).filter (Node.isTag "tr") =
      rows.map (tableRow columns actions) :=
    List.filter_eq_self.mpr fun n mem => by
      obtain ⟨row, -, rfl⟩ := List.mem_map.mp mem
      rfl
  have table : within "table" (tableWrap columns actions rows) = [tableNode columns actions rows] :=
    rfl
  have body : within "tbody" (tableNode columns actions rows) = [tableBody columns actions rows] :=
    rfl
  rw [bodyRows, table, List.flatMap_singleton, body, List.flatMap_singleton]
  exact rowsOnly

theorem within_tableRow (row : R) :
    within "td" (tableRow columns actions row) = cellsOf columns actions row := by
  refine List.filter_eq_self.mpr fun n mem => ?_
  rcases List.mem_append.mp mem with mem | mem
  · obtain ⟨text, -, rfl⟩ := List.mem_map.mp mem
    rfl
  · split at mem
    · cases mem
    · rw [List.mem_singleton.mp mem]
      rfl

end Whole

/-! ## Buttons that are pressed -/

section Inert

variable {around : List (Node Act)} (inert : ∀ n ∈ around, Inert n)
include inert

/-- A button among inert elements is enabled, and a click on it is its act. -/
theorem press_rowButton (path : List Nat) (action : RowAction Act) (id : String) :
    press ⟨path, rowButton action id :: around⟩ =
      ⟨path, some action.label, true, fun tab => tab.act (action.act id) {}⟩ := by
  have label : (rowButton action id).content = action.label := by
    simp [rowButton, Node.button, Node.content, Node.contentAll]
  have free : Spot.isDisabled ⟨path, rowButton action id :: around⟩ = false := by
    have ungrouped : around.any (fun n => n.isTag "fieldset" && n.hasFlag "disabled") = false :=
      List.any_eq_false.mpr fun n mem => by simp [(inert n mem).noGroup]
    have flag : (rowButton action id).hasFlag "disabled" = false := rfl
    simp only [Spot.isDisabled, ungrouped, flag, Bool.or_false, Bool.and_false]
  have noLink : Tab.linkOf (rowButton action id :: around) = none := by
    refine List.findSome?_eq_none_iff.mpr fun n mem => ?_
    rcases List.mem_cons.mp mem with rfl | mem
    · rfl
    · simp [(inert n mem).noLink]
  have noForm : formChain (rowButton action id :: around) = none := by
    refine Tab.formChain_eq_none_iff.mpr fun mem => ?_
    obtain ⟨n, mem, form⟩ := List.mem_map.mp mem
    rcases List.mem_cons.mp mem with rfl | mem
    · exact absurd form (by simp [rowButton, Node.button, Node.tag?])
    · simpa [Node.isTag, form] using (inert n mem).noForm
  have click (tab : Tab) : tab.click ⟨path, rowButton action id :: around⟩ =
      tab.act (action.act id) {} := by
    have hears : heard { event := .click } ((rowButton action id :: around).map Node.listeners) =
        [action.act id] := by
      have outside := heard_silent (fun n mem => (inert n mem).silent) { event := .click }
      rw [List.map_cons, heard, outside]
      rfl
    rw [Tab.click, Tab.afterClick_eq_self noLink noForm, Tab.fire_eq, hears]
    rfl
  simp only [press, List.head?_cons, Option.map_some, label, free, click, Bool.not_false]

end Inert

/-! ## Records, as a table shows them -/

/-- A node at its place in a document shows records as the rows of a table, with actions on the
records that have an id. -/
structure ShowsRecords [Resource R] (columns : List (Column R)) (actions : List (RowAction α))
    (rows : List R) (f : α → Act) (path : List Nat) (around : List (Node Act)) (t : Node Act) :
    Prop where
  /-- A row for each record in the order of the records, with the text of each column. -/
  texts : (bodyRows t).map (fun tr => ((within "td" tr).take columns.length).map Node.content) =
    rows.map fun row => columns.map fun column => column.cell row
  /-- A row has no more cells than these, apart from one for the buttons. -/
  width : ∀ tr ∈ bodyRows t,
    (within "td" tr).length = columns.length + if actions.isEmpty then 0 else 1
  /-- The buttons of the whole table, in the order of the document: one for each action in the row
  of a record with an id. A click on one is its action on that id, and nothing else. -/
  buttons : ((spotsOf path around t).filter isButton).map press =
    rows.zipIdx.flatMap fun row =>
      match Resource.id? row.1 with
      | none => []
      | some id => actions.zipIdx.map fun action =>
        ⟨action.2 :: columns.length :: row.2 :: 1 :: 0 :: path, some action.1.label, true,
          fun tab => tab.act (f (action.1.act id)) {}⟩
  /-- Whatever else happens to an element of the table brings nothing about. -/
  quiet : ∀ s ∈ spotsOf path around t, ∀ h : Tab.Happening,
    (isButton s = true → h.event ≠ .click) → ∀ tab : Tab, tab.fire h s.chain = tab

section Shown

variable [Resource R] (columns : List (Column R)) (actions : List (RowAction Act)) {rows : List R}

/-- The elements around a row are as inert as those around the table. -/
theorem inert_rowsIn (row : R) {around : List (Node Act)} (inert : ∀ n ∈ around, Inert n) :
    ∀ n ∈ buttonsCell actions row :: tableRow columns actions row ::
      rowsIn columns actions rows around, Inert n := by
  simp only [rowsIn, List.forall_mem_cons]
  exact ⟨⟨rfl, rfl, rfl, rfl⟩, ⟨rfl, rfl, rfl, rfl⟩, ⟨rfl, rfl, rfl, rfl⟩, ⟨rfl, rfl, rfl, rfl⟩,
    ⟨rfl, rfl, rfl, rfl⟩, inert⟩

theorem tableWrap_showsRecords (path : List Nat) {around : List (Node Act)}
    (inert : ∀ n ∈ around, Inert n) :
    ShowsRecords columns actions rows id path around (tableWrap columns actions rows) where
  texts := by
    have text (s : String) : (textCell (α := Act) s).content = s := by
      simp [textCell, Node.el, Node.content, Node.contentAll]
    rw [bodyRows_tableWrap, List.map_map]
    refine List.map_congr_left fun row _ => ?_
    have texts : ((rowCells columns row).map (textCell (α := Act))).length = columns.length := by
      simp [rowCells]
    rw [Function.comp_apply, within_tableRow, cellsOf, List.take_left' texts, List.map_map]
    simp [rowCells, Function.comp_def, text]
  width tr mem := by
    rw [bodyRows_tableWrap] at mem
    obtain ⟨row, -, rfl⟩ := List.mem_map.mp mem
    rw [within_tableRow, cellsOf]
    split <;> simp [rowCells]
  buttons := by
    rw [filter_isButton_tableWrap, List.map_flatMap]
    congr 1
    funext row
    rw [buttonsOf]
    cases Resource.id? row.1 with
    | none => rfl
    | some id =>
      rw [List.map_map]
      exact List.map_congr_left fun action _ =>
        press_rowButton (inert_rowsIn columns actions row.1 inert) _ action.1 id
  quiet s mem h other tab := by
    suffices nothing : heard h (s.chain.map Node.listeners) = [] by
      rw [Tab.fire_eq, nothing]
      rfl
    cases button : isButton s with
    | false =>
      exact heard_tableWrap columns actions rows (fun n mem => (inert n mem).silent) path mem
        button h
    | true =>
      have found : s ∈ (spotsOf path around (tableWrap columns actions rows)).filter isButton :=
        List.mem_filter.mpr ⟨mem, button⟩
      rw [filter_isButton_tableWrap] at found
      obtain ⟨row, -, inRow⟩ := List.mem_flatMap.mp found
      rw [buttonsOf] at inRow
      split at inRow
      · cases inRow
      · obtain ⟨action, -, rfl⟩ := List.mem_map.mp inRow
        exact heard_rowButton (fun n mem => (inert_rowsIn columns actions row.1 inert n mem).silent)
          action.1 _ (other button)

end Shown

theorem id?_user_eq_none_iff (user : User) : Resource.id? user = none ↔ user.id = "" := by
  simp [Resource.id?]

/-- A table that is not empty shows each record in a row of its own, and each button in the row of
a record runs its own action on the id of that record. A record without an id has no buttons; a user
with an empty id is one. -/
theorem table_showsRecords [Resource R] (columns : List (Column R)) (actions : List (RowAction α))
    {rows : List R} (nonempty : rows ≠ []) (loading : Bool) (emptyText : String) (f : α → Act)
    (path : List Nat) {around : List (Node Act)} (inert : ∀ n ∈ around, Inert n) :
    ShowsRecords columns actions rows f path around
        ((table columns actions rows loading emptyText).map f) ∧
      ∀ user : User, Resource.id? user = none ↔ user.id = "" := by
  have shown : ShowsRecords columns (actions.map (RowAction.map f)) rows id path around _ :=
    tableWrap_showsRecords columns (actions.map (RowAction.map f)) path inert
  refine ⟨?_, id?_user_eq_none_iff⟩
  rw [table_map, table_eq _ _ nonempty]
  refine ⟨shown.texts, ?_, ?_, shown.quiet⟩
  · simpa using shown.width
  · rw [shown.buttons]
    congr 1
    funext row
    cases Resource.id? row.1 with
    | none => rfl
    | some id => simp [List.zipIdx_map, RowAction.map, Function.comp_def]

/-- The table of the users where one of three has no id: its row has no buttons, and the buttons of
the row after it act on the last user. -/
theorem table_showsRecords_users :
    let users : List User :=
      [{ id := "u1", email := "a@x.org" }, { email := "b@x.org" }, { id := "u 3" }]
    let shown := (table Screen.Users.columns
      [.normal "Edit" Screen.Users.Act.edit, .danger "Delete" Screen.Users.Act.delete] users false
      "No users.").map fun a => Act.page (.users a)
    let main : Node Act := .box "main" "app-main" []
    let does (a : Screen.Users.Act) (tab : Tab) : Tab := tab.act (.page (.users a)) {}
    users ≠ [] ∧ Inert main ∧
      ((spotsOf [0] [main] shown).filter isButton).map press =
        [⟨[0, 5, 0, 1, 0, 0], some "Edit", true, does (.edit "u1")⟩,
          ⟨[1, 5, 0, 1, 0, 0], some "Delete", true, does (.delete "u1")⟩,
          ⟨[0, 5, 2, 1, 0, 0], some "Edit", true, does (.edit "u 3")⟩,
          ⟨[1, 5, 2, 1, 0, 0], some "Delete", true, does (.delete "u 3")⟩] := by
  intro users shown main does
  have nonempty : users ≠ [] := List.cons_ne_nil _ _
  have inert : Inert main := ⟨rfl, rfl, rfl, rfl⟩
  have shows := (table_showsRecords Screen.Users.columns
    [.normal "Edit" Screen.Users.Act.edit, .danger "Delete" Screen.Users.Act.delete] nonempty false
    "No users." (fun a => Act.page (.users a)) [0] (List.forall_mem_singleton.mpr inert)).1
  exact ⟨nonempty, inert, shows.buttons⟩

end GrantConsole.Widget
