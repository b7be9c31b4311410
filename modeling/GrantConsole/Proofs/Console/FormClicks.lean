import GrantConsole.Proofs.Console.Repeats
import GrantConsole.Proofs.Console.Sending
import GrantConsole.Proofs.Console.Strays
import GrantConsole.Proofs.Screen.FormButtons

/-!
# Clicks on the buttons of a form

A click on a button in the form of a rule is heard by that button. Unless the button says that it is
no more than a button, the form is submitted then, as long as there is a button at its place. So the
button of a row removes a clause, and if another row takes the place of its own it saves the rule.
-/

namespace GrantConsole.Console

open GrantConsole.Api GrantConsole.Markup GrantConsole.Screen

namespace Tab

/-- The tab shows the form of a rule. -/
structure ShowsForm (tab : Tab) (s : RuleEditor) : Prop where
  page : tab.page = .ruleEditor s
  loaded : s.loading = false
  fine : s.problem = none
  loose : tab.Loose

def mainShell : Node RuleEditor.Act :=
  .box "main" "app-main" []

/-- A button of the form in the document. -/
def formSpot (tab : Tab) (s : RuleEditor) (b : FormButton) : Spot Act :=
  ((b.spot s.draft.value [1, 0, tab.header.length] [RuleEditor.sectionShell, mainShell]).map
    .ruleEditor).map .page

/-! ## The document -/

theorem lacks_form_header (tab : Tab) : Node.lacksAmong "form" tab.header = true := by
  have places := lacksAmong_of_each "form" (fun link : String × String =>
    (rfl : (Node.link (linkClass link.1 tab.chrome.path) link.1 link.2 : Node Act).lacks "form" =
      true)) links
  unfold header Chrome.header
  split
  · simpa [Node.lacksAmong, Node.lacks, Node.box, Node.button, Node.link] using places
  · rfl

theorem lacks_form_footer (tab : Tab) : Node.lacksAmong "form" tab.footer = true := by
  unfold footer Chrome.footer
  split <;> rfl

theorem lacks_form_toastHost (tab : Tab) : tab.toastHost.lacks "form" = true := by
  have toasts := lacksAmong_of_each "form" (fun toast : Toast =>
    (rfl : (Widget.toastNode Act.dismiss toast).lacks "form" = true)) tab.toasts.queue
  simpa [toastHost, Widget.toastHost, Node.el, Node.lacks] using toasts

theorem shells_main {tab : Tab} {s : RuleEditor} (shows : tab.ShowsForm s) (path : List Nat) :
    shellsOf path [] tab.main =
      ((shellsOf path [] (.box "main" "app-main" [s.view])).map
        (Spot.map Page.Act.ruleEditor)).map (Spot.map Act.page) := by
  have plain : tab.plainMain =
      ((Node.box "main" "app-main" [s.view]).map Page.Act.ruleEditor).map Act.page := by
    simp [plainMain, shows.page, Page.view, Node.box, Node.map, Node.mapAll]
  rw [main, shellsOf_shownIn shows.loose, plain]
  exact (shellsOf_map Act.page path [] _).trans
    (congrArg _ (shellsOf_map Page.Act.ruleEditor path [] _))

/-- The buttons in the forms of the document are those of the form that the page shows. -/
theorem formButtons_body {tab : Tab} {s : RuleEditor} (shows : tab.ShowsForm s) :
    ((spots tab.body).filter Spot.isFormButton).map Spot.shell =
      (formButtons s.draft.value.rule).map (tab.formSpot s) := by
  have main (path : List Nat) :
      (shellsOf path [] (.box "main" "app-main" [s.view])).filter Spot.isFormButton =
        (formButtons s.draft.value.rule).map fun b =>
          b.spot s.draft.value (1 :: 0 :: path) [RuleEditor.sectionShell, mainShell] := by
    rw [Node.box, shellsOf,
      List.filter_cons_of_neg (by simp [Spot.isFormButton, Node.isTag, Node.tag?]),
      RuleEditor.shellsAmong_singleton, RuleEditor.formButtons_view shows.loaded shows.fine]
    rfl
  have all : (spots tab.body).map Spot.shell = shellsAmong [] [] 0 tab.body :=
    map_shell_spotsAmong [] [] 0 tab.body
  have shelled : ((spots tab.body).filter Spot.isFormButton).map Spot.shell =
      (shellsAmong [] [] 0 tab.body).filter Spot.isFormButton := by
    rw [← all, List.filter_map]
    congr 2
    funext spot
    exact (isFormButton_shell spot).symm
  have outside : ([] : List (Node Act)).any (fun n => n.isTag "form") = false := rfl
  have mapped : (Spot.isFormButton ∘ Spot.map Act.page) ∘ Spot.map Page.Act.ruleEditor =
      Spot.isFormButton := by
    funext spot
    simp [isFormButton_map]
  rw [shelled, body]
  simp only [shellsAmong_append, List.filter_append, shellsAmong, List.append_nil,
    noFormButton_of_no_form outside (plainIn_of_lacksAmong _ _ _ _ tab.lacks_form_header),
    noFormButton_of_no_form outside (plainIn_of_lacksAmong _ _ _ _ tab.lacks_form_footer),
    noFormButton_of_no_form outside (plainIn_of_lacks _ _ _ tab.lacks_form_toastHost),
    List.nil_append, Nat.zero_add]
  rw [shells_main shows, List.filter_map, List.filter_map, mapped, main, List.map_map, List.map_map]
  rfl

/-! ## One button -/

theorem map_listeners_shell (chain : List (Node Act)) :
    (chain.map Node.shell).map Node.listeners = chain.map Node.listeners := by
  rw [List.map_map]
  exact List.map_congr_left fun n _ => listeners_shell n

theorem linkOf_map_shell (chain : List (Node Act)) :
    linkOf (chain.map Node.shell) = linkOf chain := by
  rw [linkOf, List.findSome?_map]
  simp [linkOf, Function.comp_def]

section Button

variable {tab : Tab} {s : RuleEditor} {b : FormButton} {spot : Spot Act}

/-- An element is a button of the form. -/
def IsButton (tab : Tab) (s : RuleEditor) (b : FormButton) (spot : Spot Act) : Prop :=
  spot.shell = tab.formSpot s b

variable (is : tab.IsButton s b spot)

include is

theorem IsButton.type : spot.chain.head?.bind (fun n => n.attribute? "type") = b.type? := by
  have shells : (spot.shell.chain.head?.bind fun n => n.attribute? "type") = b.type? := by
    rw [is]
    cases b <;> rfl
  rw [← shells, Spot.shell, List.head?_map]
  cases spot.chain.head? <;> simp

theorem IsButton.isSubmitButton :
    spot.chain.head?.any isSubmitButton = (b.type? != some "button") := by
  have shells : spot.shell.chain.head?.any Markup.isSubmitButton = (b.type? != some "button") := by
    rw [is]
    cases b <;> rfl
  rw [← shells, Spot.shell, List.head?_map]
  cases spot.chain.head? <;> simp

/-- A button is disabled while a submit is in flight. -/
theorem IsButton.isDisabled : spot.isDisabled = s.draft.value.isSubmitting := by
  rw [← isDisabled_shell, is, formSpot, FormButton.spot]
  generalize s.draft.value.isSubmitting = busy
  cases b <;> cases busy <;> rfl

theorem IsButton.heard_click :
    heard { event := .click } (spot.chain.map Node.listeners) =
      (b.act?.map fun a => Act.page (.ruleEditor a)).toList := by
  have shells : heard { event := .click } (spot.shell.chain.map Node.listeners) =
      (b.act?.map fun a => Act.page (.ruleEditor a)).toList := by
    rw [is]
    cases b <;> rfl
  rw [← shells, Spot.shell, map_listeners_shell]

theorem IsButton.linkOf : linkOf spot.chain = none := by
  have shells : Tab.linkOf spot.shell.chain = none := by
    rw [is]
    cases b <;> rfl
  rw [← shells, Spot.shell, linkOf_map_shell]

/-- The form around a button hears its submit. -/
theorem IsButton.form : ∃ form, formChain spot.chain = some form ∧
    heard { event := .submit } (form.map Node.listeners) = [.page (.ruleEditor .submit)] := by
  have shells : ∃ outer, formChain spot.shell.chain = some outer ∧
      heard { event := .submit } (outer.map Node.listeners) = [.page (.ruleEditor .submit)] := by
    rw [is]
    exact ⟨(tab.formSpot s b).chain.drop (b.shells s.draft.value.isSubmitting).length,
      by cases b <;> rfl, by cases b <;> rfl⟩
  obtain ⟨outer, found, submits⟩ := shells
  rw [Spot.shell, formChain_map_shell] at found
  obtain ⟨form, here, rfl⟩ := Option.map_eq_some_iff.mp found
  exact ⟨form, here, by rw [← submits, map_listeners_shell]⟩

end Button

/-! ## A button that has been heard -/

section Heard

variable {tab : Tab} {s : RuleEditor} {b : FormButton} {spot : Spot Act}

/-- The tab when a button of the form has been heard. -/
def pressed (tab : Tab) (s : RuleEditor) (b : FormButton) : Tab :=
  if b.act?.isSome then sweep { tab with page := .ruleEditor (b.turn s) } else tab

theorem fire_click (shows : tab.ShowsForm s) (rests : tab.due = []) (is : tab.IsButton s b spot) :
    tab.fire { event := .click } spot.chain = tab.pressed s b := by
  rw [fire_eq, is.heard_click, pressed]
  cases asked : b.act? with
  | none => rfl
  | some a =>
    refine act_of_nothing rests ?_
    rw [shows.page, Page.handle, b.handle_act? s asked]
    rfl

/-- Only the page and the properties set on it change. -/
theorem pressed_field {α : Type} (field : Tab → α)
    (aside : ∀ page strays, field { tab with page, strays } = field tab) :
    field (tab.pressed s b) = field tab := by
  unfold pressed
  split
  · exact aside _ _
  · rfl

theorem pressed_due : (tab.pressed s b).due = tab.due :=
  pressed_field Tab.due fun _ _ => rfl

theorem pressed_sent : (tab.pressed s b).sent = tab.sent :=
  pressed_field Tab.sent fun _ _ => rfl

theorem pressed_session : (tab.pressed s b).session = tab.session :=
  pressed_field Tab.session fun _ _ => rfl

theorem pressed_header : (tab.pressed s b).header = tab.header :=
  pressed_field Tab.header fun _ _ => rfl

/-- The form is still shown, with the rule that the button made of it. -/
theorem ShowsForm.pressed (shows : tab.ShowsForm s) (b : FormButton) :
    (tab.pressed s b).ShowsForm (b.turn s) := by
  have loaded := (b.turn_loading s).trans shows.loaded
  have fine := (b.turn_problem s).trans shows.fine
  unfold Tab.pressed
  cases asked : b.act?.isSome with
  | false =>
    have same : b.turn s = s := by
      cases b with
      | save => rfl
      | _ => cases asked
    exact ⟨by simp [same, shows.page], loaded, fine, shows.loose⟩
  | true =>
    exact ⟨rfl, loaded, fine, fun stray kept => shows.loose stray (List.mem_filter.mp kept).1⟩

/-! ## What is left at the place of a button -/

theorem IsButton.path (is : tab.IsButton s b spot) :
    spot.path = b.place s.draft.value ++ [1, 0, tab.header.length] :=
  congrArg Spot.path is

theorem IsButton.tags (is : tab.IsButton s b spot) : spot.tags = (tab.formSpot s b).tags := by
  rw [← tags_shell, is]

/-- An element at the place of a button that was heard is a button of the form as well. -/
theorem again_isButton (shows : tab.ShowsForm s) (is : tab.IsButton s b spot)
    {now : Spot Act} (again : spot.again? (tab.pressed s b).body = some now) :
    ∃ other ∈ formButtons (b.change s.draft.value.rule),
      (tab.pressed s b).IsButton (b.turn s) other now ∧
        other.place (b.turn s).draft.value = b.place s.draft.value := by
  have alike := List.find?_some again
  simp only [Bool.and_eq_true, beq_iff_eq] at alike
  obtain ⟨path, tags⟩ := alike
  -- An element is known again by its tags, and these tell a button in a form.
  have button : now.isFormButton = true := by
    rw [isFormButton_of_tags (tags.trans is.tags)]
    cases b <;> rfl
  have there : now.shell ∈
      ((spots (tab.pressed s b).body).filter Spot.isFormButton).map Spot.shell :=
    List.mem_map_of_mem (List.mem_filter.mpr ⟨List.mem_of_find?_eq_some again, button⟩)
  rw [formButtons_body (shows.pressed b), b.turn_rule] at there
  obtain ⟨other, stands, shell⟩ := List.mem_map.mp there
  have isOther : (tab.pressed s b).IsButton (b.turn s) other now := shell.symm
  refine ⟨other, stands, isOther, ?_⟩
  have places := (isOther.path.symm.trans path).trans is.path
  rw [pressed_header] at places
  exact List.append_cancel_right places

/-- A button that submits is found again at its place. -/
theorem again_of_submits (shows : tab.ShowsForm s) (is : tab.IsButton s b spot)
    (submits : b.submits s.draft.value.rule = true) :
    ∃ now, spot.again? (tab.pressed s b).body = some now := by
  obtain ⟨stands, place⟩ := FormButton.stays_of_submits submits
  rw [← b.turn_rule] at stands
  have there := List.mem_map_of_mem (f := (tab.pressed s b).formSpot (b.turn s)) stands
  rw [← formButtons_body (shows.pressed b)] at there
  obtain ⟨now, mem, shell⟩ := List.mem_map.mp there
  have isNow : (tab.pressed s b).IsButton (b.turn s) b now := shell
  have path : now.path = spot.path := by
    rw [isNow.path, is.path, place, pressed_header]
  have tags : now.tags = spot.tags := by
    rw [isNow.tags, is.tags]
    cases b <;> rfl
  have found : ((spots (tab.pressed s b).body).find? fun t =>
      t.path == spot.path && t.tags == spot.tags).isSome = true :=
    List.find?_isSome.mpr ⟨now, (List.mem_filter.mp mem).1, by simp [path, tags]⟩
  exact Option.isSome_iff_exists.mp found

/-! ## The click -/

/-- A click is heard by the button. Where the button submits, the form is submitted then. -/
theorem click_eq (shows : tab.ShowsForm s) (rests : tab.due = []) (is : tab.IsButton s b spot) :
    tab.click spot =
      if b.submits s.draft.value.rule then
        (tab.pressed s b).act (.page (.ruleEditor .submit)) {}
      else tab.pressed s b := by
  rw [click, fire_click shows rests is, afterClick, is.linkOf, is.isSubmitButton]
  dsimp only
  cases submits : b.submits s.draft.value.rule with
  | true =>
    obtain ⟨now, again⟩ := again_of_submits shows is submits
    obtain ⟨other, -, isOther, -⟩ := again_isButton shows is again
    obtain ⟨form, found, hears⟩ := isOther.form
    rw [if_pos (FormButton.untyped_of_submits submits), again, Option.bind_some, found]
    dsimp only
    rw [fire_eq, hears]
    rfl
  | false =>
    split
    · rename_i untyped
      have unsaid := FormButton.type?_eq_none untyped submits
      have gone : spot.again? (tab.pressed s b).body = none := by
        by_contra still
        obtain ⟨now, again⟩ := Option.ne_none_iff_exists'.mp still
        obtain ⟨other, stands, -, place⟩ := again_isButton shows is again
        exact FormButton.gone_of_not_submits unsaid submits stands place
      rw [gone]
      rfl
    · rfl

end Heard

/-! ## What is sent -/

section Sent

variable {tab : Tab} {s : RuleEditor}

/-- Work that is done sends more or nothing. -/
theorem sent_prefix_runFor (tab : Tab) (fuel : Nat) : tab.sent <+: (tab.runFor fuel).sent := by
  refine tab.runFor_carries (fun a b => a.sent <+: b.sent) (fun _ => List.prefix_refl _)
    List.IsPrefix.trans (fun tab due rest _ => ?_) fuel
  rcases (works_work { tab with due := rest } due).sent_cases with same | ⟨c, request, -, added⟩
  · exact ⟨[], (List.append_nil _).trans same.symm⟩
  · exact ⟨[request], added.symm⟩

/-- An act that makes a call sends its request before all else. -/
theorem sent_prefix_act (rests : tab.due = []) {a : Page.Act} {entry : Entry} {q : Page}
    {c : Page.Call} (makes : tab.page.handle tab.session a entry = ⟨q, tab.session, [.call c]⟩) :
    tab.sent ++ (c.operation.request? tab.session).toList <+: (tab.act (.page a) entry).sent := by
  have sends : next { tab with page := q, due := [.call tab.number c] } =
      some (send { tab with page := q, due := [] } tab.number c) :=
    next_eq_some { tab with page := q, due := [.call tab.number c] } rfl
  rw [act_page_eq, takeTurn_of_call rests makes, run, workLimit, runFor, sends,
    ← send_sent { tab with page := q, due := [] } tab.number c]
  exact sent_prefix_runFor _ _

/-- A submit of the form asks for the rule to be saved as it is, unless one is in flight. -/
theorem sent_prefix_submit (shows : tab.ShowsForm s) (rests : tab.due = [])
    (free : s.draft.value.isSubmitting = false) :
    tab.sent ++
        ((Submission.mk s.draft.value.submitMode s.draft.value.rule).operation.request?
          tab.session).toList <+:
      (tab.act (.page (.ruleEditor .submit)) {}).sent := by
  have makes : tab.page.handle tab.session (.ruleEditor .submit) {} =
      ⟨.ruleEditor (s.edit fun _ => s.draft.value.underWay), tab.session,
        [.call (.ruleEditor (.submit ⟨s.draft.value.submitMode, s.draft.value.rule⟩))]⟩ := by
    rw [shows.page, Page.handle, RuleEditor.handle,
      RuleDraft.beginSubmit_of_not_isSubmitting free]
    rfl
  exact sent_prefix_act rests makes

end Sent

/-! ## All buttons of the form -/

/-- Where a run of the console has come to the page of a rule, its form is shown unless it is
withheld. -/
theorem showsForm_after (session : Session) (server : Server) (path : String) (steps : List Step)
    {s : RuleEditor} (page : ((opened session server path).after steps).page = .ruleEditor s)
    (loaded : s.loading = false) (fine : s.problem = none) :
    ((opened session server path).after steps).ShowsForm s :=
  ⟨page, loaded, fine, loose_after session server path steps⟩

/-- What a button of the form says of its kind, and what a click on it does. -/
structure Clicked (tab : Tab) (s : RuleEditor) (b : FormButton) (spot : Spot Act) : Prop where
  type : spot.chain.head?.bind (fun n => n.attribute? "type") = b.type?
  disabled : spot.isDisabled = s.draft.value.isSubmitting
  /-- The button is heard, and the form only where the button submits. -/
  click : tab.click spot =
    if b.submits s.draft.value.rule then (tab.pressed s b).act (.page (.ruleEditor .submit)) {}
    else tab.pressed s b
  silent : b.submits s.draft.value.rule = false → (tab.click spot).sent = tab.sent
  /-- The rule is sent as the button made it. -/
  sends : s.draft.value.isSubmitting = false → b.submits s.draft.value.rule = true →
    tab.sent ++
        ((Submission.mk s.draft.value.submitMode (b.change s.draft.value.rule)).operation.request?
          tab.session).toList <+:
      (tab.click spot).sent

theorem clicked {tab : Tab} {s : RuleEditor} {b : FormButton} {spot : Spot Act}
    (shows : tab.ShowsForm s) (rests : tab.due = []) (is : tab.IsButton s b spot) :
    tab.Clicked s b spot where
  type := is.type
  disabled := is.isDisabled
  click := click_eq shows rests is
  silent last := by rw [click_eq shows rests is, last, if_neg nofun, pressed_sent]
  sends free submits := by
    have sent := sent_prefix_submit (shows.pressed b) (pressed_due.trans rests)
      ((b.turn_isSubmitting s).trans free)
    rw [click_eq shows rests is, if_pos submits]
    rwa [pressed_sent, pressed_session, b.turn_rule, b.turn_submitMode] at sent

/-- The buttons in the forms of the document are those of the rule at hand, and each does on a click
what it says of itself: a button without a type submits the form wherever another row follows its
own. -/
theorem clicked_formButtons {tab : Tab} {s : RuleEditor} (shows : tab.ShowsForm s)
    (rests : tab.due = []) :
    List.Forall₂ (tab.Clicked s) (formButtons s.draft.value.rule)
      ((spots tab.body).filter Spot.isFormButton) := by
  have pairs : List.Forall₂ Eq ((formButtons s.draft.value.rule).map (tab.formSpot s))
      (((spots tab.body).filter Spot.isFormButton).map Spot.shell) := by
    rw [List.forall₂_eq_eq_eq]
    exact (formButtons_body shows).symm
  rw [List.forall₂_map_left_iff, List.forall₂_map_right_iff] at pairs
  exact pairs.imp fun b spot is => clicked shows rests is.symm

/-- The page of a new rule, with two filters. -/
def twoFilters : RuleEditor where
  draft := ⟨{ rule := { Rule.blank "g" with filters := [{}, {}] } }, []⟩

def newRule : Tab where
  session := ⟨some [("access_token", "t")]⟩
  server := {}
  location := ⟨"/rules/new", ""⟩
  chrome := ⟨true, "/rules/new", none⟩
  page := .ruleEditor twoFilters

/-- The button of the first of two filters saves the rule. -/
theorem clicked_formButtons_twoFilters :
    ∃ (spot : Spot Act) (others : List (Spot Act)) (request : Request),
      newRule.ShowsForm twoFilters ∧ newRule.due = [] ∧
      (spots newRule.body).filter Spot.isFormButton = spot :: others ∧ others.length = 4 ∧
      spot.chain.head?.bind (fun n => n.attribute? "type") = none ∧
      request.method = .post ∧ [request] <+: (newRule.click spot).sent := by
  have shows : newRule.ShowsForm twoFilters := ⟨rfl, rfl, rfl, nofun⟩
  have clicked := clicked_formButtons shows rfl
  generalize (spots newRule.body).filter Spot.isFormButton = buttons at clicked
  obtain ⟨spot, others, remove, rest, rfl⟩ := List.forall₂_cons_left_iff.mp clicked
  exact ⟨spot, others, _, shows, rfl, rfl, rest.length_eq.symm, remove.type, rfl,
    remove.sends rfl rfl⟩

def addFilterButton : Target where
  look := { tag := some "button", text := some "Add filter" }

def removeButton : Target where
  look := { tag := some "button", text := some "Remove" }

/-- Beside the button that saves the rule there are others in the form that do not say that they are
no more than buttons, and some of these send a request. -/
theorem not_silent_unless_saved :
    ¬ ∀ (session : Session) (server : Server) (path : String) (steps : List Step) (t : Target),
      let tab := (opened session server path).after steps
      ∀ spot ∈ tab.clicked? (.click t), spot.isFormButton = true →
        spot.chain.head?.map Node.content ≠ some "Save rule" →
          spot.chain.head?.bind (fun n => n.attribute? "type") = some "button" ∨
            (tab.step (.click t)).1.sent.length = tab.sent.length := by
  intro all
  have silent := all ⟨some [("access_token", "t")]⟩ {} "/rules/new"
    [.click addFilterButton, .click addFilterButton] removeButton
  revert silent
  decide +kernel

end Tab

end GrantConsole.Console
