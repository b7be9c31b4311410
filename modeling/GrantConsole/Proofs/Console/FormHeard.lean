import GrantConsole.Proofs.Console.Document
import GrantConsole.Proofs.Console.Strays
import GrantConsole.Proofs.Screen.FormControls

/-!
# What is heard in the form of a rule

Whatever an operator does on the page of a rule, an edit is heard only from a control of the form,
which is disabled while a submit is in flight, or from what stands in one. The form itself hears
nothing but that it is submitted.
-/

namespace GrantConsole.Console

open GrantConsole.Markup GrantConsole.Screen

/-! ## What is heard comes from a handle -/

section Heard

variable {α : Type} {h : Tab.Happening} {a : α}

theorem mem_heard {lists : List (List (Listener α))} (hears : a ∈ heard h lists) :
    ∃ ls ∈ lists, ∃ l ∈ ls, answered? h l = some a := by
  induction lists with
  | nil => cases hears
  | cons ls around ih =>
    rcases List.mem_append.mp hears with here | there
    · exact ⟨ls, List.mem_cons_self, List.mem_filterMap.mp here⟩
    · split at there
      · obtain ⟨outer, mem, answers⟩ := ih there
        exact ⟨outer, List.mem_cons_of_mem ls mem, answers⟩
      · cases there

theorem answered?_on {event : Event} {act : α} :
    answered? h (.on event act) = some a ↔ event = h.event ∧ act = a := by
  simp [answered?]

/-- What an element brings about is asked for by a handle, which it is or stands in. -/
theorem handle_of_heard {path : List Nat} {n : Node α} {s : Spot α} (mem : s ∈ spotsOf path [] n)
    (hears : a ∈ heard h (s.chain.map Node.listeners)) :
    ∃ t ∈ spotsOf path [] n, t.chain <:+ s.chain ∧
      ∃ own ∈ n.handles false, t.handle? = some own ∧
        ∃ l ∈ own.listeners, answered? h l = some a := by
  obtain ⟨_, listed, l, listens, answers⟩ := mem_heard hears
  obtain ⟨m, inChain, rfl⟩ := List.mem_map.mp listed
  obtain ⟨inner, around, split⟩ := List.append_of_mem inChain
  have suffix : m :: around <:+ s.chain := ⟨inner, split.symm⟩
  rcases suffix_spotsOf path [] n s mem _ suffix with outside | ⟨t, among, same⟩
  · cases List.suffix_nil.mp outside
  · obtain ⟨own, is, same'⟩ :=
      handle?_of_listens (List.ne_nil_of_mem listens) (around.any Node.freezes)
    rw [← same'] at listens
    have found : t.handle? = some own := by
      rw [Spot.handle?, same]
      exact is
    have listed : own ∈ n.handles false := by
      rw [← @List.any_nil _ Node.freezes, ← filterMap_handle?_spotsOf path [] n]
      exact List.mem_filterMap.mpr ⟨t, among, found⟩
    exact ⟨t, among, same ▸ suffix, own, listed, found, l, listens, answers⟩

end Heard

namespace Tab

variable {tab : Tab} {s : RuleEditor}

/-! ## The parts of the document -/

theorem handles_header (tab : Tab) : Node.handlesAmong false tab.header =
    if tab.chrome.visible then [⟨"button", false, [.on .click .signOut]⟩] else [] := by
  unfold header Chrome.header
  split <;> rfl

theorem handles_footer (tab : Tab) : Node.handlesAmong false tab.footer = [] := by
  unfold footer Chrome.footer
  split <;> rfl

theorem handles_toastHost (tab : Tab) : tab.toastHost.handles false =
    tab.toasts.queue.map fun toast => ⟨"button", false, [.on .click (.dismiss toast.id)]⟩ := by
  rw [toastHost, Widget.toastHost, handles_el false _ _ rfl rfl, handlesAmong_map,
    List.map_eq_flatMap]
  rfl

/-- The part of the document that the page is, with the properties that were set on it. -/
theorem handles_main (shown : tab.page = .ruleEditor s) (loose : tab.Loose) :
    tab.main.handles false =
      ((s.view.handles false).map (Handle.map Page.Act.ruleEditor)).map (Handle.map Act.page) := by
  have plain : tab.main.handles false = tab.plainMain.handles false := by
    have walk (n : Node Act) := filterMap_handle?_shellsOf [] [] n
    rw [List.any_nil] at walk
    rw [← walk, ← walk, main, shellsOf_shownIn loose]
  rw [plain, plainMain, handles_box false rfl rfl, handlesAmong_cons, handlesAmong_nil,
    List.append_nil, shown, Page.view, handles_map, handles_map]

/-! ## What is heard in the document -/

variable {h : Happening} {spot : Spot Act}

/-- An act of the page is heard from an element of the page. -/
theorem heard_aside_or_main (mem : spot ∈ spots tab.body) {a : Act}
    (hears : a ∈ heard h (spot.chain.map Node.listeners)) :
    (∀ asked, a ≠ .page asked) ∨ ∃ i, spot ∈ spotsOf [i] [] tab.main := by
  obtain ⟨n, part, i, inside⟩ := mem_spotsAmong mem
  obtain ⟨-, -, -, own, handle, -, l, listens, answers⟩ := handle_of_heard inside hears
  -- Around the page there are only buttons that do nothing to it.
  have aside (act : Act) (other : ∀ asked, act ≠ .page asked)
      (button : own = ⟨"button", false, [.on .click act]⟩) : ∀ asked, a ≠ .page asked := by
    rw [button] at listens
    cases List.mem_singleton.mp listens
    obtain ⟨-, rfl⟩ := answered?_on.mp answers
    exact other
  rcases List.mem_append.mp part with part | part
  · rcases List.mem_append.mp part with part | part
    · rcases List.mem_append.mp part with part | part
      · have listed := mem_handlesAmong false part handle
        rw [handles_header] at listed
        split at listed
        · exact .inl (aside .signOut nofun (List.mem_singleton.mp listed))
        · cases listed
      · cases List.mem_singleton.mp part
        exact .inr ⟨i, inside⟩
    · have listed := mem_handlesAmong false part handle
      rw [handles_footer] at listed
      cases listed
  · cases List.mem_singleton.mp part
    rw [handles_toastHost] at handle
    obtain ⟨toast, -, same⟩ := List.mem_map.mp handle
    exact .inl (aside (.dismiss toast.id) nofun same.symm)

variable (shown : tab.page = .ruleEditor s) (loose : tab.Loose)

include shown loose

/-- The controls of the page are those of its form. -/
theorem controls_main :
    (tab.main.handles false).filterMap Handle.control? =
      if s.isReady then
        (formControls s.draft.value.rule).map fun tag => (tag, s.draft.value.isSubmitting)
      else [] := by
  have same (handles : List (Handle RuleEditor.Act)) :
      ((handles.map (Handle.map Page.Act.ruleEditor)).map (Handle.map Act.page)).filterMap
        Handle.control? = handles.filterMap Handle.control? := by
    rw [List.filterMap_map, List.filterMap_map]
    rfl
  rw [handles_main shown loose, same, RuleEditor.handles_view]
  split
  · exact RuleEditor.controls_formHandles _
  · rfl

/-- Beside the form there are buttons only to sign out and to close toasts, which are always
enabled. -/
theorem controls_body :
    (spots tab.body).filterMap Spot.control? =
      (if tab.chrome.visible then [("button", false)] else []) ++
        (if s.isReady then
          (formControls s.draft.value.rule).map fun tag => (tag, s.draft.value.isSubmitting)
        else []) ++
        tab.toasts.queue.map fun _ => ("button", false) := by
  have header : (if tab.chrome.visible then
        [⟨"button", false, [.on .click .signOut]⟩] else ([] : List (Handle Act))).filterMap
        Handle.control? = if tab.chrome.visible then [("button", false)] else [] := by
    split <;> rfl
  have toasts : (tab.toasts.queue.map fun toast => (⟨"button", false,
        [.on .click (.dismiss toast.id)]⟩ : Handle Act)).filterMap Handle.control? =
      tab.toasts.queue.map fun _ => ("button", false) := by
    rw [List.filterMap_map, ← List.filterMap_eq_map]
    rfl
  rw [filterMap_control?_spots, body]
  simp only [handlesAmong_append, handlesAmong_cons, handlesAmong_nil, handles_header,
    handles_footer, handles_toastHost, List.filterMap_append, controls_main shown loose, header,
    toasts, List.append_nil]

/-- On the page of a rule it is heard that the form is submitted, or that a control of it is used;
the control is disabled while a submit is in flight. -/
theorem heard_main {i : Nat} (mem : spot ∈ spotsOf [i] [] tab.main) {asked : Page.Act}
    (hears : .page asked ∈ heard h (spot.chain.map Node.listeners)) :
    asked = .ruleEditor .submit ∧ h.event = .submit ∨
      (h.event = .click ∨ h.event = .input ∨ h.event = .change) ∧
        ∃ a, asked = .ruleEditor a ∧ ∃ t : Spot Act, t.chain <:+ spot.chain ∧
          t.isDisabled = s.draft.value.isSubmitting := by
  obtain ⟨t, -, suffix, own, handle, is, l, listens, answers⟩ := handle_of_heard mem hears
  rw [handles_main shown loose, RuleEditor.handles_view] at handle
  split at handle
  · obtain ⟨_, onPage, rfl⟩ := List.mem_map.mp handle
    obtain ⟨inForm, member, rfl⟩ := List.mem_map.mp onPage
    obtain ⟨_, outer, rfl⟩ := List.mem_map.mp listens
    obtain ⟨own, inner, rfl⟩ := List.mem_map.mp outer
    rw [answered?_map, answered?_map, Option.map_map] at answers
    obtain ⟨a, asks, same⟩ := Option.map_eq_some_iff.mp answers
    cases same
    rcases RuleEditor.mem_formHandles member with rfl | field
    · cases List.mem_singleton.mp inner
      obtain ⟨event, rfl⟩ := answered?_on.mp asks
      exact .inl ⟨rfl, event.symm⟩
    · refine .inr ⟨?_, a, rfl, t, suffix, ?_⟩
      · have used := List.all_eq_true.mp field.hears own inner
        cases own with
        | on event act =>
          rw [← (answered?_on.mp asks).1]
          cases event with
          | click => exact .inl rfl
          | input => exact .inr (.inl rfl)
          | change => exact .inr (.inr rfl)
          | submit | keydown => cases used
        | onEscape act | stop event => cases used
      · exact (Spot.disabled_of_handle? is field.control).2.trans field.disabled
  · cases handle

/-- A control of the page is disabled while a submit is in flight. -/
theorem isDisabled_main {i : Nat} (mem : spot ∈ spotsOf [i] [] tab.main)
    (control : spot.isControl = true) : spot.isDisabled = s.draft.value.isSubmitting := by
  obtain ⟨tag, is⟩ := Spot.control?_of_isControl control
  have listed := List.mem_filterMap.mpr ⟨spot, mem, is⟩
  rw [filterMap_control?_spotsOf, List.any_nil, controls_main shown loose] at listed
  split at listed
  · obtain ⟨_, -, same⟩ := List.mem_map.mp listed
    exact (congrArg Prod.snd same).symm
  · cases listed

/-- While a submit is in flight no edit is heard: what is disabled hears nothing. -/
theorem submit_of_heard (busy : s.draft.value.isSubmitting = true) (mem : spot ∈ spots tab.body)
    (exposed : spot.isExposed = true) (enabled : spot.isDisabled = false) {asked : Page.Act}
    (hears : .page asked ∈ heard h (spot.chain.map Node.listeners)) :
    asked = .ruleEditor .submit := by
  obtain ⟨i, inside⟩ := (heard_aside_or_main mem hears).resolve_left fun other => other asked rfl
  rcases heard_main shown loose inside hears with ⟨submit, -⟩ | ⟨-, -, -, t, suffix, disabled⟩
  · exact submit
  · rcases Bool.or_eq_true_iff.mp exposed with control | outside
    · have own := isDisabled_main shown loose inside control
      cases enabled.symm.trans (own.trans busy)
    · -- What stands in a disabled control is not exposed.
      have free := List.all_eq_true.mp outside t.chain ((List.mem_tails _ _).mpr suffix)
      have same : Spot.isDisabled ⟨spot.path, t.chain⟩ = t.isDisabled := rfl
      rw [same, disabled, busy] at free
      cases free

/-- Keys and submits of forms are no edits. -/
theorem submit_of_heard_event (other : h.event = .submit ∨ h.event = .keydown)
    (mem : spot ∈ spots tab.body) {asked : Page.Act}
    (hears : .page asked ∈ heard h (spot.chain.map Node.listeners)) :
    asked = .ruleEditor .submit := by
  obtain ⟨i, inside⟩ := (heard_aside_or_main mem hears).resolve_left fun other => other asked rfl
  rcases heard_main shown loose inside hears with ⟨submit, -⟩ | ⟨used, -⟩
  · exact submit
  · rcases other with other | other <;> simp [other] at used

end Tab

end GrantConsole.Console
