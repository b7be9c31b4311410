import Mathlib.Data.List.Infix
import GrantConsole.Proofs.Markup.Shell

/-!
# Controls and what listens

A control is an input, a drop-down, a text area or a button; it is disabled by itself or by a
disabled group around it. The handles of a document are its controls and the other elements that
listen: all that an operator can bring anything about with. They are listed by one walk that carries
along whether a group around is disabled.
-/

namespace GrantConsole.Markup

variable {α β : Type}

/-- An element that an operator fills in or presses. -/
def Node.isControl (n : Node α) : Bool :=
  Look.isInput n || n.isTag "button"

/-- A group that disables the controls in it. -/
def Node.freezes (n : Node α) : Bool :=
  n.isTag "fieldset" && n.hasFlag "disabled"

namespace Spot

def isControl (s : Spot α) : Bool :=
  s.chain.head?.any Node.isControl

/-- The element is a control itself, or stands in no disabled one. -/
def isExposed (s : Spot α) : Bool :=
  s.isControl || s.chain.tails.all fun outer => !isDisabled ⟨s.path, outer⟩

/-- The tag of a control, and whether it is disabled. -/
def control? (s : Spot α) : Option (String × Bool) :=
  if s.isControl then (s.chain.head?.bind Node.tag?).map fun tag => (tag, s.isDisabled) else none

end Spot

/-- A control, or another element that listens. -/
structure Handle (α : Type) where
  tag : String
  disabled : Bool
  listeners : List (Listener α)

namespace Handle

def isControl (h : Handle α) : Bool :=
  Node.isControl (.el h.tag [] [] : Node α)

def control? (h : Handle α) : Option (String × Bool) :=
  if h.isControl then some (h.tag, h.disabled) else none

def map (f : α → β) (h : Handle α) : Handle β :=
  ⟨h.tag, h.disabled, h.listeners.map fun l => l.map f⟩

end Handle

/-- The handle that an element is, if it is one. -/
def Node.handle? (frozen : Bool) : Node α → Option (Handle α)
  | .text _ => none
  | .element tag attributes listeners children =>
    let n : Node α := .element tag attributes listeners children
    if n.isControl || !listeners.isEmpty then
      some ⟨tag, n.isControl && (n.hasFlag "disabled" || frozen), listeners⟩
    else none

def Spot.handle? (s : Spot α) : Option (Handle α) :=
  match s.chain with
  | [] => none
  | n :: around => n.handle? (around.any Node.freezes)

mutual
/-- All handles from a node on, in the order of the document. -/
def Node.handles (frozen : Bool) : Node α → List (Handle α)
  | .text _ => []
  | .element tag attributes listeners children =>
    let n : Node α := .element tag attributes listeners []
    (n.handle? frozen).toList ++ Node.handlesAmong (n.freezes || frozen) children

def Node.handlesAmong (frozen : Bool) : List (Node α) → List (Handle α)
  | [] => []
  | node :: nodes => node.handles frozen ++ Node.handlesAmong frozen nodes
end

/-! ## Shells -/

@[simp] theorem isControl_shell (n : Node α) : n.shell.isControl = n.isControl := by
  simp [Node.isControl]

@[simp] theorem freezes_shell (n : Node α) : n.shell.freezes = n.freezes := by
  simp [Node.freezes]

@[simp] theorem handle?_shell (frozen : Bool) (n : Node α) :
    n.shell.handle? frozen = n.handle? frozen := by
  cases n with
  | text s => rfl
  | element tag attributes listeners children =>
    have control := isControl_shell (.element tag attributes listeners children)
    have flag := hasFlag_shell (.element tag attributes listeners children) "disabled"
    simp only [Node.shell] at control flag
    simp only [Node.shell, Node.handle?, control, flag]

theorem Spot.handle?_shell (s : Spot α) : s.shell.handle? = s.handle? := by
  obtain ⟨path, chain⟩ := s
  cases chain with
  | nil => rfl
  | cons n around =>
    simp [Spot.handle?, Spot.shell, List.any_map, Function.comp_def]

mutual
theorem filterMap_handle?_shellsOf (path : List Nat) (around : List (Node α)) :
    ∀ n : Node α, (shellsOf path around n).filterMap Spot.handle? =
      n.handles (around.any Node.freezes)
  | .text _ => rfl
  | .element tag attributes listeners children => by
    have shell : (Node.element tag attributes listeners []).shell =
        .element tag (attributes.filter Attribute.isFixed) listeners [] := rfl
    rw [shellsOf, Node.handles, ← shell, List.filterMap_cons, filterMap_handle?_shellsAmong,
      List.any_cons, freezes_shell]
    simp only [Spot.handle?, handle?_shell]
    cases (Node.element tag attributes listeners []).handle? (around.any Node.freezes) <;> rfl

theorem filterMap_handle?_shellsAmong (path : List Nat) (around : List (Node α)) (index : Nat) :
    ∀ ns : List (Node α), (shellsAmong path around index ns).filterMap Spot.handle? =
      Node.handlesAmong (around.any Node.freezes) ns
  | [] => rfl
  | n :: ns => by
    rw [shellsAmong, Node.handlesAmong, List.filterMap_append, filterMap_handle?_shellsOf,
      filterMap_handle?_shellsAmong]
end

theorem filterMap_handle?_map_shell (spots : List (Spot α)) :
    (spots.map Spot.shell).filterMap Spot.handle? = spots.filterMap Spot.handle? := by
  rw [List.filterMap_map]
  exact congrArg (fun f => spots.filterMap f) (funext Spot.handle?_shell)

/-- The elements from a node on that are handles. -/
theorem filterMap_handle?_spotsOf (path : List Nat) (chain : List (Node α)) (n : Node α) :
    (spotsOf path chain n).filterMap Spot.handle? = n.handles (chain.any Node.freezes) := by
  have outer : (chain.map Node.shell).any Node.freezes = chain.any Node.freezes := by
    simp [List.any_map, Function.comp_def]
  rw [← filterMap_handle?_map_shell, map_shell_spotsOf, filterMap_handle?_shellsOf, outer]

/-- What listens is a handle. -/
theorem handle?_of_listens {n : Node α} (listens : n.listeners ≠ []) (frozen : Bool) :
    ∃ own, n.handle? frozen = some own ∧ own.listeners = n.listeners := by
  cases n with
  | text s => exact absurd rfl listens
  | element tag attributes listeners children =>
    have some : listeners.isEmpty = false := List.isEmpty_eq_false_iff.mpr listens
    simp only [Node.handle?, some, Bool.not_false, Bool.or_true, if_true]
    exact ⟨_, rfl, rfl⟩

/-! ## Controls -/

/-- The tag tells whether an element is a control. -/
theorem Handle.isControl_eq {h : Handle α} {n : Node α} (same : n.tag? = some h.tag) :
    h.isControl = n.isControl := by
  simp only [Handle.isControl, Node.isControl, Look.isInput, Node.isTag, same]
  rfl

/-- The controls are those of the handles. -/
theorem Spot.control?_eq (s : Spot α) : s.control? = s.handle?.bind Handle.control? := by
  obtain ⟨path, chain⟩ := s
  rcases chain with - | ⟨n, around⟩
  · rfl
  · cases n with
    | text s => rfl
    | element tag attributes listeners children =>
      let n : Node α := .element tag attributes listeners children
      have disabled : Spot.isDisabled ⟨path, n :: around⟩ =
          (n.isControl && (n.hasFlag "disabled" || around.any Node.freezes)) := rfl
      have own (disabled : Bool) : Handle.isControl ⟨tag, disabled, listeners⟩ = n.isControl :=
        Handle.isControl_eq rfl
      show (if n.isControl then (some tag).map fun tag => (tag, Spot.isDisabled ⟨path, n :: around⟩)
          else none) =
        Option.bind (if n.isControl || !listeners.isEmpty then
          some ⟨tag, n.isControl && (n.hasFlag "disabled" || around.any Node.freezes), listeners⟩
          else none) Handle.control?
      rw [disabled]
      cases control : n.isControl with
      | false => cases listeners.isEmpty <;> simp [Handle.control?, own, control]
      | true => simp [Handle.control?, own, control]

theorem Spot.control?_of_isControl {s : Spot α} (control : s.isControl = true) :
    ∃ tag, s.control? = some (tag, s.isDisabled) := by
  obtain ⟨path, chain⟩ := s
  rcases chain with - | ⟨n, around⟩
  · cases control
  · cases n with
    | text s => cases control
    | element tag attributes listeners children =>
      rw [Spot.control?, if_pos control]
      exact ⟨tag, rfl⟩

/-- An element that is a handle and a control is disabled if its handle says so. -/
theorem Spot.disabled_of_handle? {s : Spot α} {h : Handle α} (is : s.handle? = some h)
    (control : h.isControl = true) : s.isControl = true ∧ s.isDisabled = h.disabled := by
  have same := s.control?_eq
  rw [is, Option.bind_some, Handle.control?, if_pos control, Spot.control?] at same
  split at same
  · rename_i own
    obtain ⟨tag, -, pair⟩ := Option.map_eq_some_iff.mp same
    exact ⟨own, congrArg Prod.snd pair⟩
  · cases same

theorem filterMap_control? (spots : List (Spot α)) :
    spots.filterMap Spot.control? =
      (spots.filterMap Spot.handle?).filterMap Handle.control? := by
  rw [List.filterMap_filterMap]
  exact congrArg (fun f => spots.filterMap f) (funext Spot.control?_eq)

theorem filterMap_control?_spotsOf (path : List Nat) (chain : List (Node α)) (n : Node α) :
    (spotsOf path chain n).filterMap Spot.control? =
      (n.handles (chain.any Node.freezes)).filterMap Handle.control? := by
  rw [filterMap_control?, filterMap_handle?_spotsOf]

/-- The controls of a document are those of its nodes, one after the other. -/
theorem filterMap_control?_spots (body : List (Node α)) :
    (spots body).filterMap Spot.control? =
      (Node.handlesAmong false body).filterMap Handle.control? := by
  have walk := filterMap_handle?_shellsAmong [] [] 0 body
  rw [List.any_nil] at walk
  rw [filterMap_control?, ← walk, ← filterMap_handle?_map_shell, spots, map_shell_spotsAmong]
  rfl

/-! ## Documents made of parts -/

section Handles

variable (frozen : Bool)

@[simp] theorem handles_text (s : String) : (Node.text s : Node α).handles frozen = [] := by
  rw [Node.handles]

@[simp] theorem handlesAmong_nil : Node.handlesAmong frozen ([] : List (Node α)) = [] := by
  rw [Node.handlesAmong]

@[simp] theorem handlesAmong_cons (n : Node α) (ns : List (Node α)) :
    Node.handlesAmong frozen (n :: ns) = n.handles frozen ++ Node.handlesAmong frozen ns := by
  rw [Node.handlesAmong]

@[simp] theorem handlesAmong_append (ns others : List (Node α)) :
    Node.handlesAmong frozen (ns ++ others) =
      Node.handlesAmong frozen ns ++ Node.handlesAmong frozen others := by
  induction ns with
  | nil => simp
  | cons n ns ih => simp [ih]

theorem handlesAmong_map {γ : Type} (node : γ → Node α) (items : List γ) :
    Node.handlesAmong frozen (items.map node) =
      items.flatMap fun item => (node item).handles frozen := by
  induction items with
  | nil => simp
  | cons item items ih => simp [ih]

theorem mem_handlesAmong {n : Node α} {ns : List (Node α)} (mem : n ∈ ns) {own : Handle α}
    (handle : own ∈ n.handles frozen) : own ∈ Node.handlesAmong frozen ns := by
  have all := handlesAmong_map frozen id ns
  rw [List.map_id] at all
  rw [all]
  exact List.mem_flatMap.mpr ⟨n, mem, handle⟩

/-- A control is all that there is to it if nothing in it listens. -/
theorem handles_control {tag : String} {attributes : List Attribute}
    {listeners : List (Listener α)} {children : List (Node α)}
    (control : (Node.element tag attributes listeners []).isControl = true)
    (silent : ∀ frozen, Node.handlesAmong frozen children = []) :
    (Node.element tag attributes listeners children).handles frozen =
      [⟨tag, (Node.element tag attributes listeners []).hasFlag "disabled" || frozen,
        listeners⟩] := by
  rw [Node.handles, silent, List.append_nil]
  simp [Node.handle?, control]

/-- An element that is no control, no group and does not listen adds nothing to what is in it. -/
theorem handles_el {tag : String} (attributes : List Attribute) (children : List (Node α))
    (plain : (Node.el tag [] [] : Node α).isControl = false)
    (free : (Node.el tag [] [] : Node α).isTag "fieldset" = false) :
    (Node.el tag attributes children).handles frozen = Node.handlesAmong frozen children := by
  have control : (Node.element tag attributes [] [] : Node α).isControl = false := plain
  have group : (Node.element tag attributes [] [] : Node α).isTag "fieldset" = false := free
  have freezes : (Node.element tag attributes [] [] : Node α).freezes = false := by
    rw [Node.freezes, group, Bool.false_and]
  rw [Node.el, Node.handles, freezes, Bool.false_or]
  simp [Node.handle?, control]

theorem handles_box {tag cls : String} {children : List (Node α)}
    (plain : (Node.el tag [] [] : Node α).isControl = false)
    (free : (Node.el tag [] [] : Node α).isTag "fieldset" = false) :
    (Node.box tag cls children).handles frozen = Node.handlesAmong frozen children :=
  handles_el frozen [.cls cls] children plain free

@[simp] theorem handles_map_listener (f : α → β) (n : Node α) :
    (n.map f).handle? frozen = (n.handle? frozen).map (Handle.map f) := by
  cases n with
  | text s => simp [Node.map, Node.handle?]
  | element tag attributes listeners children =>
    have control : (Node.element tag attributes (listeners.map fun l => l.map f)
        (Node.mapAll f children)).isControl =
          (Node.element tag attributes listeners children).isControl := rfl
    have flag : (Node.element tag attributes (listeners.map fun l => l.map f)
        (Node.mapAll f children)).hasFlag "disabled" =
          (Node.element tag attributes listeners children).hasFlag "disabled" := rfl
    simp only [Node.map, Node.handle?, control, flag, List.isEmpty_map]
    split <;> rfl

mutual
theorem handles_map (f : α → β) : ∀ (frozen : Bool) (n : Node α),
    (n.map f).handles frozen = (n.handles frozen).map (Handle.map f)
  | _, .text _ => by simp [Node.map]
  | frozen, .element tag attributes listeners children => by
    have own := handles_map_listener frozen f (.element tag attributes listeners [])
    have freezes : (Node.element tag attributes (listeners.map fun l => l.map f) []).freezes =
        (Node.element tag attributes listeners []).freezes := rfl
    simp only [Node.map, Node.mapAll] at own
    rw [Node.map, Node.handles, Node.handles, own, freezes, handlesAmong_mapAll, List.map_append,
      Option.toList_map]

theorem handlesAmong_mapAll (f : α → β) : ∀ (frozen : Bool) (ns : List (Node α)),
    Node.handlesAmong frozen (Node.mapAll f ns) =
      (Node.handlesAmong frozen ns).map (Handle.map f)
  | _, [] => by simp [Node.mapAll]
  | frozen, n :: ns => by
    rw [Node.mapAll, handlesAmong_cons, handlesAmong_cons, handles_map, handlesAmong_mapAll,
      List.map_append]
end

end Handles

/-! ## What stands around an element -/

mutual
/-- The elements around an element are elements of the document themselves. -/
theorem suffix_spotsOf (path : List Nat) (chain : List (Node α)) :
    ∀ (n : Node α), ∀ s ∈ spotsOf path chain n, ∀ outer, outer <:+ s.chain →
      outer <:+ chain ∨ ∃ t ∈ spotsOf path chain n, t.chain = outer
  | .text _, s, mem, _, _ => by simp [spotsOf] at mem
  | .element tag attributes listeners children, s, mem, outer, suffix => by
    have here (outer : List (Node α))
        (suffix : outer <:+ .element tag attributes listeners children :: chain) :
        outer <:+ chain ∨
          ∃ t ∈ spotsOf path chain (.element tag attributes listeners children),
            t.chain = outer := by
      rcases List.suffix_cons_iff.mp suffix with rfl | suffix
      · exact .inr ⟨_, List.mem_cons_self, rfl⟩
      · exact .inl suffix
    rcases List.mem_cons.mp mem with rfl | mem
    · exact here outer suffix
    · rcases suffix_spotsAmong path _ 0 children s mem outer suffix with suffix | ⟨t, mem, same⟩
      · exact here outer suffix
      · exact .inr ⟨t, List.mem_cons_of_mem _ mem, same⟩

theorem suffix_spotsAmong (path : List Nat) (chain : List (Node α)) (index : Nat) :
    ∀ (ns : List (Node α)), ∀ s ∈ spotsAmong path chain index ns, ∀ outer, outer <:+ s.chain →
      outer <:+ chain ∨ ∃ t ∈ spotsAmong path chain index ns, t.chain = outer
  | [], s, mem, _, _ => by simp [spotsAmong] at mem
  | n :: ns, s, mem, outer, suffix => by
    rw [spotsAmong] at mem ⊢
    rcases List.mem_append.mp mem with mem | mem
    · rcases suffix_spotsOf _ chain n s mem outer suffix with suffix | ⟨t, mem, same⟩
      · exact .inl suffix
      · exact .inr ⟨t, List.mem_append_left _ mem, same⟩
    · rcases suffix_spotsAmong path chain (index + 1) ns s mem outer suffix with
        suffix | ⟨t, mem, same⟩
      · exact .inl suffix
      · exact .inr ⟨t, List.mem_append_right _ mem, same⟩
end

/-- An element among siblings is in one of them. -/
theorem mem_spotsAmong {path : List Nat} {chain : List (Node α)} {index : Nat} {ns : List (Node α)}
    {s : Spot α} (mem : s ∈ spotsAmong path chain index ns) :
    ∃ n ∈ ns, ∃ i, s ∈ spotsOf (i :: path) chain n := by
  induction ns generalizing index with
  | nil => simp [spotsAmong] at mem
  | cons n ns ih =>
    rcases List.mem_append.mp mem with here | there
    · exact ⟨n, List.mem_cons_self, index, here⟩
    · obtain ⟨m, among, inside⟩ := ih there
      exact ⟨m, List.mem_cons_of_mem n among, inside⟩

end GrantConsole.Markup
