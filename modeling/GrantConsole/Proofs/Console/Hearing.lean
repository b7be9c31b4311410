import GrantConsole.Console.Step

/-!
# What is heard

An event is heard by the listeners of its element and of the elements around it, as far as none of
them stops it. What a document offers is said control by control: a control is an element with
listeners of its own, and what it brings about depends on the listeners around it only. A property
of all controls of a document is a property of whatever any of its elements can bring about.
-/

namespace GrantConsole.Console

open GrantConsole.Markup

variable {α β : Type}

/-! ## Acts that are heard -/

/-- What a listener asks for when something happens. -/
def answered? (h : Tab.Happening) : Listener α → Option α
  | .on event act => if event = h.event then some act else none
  | .onEscape act => if h.event = .keydown ∧ h.key = "Escape" then some act else none
  | .stop _ => none

/-- A listener lets an event go on to the elements around. -/
def passes (h : Tab.Happening) : Listener α → Bool
  | .stop event => event != h.event
  | _ => true

/-- The acts that are asked for along the listeners of an element and of those around it. -/
def heard (h : Tab.Happening) : List (List (Listener α)) → List α
  | [] => []
  | ls :: around => ls.filterMap (answered? h) ++ if ls.all (passes h) then heard h around else []

/-- An element without listeners makes no difference. -/
@[simp] theorem heard_nil_cons (h : Tab.Happening) (around : List (List (Listener α))) :
    heard h ([] :: around) = heard h around := by
  simp [heard]

theorem heard_cons_congr {h : Tab.Happening} {around others : List (List (Listener α))}
    (same : heard h around = heard h others) (ls : List (Listener α)) :
    heard h (ls :: around) = heard h (ls :: others) := by
  simp only [heard, same]

/-- All clicks are heard alike, whatever their elements hold. -/
theorem heard_click {h other : Tab.Happening} (click : h.event = .click)
    (alike : other.event = .click) (lists : List (List (Listener α))) :
    heard h lists = heard other lists := by
  have answers : answered? (α := α) h = answered? other := by
    funext l
    cases l <;> simp [answered?, click, alike]
  have goesOn : passes (α := α) h = passes other := by
    funext l
    cases l <;> simp [passes, click, alike]
  induction lists with
  | nil => rfl
  | cons ls around ih => simp only [heard, answers, goesOn, ih]

section Map

variable (f : α → β)

@[simp] theorem answered?_map (h : Tab.Happening) (l : Listener α) :
    answered? h (l.map f) = (answered? h l).map f := by
  cases l with
  | stop event => rfl
  | _ => simp only [answered?, Listener.map]; split <;> rfl

@[simp] theorem passes_map (h : Tab.Happening) (l : Listener α) :
    passes h (l.map f) = passes h l := by
  cases l <;> rfl

/-- The listeners with every act mapped. -/
def mapListeners (ls : List (Listener α)) : List (Listener β) :=
  ls.map fun l => l.map f

theorem heard_map (h : Tab.Happening) (lists : List (List (Listener α))) :
    heard h (lists.map (mapListeners f)) = (heard h lists).map f := by
  induction lists with
  | nil => rfl
  | cons ls around ih =>
    have own : (mapListeners f ls).filterMap (answered? h) =
        (ls.filterMap (answered? h)).map f := by
      rw [mapListeners, List.filterMap_map, List.map_filterMap]
      congr 1
      funext l
      simp
    have goesOn : (mapListeners f ls).all (passes h) = ls.all (passes h) := by
      simp [mapListeners, List.all_map, Function.comp_def]
    rw [List.map_cons, heard, heard, own, goesOn, ih, List.map_append]
    split <;> rfl

end Map

namespace Tab

variable (h : Happening)

/-- What one element hears is done in the order of its listeners. -/
theorem hearAll_eq (tab : Tab) (ls : List (Listener Act)) :
    tab.hearAll h ls =
      ((ls.filterMap (answered? h)).foldl (fun tab a => tab.act a h.entry) tab,
        ls.all (passes h)) := by
  induction ls generalizing tab with
  | nil => rfl
  | cons l ls ih =>
    cases l with
    | on event act =>
      by_cases here : event = h.event <;> simp [hearAll, hear, ih, answered?, passes, here]
    | onEscape act =>
      by_cases here : h.event = .keydown ∧ h.key = "Escape" <;>
        simp [hearAll, hear, ih, answered?, passes, here]
    | stop event => simp [hearAll, hear, ih, answered?, passes, List.filterMap_cons]

/-- What is heard of an event is done, from the inside out. -/
theorem fire_eq (tab : Tab) (chain : List (Node Act)) :
    tab.fire h chain =
      (heard h (chain.map Node.listeners)).foldl (fun tab a => tab.act a h.entry) tab := by
  induction chain generalizing tab with
  | nil => rfl
  | cons n around ih =>
    rw [fire, hearAll_eq, List.map_cons, heard, List.foldl_append]
    dsimp only
    split
    · exact ih _
    · rfl

end Tab

/-! ## Controls of a document -/

/-- An element with listeners of its own. -/
structure Control (α : Type) where
  tag : String
  content : String
  listeners : List (Listener α)

def Control.map (f : α → β) (c : Control α) : Control β :=
  ⟨c.tag, c.content, mapListeners f c.listeners⟩

/-- A node is the element of a control. -/
inductive IsControl : Node α → Control α → Prop
  | element (tag : String) (attributes : List Attribute) (listeners : List (Listener α))
      (children : List (Node α)) :
      IsControl (.element tag attributes listeners children)
        ⟨tag, Node.contentAll children, listeners⟩

mutual
/-- Every control of a node has a property, given with the listeners around it. -/
def Every (P : Control α → List (List (Listener α)) → Prop) (around : List (List (Listener α))) :
    Node α → Prop
  | .text _ => True
  | .element _ _ [] children => EveryAmong P around children
  | .element tag _ (l :: ls) children =>
    P ⟨tag, Node.contentAll children, l :: ls⟩ around ∧
      EveryAmong P ((l :: ls) :: around) children

def EveryAmong (P : Control α → List (List (Listener α)) → Prop)
    (around : List (List (Listener α))) : List (Node α) → Prop
  | [] => True
  | node :: nodes => Every P around node ∧ EveryAmong P around nodes
end

section Every

variable {P : Control α → List (List (Listener α)) → Prop} {around : List (List (Listener α))}

theorem everyAmong_iff {nodes : List (Node α)} :
    EveryAmong P around nodes ↔ ∀ node ∈ nodes, Every P around node := by
  induction nodes with
  | nil => simp [EveryAmong]
  | cons node nodes ih => simp [EveryAmong, ih]

@[simp] theorem everyAmong_nil : EveryAmong P around [] := trivial

@[simp] theorem everyAmong_cons {node : Node α} {nodes : List (Node α)} :
    EveryAmong P around (node :: nodes) ↔ Every P around node ∧ EveryAmong P around nodes :=
  Iff.rfl

@[simp] theorem everyAmong_append {nodes others : List (Node α)} :
    EveryAmong P around (nodes ++ others) ↔
      EveryAmong P around nodes ∧ EveryAmong P around others := by
  simp only [everyAmong_iff, List.mem_append]
  constructor
  · intro each
    exact ⟨fun node here => each node (.inl here), fun node there => each node (.inr there)⟩
  · rintro ⟨here, there⟩ node (mem | mem)
    · exact here node mem
    · exact there node mem

@[simp] theorem every_text (s : String) : Every P around (.text s) := by
  simp [Every]

@[simp] theorem every_el (tag : String) (attributes : List Attribute) (children : List (Node α)) :
    Every P around (.el tag attributes children) ↔ EveryAmong P around children := by
  simp [Node.el, Every]

@[simp] theorem every_box (tag cls : String) (children : List (Node α)) :
    Every P around (.box tag cls children) ↔ EveryAmong P around children := by
  simp [Node.box, Every]

end Every

mutual
theorem Every.imp {P Q : Control α → List (List (Listener α)) → Prop}
    (weaker : ∀ c around, P c around → Q c around) :
    ∀ (around : List (List (Listener α))) (n : Node α), Every P around n → Every Q around n
  | _, .text _, _ => every_text _
  | around, .element _ _ [] children, every => by
    rw [Every] at every ⊢
    exact EveryAmong.imp weaker around children every
  | around, .element _ _ (l :: ls) children, every => by
    rw [Every] at every ⊢
    exact ⟨weaker _ _ every.1, EveryAmong.imp weaker _ children every.2⟩

theorem EveryAmong.imp {P Q : Control α → List (List (Listener α)) → Prop}
    (weaker : ∀ c around, P c around → Q c around) :
    ∀ (around : List (List (Listener α))) (ns : List (Node α)),
      EveryAmong P around ns → EveryAmong Q around ns
  | _, [], _ => everyAmong_nil
  | around, n :: ns, every =>
    ⟨Every.imp weaker around n every.1, EveryAmong.imp weaker around ns every.2⟩
end

/-! ## Documents that are mapped or adorned -/

section Content

mutual
theorem content_map (f : α → β) : ∀ n : Node α, (n.map f).content = n.content
  | .text _ => by simp [Node.map, Node.content]
  | .element _ _ _ children => by simp only [Node.map, Node.content, contentAll_mapAll f children]

theorem contentAll_mapAll (f : α → β) :
    ∀ ns : List (Node α), Node.contentAll (Node.mapAll f ns) = Node.contentAll ns
  | [] => by simp [Node.mapAll, Node.contentAll]
  | n :: ns => by
    simp only [Node.mapAll, Node.contentAll, content_map f n, contentAll_mapAll f ns]
end

theorem contentAll_modify {change : Node α → Node α}
    (same : ∀ n : Node α, (change n).content = n.content) (nodes : List (Node α)) (index : Nat) :
    Node.contentAll (nodes.modify index change) = Node.contentAll nodes := by
  induction nodes generalizing index with
  | nil => simp
  | cons n ns ih => cases index <;> simp [Node.contentAll, same, ih]

theorem content_adorn (a : Attribute) (path : List Nat) (n : Node α) :
    (n.adorn a path).content = n.content := by
  induction path generalizing n with
  | nil => cases n <;> simp [Node.adorn, Node.content]
  | cons i path ih =>
    cases n with
    | text s => simp [Node.adorn]
    | element tag attributes listeners children =>
      simp only [Node.adorn, Node.content]
      exact contentAll_modify ih children i

end Content

section Map

variable (f : α → β) (outer : List (List (Listener β)))
  {P : Control β → List (List (Listener β)) → Prop}

mutual
/-- A control of a mapped document is the image of a control. The document may stand in another. -/
theorem every_map : ∀ (around : List (List (Listener α))) (n : Node α),
    Every (fun c around => P (c.map f) (around.map (mapListeners f) ++ outer)) around n →
      Every P (around.map (mapListeners f) ++ outer) (n.map f)
  | _, .text _, _ => by simp [Node.map]
  | around, .element tag attributes [] children, every => by
    rw [Every] at every
    rw [Node.map, List.map_nil, Every]
    exact everyAmong_map around children every
  | around, .element tag attributes (l :: ls) children, every => by
    rw [Every] at every
    rw [Node.map, List.map_cons, Every, contentAll_mapAll]
    exact ⟨every.1, everyAmong_map ((l :: ls) :: around) children every.2⟩

theorem everyAmong_map : ∀ (around : List (List (Listener α))) (ns : List (Node α)),
    EveryAmong (fun c around => P (c.map f) (around.map (mapListeners f) ++ outer)) around ns →
      EveryAmong P (around.map (mapListeners f) ++ outer) (Node.mapAll f ns)
  | _, [], _ => by simp [Node.mapAll]
  | around, n :: ns, every => by
    rw [Node.mapAll]
    exact ⟨every_map around n every.1, everyAmong_map around ns every.2⟩
end

end Map

theorem everyAmong_modify {P : Control α → List (List (Listener α)) → Prop}
    {around : List (List (Listener α))} {change : Node α → Node α}
    (kept : ∀ n, Every P around n → Every P around (change n)) (nodes : List (Node α)) (index : Nat)
    (every : EveryAmong P around nodes) : EveryAmong P around (nodes.modify index change) := by
  induction nodes generalizing index with
  | nil => simp
  | cons n ns ih =>
    obtain ⟨first, others⟩ := every
    cases index with
    | zero => simpa using ⟨kept n first, others⟩
    | succ index => simpa using ⟨first, ih index others⟩

/-- A stray property changes no control. -/
theorem every_adorn {P : Control α → List (List (Listener α)) → Prop} (a : Attribute)
    (path : List Nat) {around : List (List (Listener α))} {n : Node α} (every : Every P around n) :
    Every P around (n.adorn a path) := by
  induction path generalizing around n with
  | nil =>
    cases n with
    | text s => exact every
    | element tag attributes listeners children =>
      cases listeners <;> simpa only [Node.adorn, Every] using every
  | cons i path ih =>
    cases n with
    | text s => exact every
    | element tag attributes listeners children =>
      have inside (around : List (List (Listener α))) (every : EveryAmong P around children) :
          EveryAmong P around (children.modify i fun n => n.adorn a path) :=
        everyAmong_modify (fun _ => ih) children i every
      cases listeners with
      | nil =>
        simp only [Node.adorn, Every] at every ⊢
        exact inside around every
      | cons l ls =>
        simp only [Node.adorn, Every, contentAll_modify (content_adorn a path)] at every ⊢
        exact ⟨every.1, inside _ every.2⟩

theorem every_shownIn {P : Control α → List (List (Listener α)) → Prop} (strays : List Stray)
    {around : List (List (Listener α))} {root : Node α} (every : Every P around root) :
    Every P around (strays.foldl Stray.shownIn root) := by
  induction strays generalizing root with
  | nil => exact every
  | cons stray strays ih => exact ih (every_adorn _ _ every)

/-! ## Every element of a document -/

/-- What an element and those around it bring about is what one control among them does. -/
def Voiced (P : Control α → List (List (Listener α)) → Prop) (chain : List (Node α)) : Prop :=
  (∀ h, heard h (chain.map Node.listeners) = []) ∨
    ∃ n ∈ chain, ∃ c around, IsControl n c ∧ P c around ∧
      ∀ h, heard h (chain.map Node.listeners) = heard h (c.listeners :: around)

/-- The elements around are known: they bring about what the listeners around do. -/
structure Surrounds (P : Control α → List (List (Listener α)) → Prop)
    (around : List (List (Listener α))) (chain : List (Node α)) : Prop where
  alike : ∀ h, heard h (chain.map Node.listeners) = heard h around
  voiced : ∀ outer, outer <:+ chain → Voiced P outer

namespace Surrounds

variable {P : Control α → List (List (Listener α)) → Prop} {around : List (List (Listener α))}
  {chain : List (Node α)}

theorem nil : Surrounds P [] ([] : List (Node α)) where
  alike _ := rfl
  voiced outer suffix := by
    rw [List.suffix_nil.mp suffix]
    exact .inl fun _ => rfl

/-- An element without listeners is surrounded like those in it. -/
theorem silent (surrounds : Surrounds P around chain) (tag : String)
    (attributes : List Attribute) (children : List (Node α)) :
    Surrounds P around (.element tag attributes [] children :: chain) where
  alike h := by simpa [Node.listeners] using surrounds.alike h
  voiced outer suffix := by
    rcases List.suffix_cons_iff.mp suffix with rfl | suffix
    · rcases surrounds.voiced chain (List.suffix_refl chain) with
        none | ⟨n, mem, c, at_, is, holds, same⟩
      · exact .inl fun h => by simpa [Node.listeners] using none h
      · exact .inr ⟨n, List.mem_cons_of_mem _ mem, c, at_, is, holds, fun h => by
          simpa [Node.listeners] using same h⟩
    · exact surrounds.voiced outer suffix

/-- A control stands around those in it. -/
theorem control (surrounds : Surrounds P around chain) (tag : String)
    (attributes : List Attribute) (listeners : List (Listener α)) (children : List (Node α))
    (holds : P ⟨tag, Node.contentAll children, listeners⟩ around) :
    Surrounds P (listeners :: around) (.element tag attributes listeners children :: chain) where
  alike h := heard_cons_congr (surrounds.alike h) listeners
  voiced outer suffix := by
    rcases List.suffix_cons_iff.mp suffix with rfl | suffix
    · exact .inr ⟨_, List.mem_cons_self, _, around, .element .., holds, fun h =>
        heard_cons_congr (surrounds.alike h) listeners⟩
    · exact surrounds.voiced outer suffix

mutual
theorem spotsOf_voiced {around : List (List (Listener α))} {chain : List (Node α)}
    (surrounds : Surrounds P around chain) (path : List Nat) :
    ∀ node : Node α, Every P around node →
      ∀ s ∈ spotsOf path chain node, ∀ outer, outer <:+ s.chain → Voiced P outer
  | .text _, _, s, mem => by simp [spotsOf] at mem
  | .element tag attributes [] children, every, s, mem => by
    rw [Every] at every
    have inside := surrounds.silent tag attributes children
    rcases List.mem_cons.mp mem with rfl | mem
    · exact inside.voiced
    · exact spotsAmong_voiced inside path 0 children every s mem
  | .element tag attributes (l :: ls) children, every, s, mem => by
    rw [Every] at every
    have inside := surrounds.control tag attributes (l :: ls) children every.1
    rcases List.mem_cons.mp mem with rfl | mem
    · exact inside.voiced
    · exact spotsAmong_voiced inside path 0 children every.2 s mem

theorem spotsAmong_voiced {around : List (List (Listener α))} {chain : List (Node α)}
    (surrounds : Surrounds P around chain) (path : List Nat) (index : Nat) :
    ∀ nodes : List (Node α), EveryAmong P around nodes →
      ∀ s ∈ spotsAmong path chain index nodes, ∀ outer, outer <:+ s.chain → Voiced P outer
  | [], _, s, mem => by simp [spotsAmong] at mem
  | node :: nodes, every, s, mem => by
    rw [spotsAmong] at mem
    rcases List.mem_append.mp mem with here | there
    · exact spotsOf_voiced surrounds (index :: path) node every.1 s here
    · exact spotsAmong_voiced surrounds path (index + 1) nodes every.2 s there
end

end Surrounds

/-- What holds of all controls of a document is said of each element and of what is around it. -/
theorem spots_voiced {P : Control α → List (List (Listener α)) → Prop} {body : List (Node α)}
    (every : EveryAmong P [] body) {s : Spot α} (mem : s ∈ spots body) {outer : List (Node α)}
    (suffix : outer <:+ s.chain) : Voiced P outer :=
  Surrounds.spotsAmong_voiced .nil [] 0 body every s mem outer suffix

end GrantConsole.Console
