import GrantConsole.Markup.Stray

/-!
# Shells of elements

What an element does when it is clicked depends on its place and on the tags, the listeners and the
fixed attributes of it and of the elements around it: on its shell and theirs. No shell changes when
a property is set somewhere in the document.
-/

namespace GrantConsole.Markup

variable {α β : Type}

/-- An attribute that shows no property of an input. -/
def Attribute.isFixed : Attribute → Bool
  | plain .. | flag .. => true
  | value _ | checked _ => false

/-- An element without what stands in it and without the properties that it shows. -/
def Node.shell : Node α → Node α
  | .text _ => .text ""
  | .element tag attributes listeners _ =>
    .element tag (attributes.filter Attribute.isFixed) listeners []

/-- An element at its place, of which only the shell is known, as of those around it. -/
def Spot.shell (s : Spot α) : Spot α :=
  ⟨s.path, s.chain.map Node.shell⟩

mutual
/-- The shells of all elements from a node on, in the order of the document. -/
def shellsOf (path : List Nat) (around : List (Node α)) : Node α → List (Spot α)
  | .text _ => []
  | .element tag attributes listeners children =>
    let shells := .element tag (attributes.filter Attribute.isFixed) listeners [] :: around
    ⟨path, shells⟩ :: shellsAmong path shells 0 children

/-- The shells of all elements among siblings, the first of which has an index. -/
def shellsAmong (path : List Nat) (around : List (Node α)) (index : Nat) :
    List (Node α) → List (Spot α)
  | [] => []
  | node :: nodes =>
    shellsOf (index :: path) around node ++ shellsAmong path around (index + 1) nodes
end

mutual
theorem map_shell_spotsOf (path : List Nat) (chain : List (Node α)) :
    ∀ n : Node α, (spotsOf path chain n).map Spot.shell = shellsOf path (chain.map Node.shell) n
  | .text _ => rfl
  | .element tag attributes listeners children => by
    rw [spotsOf, shellsOf, List.map_cons, map_shell_spotsAmong]
    rfl

theorem map_shell_spotsAmong (path : List Nat) (chain : List (Node α)) (index : Nat) :
    ∀ ns : List (Node α),
      (spotsAmong path chain index ns).map Spot.shell =
        shellsAmong path (chain.map Node.shell) index ns
  | [] => rfl
  | n :: ns => by
    rw [spotsAmong, shellsAmong, List.map_append, map_shell_spotsOf, map_shell_spotsAmong]
end

/-! ## What a shell tells -/

section Node

variable (n : Node α)

@[simp] theorem tag?_shell : n.shell.tag? = n.tag? := by
  cases n <;> rfl

@[simp] theorem isTag_shell (tag : String) : n.shell.isTag tag = n.isTag tag := by
  rw [Node.isTag, Node.isTag, tag?_shell]

@[simp] theorem listeners_shell : n.shell.listeners = n.listeners := by
  cases n <;> rfl

@[simp] theorem attribute?_shell (name : String) : n.shell.attribute? name = n.attribute? name := by
  cases n with
  | text s => rfl
  | element tag attributes listeners children =>
    simp only [Node.attribute?, Node.shell, Node.attributes]
    induction attributes with
    | nil => rfl
    | cons a attributes ih =>
      cases a <;> simp [List.filter_cons, Attribute.isFixed, List.findSome?_cons, ih]

@[simp] theorem hasFlag_shell (name : String) : n.shell.hasFlag name = n.hasFlag name := by
  cases n with
  | text s => rfl
  | element tag attributes listeners children =>
    simp only [Node.hasFlag, Node.shell, Node.attributes]
    induction attributes with
    | nil => rfl
    | cons a attributes ih => cases a <;> simp [List.filter_cons, Attribute.isFixed, ih]

@[simp] theorem isSubmitButton_shell : isSubmitButton n.shell = isSubmitButton n := by
  simp [isSubmitButton]

@[simp] theorem isInput_shell : Look.isInput n.shell = Look.isInput n := by
  simp [Look.isInput]

end Node

@[simp] theorem tags_shell (s : Spot α) : s.shell.tags = s.tags := by
  simp [Spot.tags, Spot.shell, Function.comp_def]

@[simp] theorem isDisabled_shell (s : Spot α) : s.shell.isDisabled = s.isDisabled := by
  obtain ⟨path, chain⟩ := s
  cases chain with
  | nil => rfl
  | cons n around => simp [Spot.isDisabled, Spot.shell, List.any_map, Function.comp_def]

theorem formChain_map_shell (chain : List (Node α)) :
    formChain (chain.map Node.shell) = (formChain chain).map (List.map Node.shell) := by
  induction chain with
  | nil => rfl
  | cons n around ih =>
    rw [List.map_cons, formChain, formChain, isTag_shell, ih]
    split <;> rfl

/-! ## Siblings -/

theorem shellsAmong_append (path : List Nat) (around : List (Node α)) (index : Nat)
    (ns others : List (Node α)) :
    shellsAmong path around index (ns ++ others) =
      shellsAmong path around index ns ++ shellsAmong path around (index + ns.length) others := by
  induction ns generalizing index with
  | nil => rfl
  | cons n ns ih =>
    rw [List.cons_append, shellsAmong, shellsAmong, ih, List.append_assoc, List.length_cons,
      Nat.add_assoc, Nat.add_comm 1]

/-- Siblings that are made of the numbers up to a count. -/
theorem shellsAmong_range (path : List Nat) (around : List (Node α)) (index : Nat)
    (row : Nat → Node α) (count : Nat) :
    shellsAmong path around index ((List.range count).map row) =
      (List.range count).flatMap fun i => shellsOf ((index + i) :: path) around (row i) := by
  induction count with
  | zero => rfl
  | succ count ih =>
    rw [List.range_succ, List.map_append, shellsAmong_append, ih, List.flatMap_append,
      List.length_map, List.length_range]
    simp [shellsAmong]

/-! ## Properties that are set -/

theorem shellsAmong_modify {change : Node α → Node α}
    (same : ∀ path around n, shellsOf path around (change n) = shellsOf path around n)
    (path : List Nat) (around : List (Node α)) (index : Nat) (ns : List (Node α)) (i : Nat) :
    shellsAmong path around index (ns.modify i change) = shellsAmong path around index ns := by
  induction ns generalizing index i with
  | nil => rw [List.modify_nil]
  | cons n ns ih =>
    cases i with
    | zero => rw [List.modify_zero_cons, shellsAmong, shellsAmong, same]
    | succ i => rw [List.modify_succ_cons, shellsAmong, shellsAmong, ih]

theorem shellsOf_adorn {a : Attribute} (loose : a.isFixed = false) (place path : List Nat)
    (around : List (Node α)) (n : Node α) :
    shellsOf path around (n.adorn a place) = shellsOf path around n := by
  induction place generalizing path around n with
  | nil =>
    cases n with
    | text s => rfl
    | element tag attributes listeners children =>
      have fixed : (if attributes.any a.sameProperty then attributes
          else attributes ++ [a]).filter Attribute.isFixed =
            attributes.filter Attribute.isFixed := by
        split
        · rfl
        · simp [loose]
      rw [Node.adorn, shellsOf, shellsOf, fixed]
  | cons i place ih =>
    cases n with
    | text s => rfl
    | element tag attributes listeners children =>
      rw [Node.adorn, shellsOf, shellsOf, shellsAmong_modify fun path around n => ih path around n]

theorem shellsOf_shownIn {strays : List Stray}
    (loose : ∀ stray ∈ strays, stray.property.isFixed = false) (path : List Nat)
    (around : List (Node α)) (root : Node α) :
    shellsOf path around (strays.foldl Stray.shownIn root) = shellsOf path around root := by
  induction strays generalizing root with
  | nil => rfl
  | cons stray strays ih =>
    obtain ⟨first, others⟩ := List.forall_mem_cons.mp loose
    rw [List.foldl_cons, ih others, Stray.shownIn, shellsOf_adorn first]

/-! ## Mapped documents -/

theorem mapAll_eq_map (f : α → β) (ns : List (Node α)) :
    Node.mapAll f ns = ns.map fun n => n.map f := by
  induction ns with
  | nil => simp [Node.mapAll]
  | cons n ns ih => simp [Node.mapAll, ih]

def Spot.map (f : α → β) (s : Spot α) : Spot β :=
  ⟨s.path, s.chain.map fun n => n.map f⟩

mutual
theorem shellsOf_map (f : α → β) (path : List Nat) (around : List (Node α)) :
    ∀ n : Node α, shellsOf path (around.map fun outer => outer.map f) (n.map f) =
      (shellsOf path around n).map (Spot.map f)
  | .text _ => by simp [Node.map, shellsOf]
  | .element tag attributes listeners children => by
    rw [Node.map, shellsOf, shellsOf, List.map_cons]
    have inside := shellsAmong_map f path
      (.element tag (attributes.filter Attribute.isFixed) listeners [] :: around) 0 children
    simp only [List.map_cons, Node.map, Node.mapAll] at inside
    rw [inside]
    simp [Spot.map, Node.map, Node.mapAll]

theorem shellsAmong_map (f : α → β) (path : List Nat) (around : List (Node α)) (index : Nat) :
    ∀ ns : List (Node α),
      shellsAmong path (around.map fun outer => outer.map f) index (Node.mapAll f ns) =
        (shellsAmong path around index ns).map (Spot.map f)
  | [] => by simp [Node.mapAll, shellsAmong]
  | n :: ns => by
    rw [Node.mapAll, shellsAmong, shellsAmong, List.map_append, shellsOf_map, shellsAmong_map]
end

/-! ## Buttons in forms -/

/-- A button that stands in a form. -/
def Spot.isFormButton (s : Spot α) : Bool :=
  match s.chain with
  | [] => false
  | n :: around => n.isTag "button" && around.any fun outer => outer.isTag "form"

@[simp] theorem isFormButton_shell (s : Spot α) : s.shell.isFormButton = s.isFormButton := by
  obtain ⟨path, chain⟩ := s
  cases chain with
  | nil => rfl
  | cons n around => simp [Spot.isFormButton, Spot.shell, List.any_map, Function.comp_def]

theorem isFormButton_eq_tags (s : Spot α) :
    s.isFormButton =
      (s.tags.head?.any (· == some "button") && s.tags.tail.any (· == some "form")) := by
  obtain ⟨path, chain⟩ := s
  cases chain with
  | nil => rfl
  | cons n around =>
    simp [Spot.isFormButton, Spot.tags, Node.isTag, List.any_map, Function.comp_def]

/-- The tags tell a button in a form. -/
theorem isFormButton_of_tags {s other : Spot α} (same : s.tags = other.tags) :
    s.isFormButton = other.isFormButton := by
  rw [isFormButton_eq_tags, isFormButton_eq_tags, same]

theorem isTag_map (f : α → β) (n : Node α) (tag : String) : (n.map f).isTag tag = n.isTag tag := by
  cases n <;> simp [Node.map, Node.isTag, Node.tag?]

theorem isFormButton_map (f : α → β) (s : Spot α) : (s.map f).isFormButton = s.isFormButton := by
  obtain ⟨path, chain⟩ := s
  cases chain with
  | nil => rfl
  | cons n around => simp [Spot.isFormButton, Spot.map, isTag_map, List.any_map, Function.comp_def]

mutual
/-- No element of a node has a tag. -/
def Node.lacks (tag : String) : Node α → Bool
  | .text _ => true
  | .element own _ _ children => own != tag && Node.lacksAmong tag children

def Node.lacksAmong (tag : String) : List (Node α) → Bool
  | [] => true
  | node :: nodes => node.lacks tag && Node.lacksAmong tag nodes
end

section Lacks

variable (tag : String)

theorem lacksAmong_iff {nodes : List (Node α)} :
    Node.lacksAmong tag nodes = true ↔ ∀ n ∈ nodes, n.lacks tag = true := by
  induction nodes with
  | nil => simp [Node.lacksAmong]
  | cons n nodes ih => simp [Node.lacksAmong, ih]

theorem lacksAmong_of_each {γ : Type} {node : γ → Node α}
    (each : ∀ c, (node c).lacks tag = true) (items : List γ) :
    Node.lacksAmong tag (items.map node) = true := by
  rw [lacksAmong_iff]
  intro n member
  obtain ⟨c, -, rfl⟩ := List.mem_map.mp member
  exact each c

mutual
theorem lacks_map (f : α → β) : ∀ n : Node α, (n.map f).lacks tag = n.lacks tag
  | .text _ => by simp [Node.map, Node.lacks]
  | .element own attributes listeners children => by
    rw [Node.map, Node.lacks, Node.lacks, lacksAmong_mapAll f children]

theorem lacksAmong_mapAll (f : α → β) :
    ∀ ns : List (Node α), Node.lacksAmong tag (Node.mapAll f ns) = Node.lacksAmong tag ns
  | [] => by simp [Node.mapAll, Node.lacksAmong]
  | n :: ns => by
    rw [Node.mapAll, Node.lacksAmong, Node.lacksAmong, lacks_map f n, lacksAmong_mapAll f ns]
end

theorem lacksAmong_modify {change : Node α → Node α}
    (same : ∀ n, (change n).lacks tag = n.lacks tag) (ns : List (Node α)) (i : Nat) :
    Node.lacksAmong tag (ns.modify i change) = Node.lacksAmong tag ns := by
  induction ns generalizing i with
  | nil => rw [List.modify_nil]
  | cons n ns ih =>
    cases i with
    | zero => rw [List.modify_zero_cons, Node.lacksAmong, Node.lacksAmong, same]
    | succ i => rw [List.modify_succ_cons, Node.lacksAmong, Node.lacksAmong, ih]

theorem lacks_adorn (a : Attribute) (place : List Nat) (n : Node α) :
    (n.adorn a place).lacks tag = n.lacks tag := by
  induction place generalizing n with
  | nil => cases n <;> rfl
  | cons i place ih =>
    cases n with
    | text s => rfl
    | element own attributes listeners children =>
      rw [Node.adorn, Node.lacks, Node.lacks, lacksAmong_modify tag ih]

/-- Properties that are set make no elements. -/
theorem lacks_shownIn (strays : List Stray) (root : Node α) :
    (strays.foldl Stray.shownIn root).lacks tag = root.lacks tag := by
  induction strays generalizing root with
  | nil => rfl
  | cons stray strays ih => rw [List.foldl_cons, ih, Stray.shownIn, lacks_adorn]

end Lacks

/-- An element inside of what is around, where none has a tag. -/
def Spot.PlainIn (tag : String) (around : List (Node α)) (s : Spot α) : Prop :=
  ∃ n inner, s.chain = n :: (inner ++ around) ∧ ∀ m ∈ n :: inner, m.isTag tag = false

section PlainIn

variable {tag : String}

mutual
theorem plainIn_of_lacks (path : List Nat) (around : List (Node α)) :
    ∀ n : Node α, n.lacks tag = true → ∀ s ∈ shellsOf path around n, s.PlainIn tag around
  | .text _, _, s, mem => by cases mem
  | .element own attributes listeners children, lacks, s, mem => by
    obtain ⟨other, inside⟩ := (Bool.and_eq_true _ _).mp lacks
    have plain : (Node.element own (attributes.filter Attribute.isFixed) listeners []).isTag
        tag = false := by
      simpa [Node.isTag, Node.tag?] using other
    rcases List.mem_cons.mp mem with rfl | mem
    · exact ⟨_, [], rfl, by simpa using plain⟩
    · obtain ⟨n, inner, chain, none⟩ := plainIn_of_lacksAmong path _ 0 children inside s mem
      refine ⟨n, inner ++ [.element own (attributes.filter Attribute.isFixed) listeners []], ?_, ?_⟩
      · rw [chain, List.append_assoc, List.singleton_append]
      · rw [← List.cons_append]
        exact List.forall_mem_append.mpr ⟨none, by simpa using plain⟩

theorem plainIn_of_lacksAmong (path : List Nat) (around : List (Node α)) (index : Nat) :
    ∀ ns : List (Node α), Node.lacksAmong tag ns = true →
      ∀ s ∈ shellsAmong path around index ns, s.PlainIn tag around
  | [], _, s, mem => by cases mem
  | n :: ns, lacks, s, mem => by
    obtain ⟨first, others⟩ := (Bool.and_eq_true _ _).mp lacks
    rcases List.mem_append.mp mem with here | there
    · exact plainIn_of_lacks _ around n first s here
    · exact plainIn_of_lacksAmong path around (index + 1) ns others s there
end

end PlainIn

section NoFormButton

variable {path : List Nat} {around : List (Node α)} {shells : List (Spot α)}

/-- Where there is no button, there is none in a form. -/
theorem noFormButton_of_no_button (plain : ∀ s ∈ shells, s.PlainIn "button" around) :
    shells.filter Spot.isFormButton = [] := by
  refine List.filter_eq_nil_iff.mpr fun s mem => ?_
  obtain ⟨n, inner, chain, none⟩ := plain s mem
  simp [Spot.isFormButton, chain, none n List.mem_cons_self]

/-- Where there is no form, no button is in one. -/
theorem noFormButton_of_no_form (outside : around.any (fun n => n.isTag "form") = false)
    (plain : ∀ s ∈ shells, s.PlainIn "form" around) : shells.filter Spot.isFormButton = [] := by
  refine List.filter_eq_nil_iff.mpr fun s mem => ?_
  obtain ⟨n, inner, chain, none⟩ := plain s mem
  have inside : inner.any (fun m => m.isTag "form") = false :=
    List.any_eq_false.mpr fun m here => by simp [none m (List.mem_cons_of_mem n here)]
  simp only [Spot.isFormButton, chain, List.any_append, inside, outside]
  simp

end NoFormButton

end GrantConsole.Markup
