import GrantConsole.Proofs.Host.Relayed
import GrantConsole.Proofs.Text.Trimmed
import Mathlib.Data.List.DropRight

/-!
# The address of the server

An address is trimmed, and then the slashes at its end are dropped. So an address that the host takes
starts with a scheme of the web and does not end in a slash, and relayed paths follow it with a
slash of their own. It is taken again as it is, unless a blank stood before the slashes: the blank
is then left at the end, and only another reading would take it away.
-/

namespace GrantConsole.Host

open GrantConsole.Text GrantConsole.Url

/-! ## Slashes at the end -/

theorem toList_dropSlashes (s : String) :
    (dropSlashes s).toList = s.toList.rdropWhile (· == '/') := by
  rw [dropSlashes, String.toList_ofList]
  rfl

/-- Slashes alone are dropped. -/
theorem exists_slashes (s : String) :
    ∃ slashes : List Char, (∀ c ∈ slashes, c = '/') ∧
      s.toList = (dropSlashes s).toList ++ slashes := by
  refine ⟨s.toList.rtakeWhile (· == '/'), fun c mem => ?_, ?_⟩
  · have slash := List.mem_rtakeWhile_imp mem
    exact eq_of_beq slash
  · rw [toList_dropSlashes, List.rdropWhile_append_rtakeWhile]

theorem last_dropSlashes (s : String) : ∀ c ∈ (dropSlashes s).toList.getLast?, c ≠ '/' := by
  rintro c last rfl
  rw [toList_dropSlashes] at last
  have some : s.toList.rdropWhile (· == '/') ≠ [] := by
    intro none
    rw [none] at last
    cases last
  rw [List.getLast?_eq_getLast_of_ne_nil some] at last
  exact List.rdropWhile_last_not _ _ some (beq_iff_eq.mpr (Option.some.inj last))

/-- What stands before the slashes at the end is left. -/
theorem toList_dropSlashes_of_append {s : String} {core slashes : List Char}
    (chars : s.toList = core ++ slashes) (each : ∀ c ∈ slashes, c = '/')
    (last : ∀ c ∈ core.getLast?, c ≠ '/') : (dropSlashes s).toList = core := by
  have back : ∀ c ∈ slashes.reverse, (c == '/') = true := fun c mem =>
    beq_iff_eq.mpr (each c (List.mem_reverse.mp mem))
  have stays : core.rdropWhile (· == '/') = core :=
    List.rdropWhile_eq_self_iff.mpr fun some => by
      simpa using last _ (List.getLast?_eq_getLast_of_ne_nil some)
  rw [toList_dropSlashes, chars, List.rdropWhile, List.reverse_append,
    List.dropWhile_append_of_pos back]
  exact stays

theorem dropSlashes_eq_self {s : String} (last : ∀ c ∈ s.toList.getLast?, c ≠ '/') :
    dropSlashes s = s :=
  String.toList_inj.mp
    (toList_dropSlashes_of_append (List.append_nil _).symm (List.forall_mem_nil _) last)

/-! ## Addresses that are taken -/

/-- The address has a scheme of the web. -/
def OfWeb (url : String) : Prop :=
  "http://".isPrefixOf url = true ∨ "https://".isPrefixOf url = true

theorem readBackend_eq_ok {raw : Option String} {url : String} :
    readBackend raw = .ok url ↔
      dropSlashes (trim (raw.getD defaultBackend)) = url ∧ OfWeb url := by
  unfold readBackend
  dsimp only
  constructor
  · intro read
    split at read
    · rename_i scheme
      have same := Except.ok.inj read
      exact ⟨same, same ▸ scheme⟩
    · cases read
  · rintro ⟨same, scheme⟩
    rw [same]
    exact if_pos scheme

theorem OfWeb.head? {url : String} (scheme : OfWeb url) : url.toList.head? = some 'h' := by
  rcases scheme with plain | secure
  · obtain ⟨rest, chars⟩ := String.startsWith_string_iff.mp plain
    rw [← chars]
    rfl
  · obtain ⟨rest, chars⟩ := String.startsWith_string_iff.mp secure
    rw [← chars]
    rfl

/-- A relayed request asks for a path under the start of the relay. -/
theorem prefix_of_isRelayed {target : Target} (relayed : isRelayed target = true) :
    relayStart.toList <+: (target.pathAndQuery.getD "").toList := by
  have under := (isRelayed_iff.mp relayed).1
  obtain ⟨pathAndQuery⟩ := target
  cases pathAndQuery with
  | none => exact absurd under (by decide)
  | some path =>
      simp only [Target.path] at under
      split at under
      · exact absurd under (by decide)
      · rw [String.toList_ofList] at under
        exact under.trans (List.takeWhile_prefix _)

/-! ## Blanks before the slashes -/

/-- At the end of the text a blank stands before slashes, with blanks alone after them. -/
def SpacedSlashes (s : String) : Prop :=
  ∃ front blank slashes after, isBlank blank = true ∧ slashes ≠ [] ∧ (∀ c ∈ slashes, c = '/') ∧
    Blank after ∧ s.toList = front ++ blank :: slashes ++ after

theorem isBlank_of_mem_slashes {slashes : List Char} (each : ∀ c ∈ slashes, c = '/') {c : Char}
    (mem : c ∈ slashes) : isBlank c = false := by
  rw [each c mem]
  rfl

/-- Without a character that is neither a blank nor a slash, nothing is left. -/
theorem dropSlashes_trim_of_blank {s : String} {front slashes after : List Char}
    (blank : Blank front) (each : ∀ c ∈ slashes, c = '/') (blank' : Blank after)
    (chars : s.toList = front ++ slashes ++ after) : dropSlashes (trim s) = "" := by
  have bare : Bare slashes :=
    ⟨fun c first => isBlank_of_mem_slashes each (List.mem_of_mem_head? first),
      fun c last => isBlank_of_mem_slashes each (List.mem_of_mem_getLast? last)⟩
  have trimmed : (trim s).toList = [] ++ slashes :=
    toList_trim_eq ⟨front, after, blank, blank', chars⟩ bare
  have nothing : ∀ c ∈ ([] : List Char).getLast?, c ≠ '/' :=
    fun c last => absurd last (Option.not_mem_none c)
  exact String.toList_inj.mp (toList_dropSlashes_of_append trimmed each nothing)

/-- With such a character, what is left goes from the first one that is no blank up to the slashes,
and a blank before the slashes is left as well. -/
theorem toList_dropSlashes_trim {s : String} {front slashes after : List Char} {blank : Char}
    (some : ¬ Blank front) (blank_ : isBlank blank = true) (some' : slashes ≠ [])
    (each : ∀ c ∈ slashes, c = '/') (blank' : Blank after)
    (chars : s.toList = front ++ blank :: slashes ++ after) :
    (dropSlashes (trim s)).toList = front.dropWhile isBlank ++ [blank] := by
  have inner : front.dropWhile isBlank ≠ [] := by
    rwa [Ne, List.dropWhile_eq_nil_iff]
  have bare : Bare (front.dropWhile isBlank ++ [blank] ++ slashes) := by
    constructor
    · intro c first
      rw [List.append_assoc, List.head?_append_of_ne_nil _ inner] at first
      have stops := List.head?_dropWhile_not isBlank front
      rwa [Option.mem_def.mp first] at stops
    · intro c last
      rw [List.getLast?_append_of_ne_nil _ some'] at last
      exact isBlank_of_mem_slashes each (List.mem_of_mem_getLast? last)
  have surrounded : Surrounded (front.dropWhile isBlank ++ [blank] ++ slashes) s.toList := by
    refine ⟨front.takeWhile isBlank, after, blank_takeWhile front, blank', ?_⟩
    rw [chars, ← List.append_assoc, ← List.append_assoc, List.takeWhile_append_dropWhile]
    simp
  refine toList_dropSlashes_of_append (toList_trim_eq surrounded bare) each ?_
  rw [List.getLast?_concat]
  rintro c same rfl
  cases same
  cases blank_

/-- A blank that stands before slashes at the end is the last character that is left. -/
theorem SpacedSlashes.last {raw : String} (spaced : SpacedSlashes raw)
    (some : dropSlashes (trim raw) ≠ "") :
    ∃ c ∈ (dropSlashes (trim raw)).toList.getLast?, isBlank c = true := by
  obtain ⟨front, blank, slashes, after, blank_, some', each, blank', chars⟩ := spaced
  by_cases all : Blank front
  · have blanks : Blank (front ++ [blank]) :=
      List.forall_mem_append.mpr ⟨all, List.forall_mem_singleton.mpr blank_⟩
    exact absurd (dropSlashes_trim_of_blank blanks each blank' (by simpa using chars)) some
  · have left := toList_dropSlashes_trim all blank_ some' each blank' chars
    exact ⟨blank, by rw [left, List.getLast?_concat]; rfl, blank_⟩

theorem spacedSlashes_of_last {raw : String} {c : Char}
    (last : c ∈ (dropSlashes (trim raw)).toList.getLast?) (blank : isBlank c = true) :
    SpacedSlashes raw := by
  obtain ⟨slashes, each, trimmed⟩ := exists_slashes (trim raw)
  obtain ⟨before, after, -, blank', chars⟩ := surrounded_trim raw
  have some : slashes ≠ [] := by
    rintro rfl
    rw [List.append_nil] at trimmed
    rw [← trimmed] at last
    cases ((bare_trim raw).last c last).symm.trans blank
  obtain ⟨front, left⟩ := List.getLast?_eq_some_iff.mp last
  refine ⟨before ++ front, c, slashes, after, blank, some, each, blank', ?_⟩
  rw [chars, trimmed, left]
  simp

/-- An address that ends in a blank is not taken as it is. -/
theorem dropSlashes_trim_ne_self {url : String} {c : Char} (last : c ∈ url.toList.getLast?)
    (blank : isBlank c = true) : dropSlashes (trim url) ≠ url := by
  intro same
  obtain ⟨slashes, -, trimmed⟩ := exists_slashes (trim url)
  obtain ⟨before, after, -, -, chars⟩ := surrounded_trim url
  rw [same] at trimmed
  -- Trimming makes nothing longer, so there were no slashes and nothing was cut off.
  have lengths := congrArg List.length chars
  rw [trimmed, List.length_append, List.length_append, List.length_append] at lengths
  have none : slashes = [] := List.eq_nil_of_length_eq_zero (by omega)
  rw [none, List.append_nil] at trimmed
  rw [← trimmed] at last
  cases ((bare_trim url).last c last).symm.trans blank

/-! ## The address that the host uses -/

/-- What the host makes of an address that it takes. -/
structure ReadsAddress (raw url : String) : Prop where
  scheme : OfWeb url
  first : ∀ c ∈ url.toList.head?, isBlank c = false
  last : ∀ c ∈ url.toList.getLast?, c ≠ '/'
  /-- The relay that is set up with the address uses it as it is. -/
  kept : relayAddress url = url
  /-- A relayed path follows the address with a slash of its own. -/
  joined : ∀ {method : String} {target : Target}, route method target = .relayed →
    ∃ path, targetUrl (relayAddress url) target = url ++ path ∧ relayStart.isPrefixOf path = true
  /-- A blank is left at the end where one stood before slashes at the end, and only there. -/
  blank : (∃ c ∈ url.toList.getLast?, isBlank c = true) ↔ SpacedSlashes raw
  /-- Everywhere else the address is taken again as it is. -/
  again : readBackend (some url) = .ok url ↔ ¬ SpacedSlashes raw

/-- An address that is taken is in its normal form, unless a blank stands before the slashes at its
end. -/
theorem address_normal_unless_spaced {raw : Option String} {url : String}
    (read : readBackend raw = .ok url) : ReadsAddress (raw.getD defaultBackend) url := by
  obtain ⟨left, scheme⟩ := readBackend_eq_ok.mp read
  have first : ∀ c ∈ url.toList.head?, isBlank c = false := by
    rw [scheme.head?]
    rintro c same
    cases same
    rfl
  have last : ∀ c ∈ url.toList.getLast?, c ≠ '/' := left ▸ last_dropSlashes _
  have kept : relayAddress url = url := dropSlashes_eq_self last
  have some : dropSlashes (trim (raw.getD defaultBackend)) ≠ "" := by
    rw [left]
    rintro rfl
    cases scheme.head?
  have blank : (∃ c ∈ url.toList.getLast?, isBlank c = true) ↔
      SpacedSlashes (raw.getD defaultBackend) := by
    constructor
    · rintro ⟨c, last, blank⟩
      exact spacedSlashes_of_last (left.symm ▸ last) blank
    · intro spaced
      exact left ▸ spaced.last some
  refine ⟨scheme, first, last, kept, ?_, blank, ?_⟩
  · intro method target routed
    refine ⟨_, by rw [kept]; rfl, String.startsWith_string_iff.mpr ?_⟩
    exact prefix_of_isRelayed (route_eq_relayed_iff.mp routed)
  · rw [← blank, readBackend_eq_ok, Option.getD_some]
    constructor
    · rintro ⟨same, -⟩ ⟨c, last, blank⟩
      exact dropSlashes_trim_ne_self last blank same
    · intro clear
      have bare : Bare url.toList := ⟨first, fun c last => by
        rw [← Bool.not_eq_true]
        exact fun blank => clear ⟨c, last, blank⟩⟩
      rw [trim_of_bare bare]
      exact ⟨dropSlashes_eq_self last, scheme⟩

/-- Blanks around the address and slashes at its end are gone at once. -/
theorem address_normal_unless_spaced_base :
    let raw := " https://a.test/base// \t"
    let url := "https://a.test/base"
    let rules : Target := ⟨some "/api/v1/rules/?skip=0"⟩
    (readBackend (some raw) = .ok url ∧ route "GET" rules = .relayed) ∧ relayAddress url = url ∧
      readBackend (some url) = .ok url ∧
      ∃ path, targetUrl (relayAddress url) rules = url ++ path ∧
        relayStart.isPrefixOf path = true := by
  intro raw url rules
  have read : readBackend (some raw) = .ok url :=
    readBackend_eq_ok.mpr ⟨by decide, .inr (String.startsWith_string_iff.mpr (by decide))⟩
  have routed : route "GET" rules = .relayed :=
    route_eq_relayed_iff.mpr (isRelayed_iff.mpr (by decide))
  have address := address_normal_unless_spaced read
  refine ⟨⟨read, routed⟩, address.kept, address.again.mpr fun spaced => ?_, address.joined routed⟩
  obtain ⟨c, last, blank⟩ := address.blank.mpr spaced
  have ends : url.toList.getLast? = some 'e' := by decide
  cases ends.symm.trans (Option.mem_def.mp last)
  cases blank

/-- A blank before a slash is left at the end, and the next reading takes it away. -/
theorem address_not_normal :
    readBackend (some "http://a /") = .ok "http://a " ∧
      readBackend (some "http://a ") = .ok "http://a" := by
  constructor
  · exact readBackend_eq_ok.mpr ⟨by decide, .inl (String.startsWith_string_iff.mpr (by decide))⟩
  · exact readBackend_eq_ok.mpr ⟨by decide, .inl (String.startsWith_string_iff.mpr (by decide))⟩

end GrantConsole.Host
