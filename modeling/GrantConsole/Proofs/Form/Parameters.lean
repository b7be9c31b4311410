import GrantConsole.Form.Basic
import GrantConsole.Proofs.Api.Addresses
import GrantConsole.Proofs.Api.Call
import GrantConsole.Proofs.Json.Reread
import GrantConsole.Proofs.Text.Trimmed

/-!
# Template parameters on their way

Template parameters are a JSON object, or blank text for the empty one. They go out in the query of
the URL under which a rule is made from a template, next to the grant and the template in its path.
All three can be told from that URL, and the text in it is taken as the same parameters again, if it
is legible.
-/

namespace GrantConsole.Json

/-- Where an object is read there is a brace. -/
theorem start_of_object {value : String → Except Fault Json} {depth : Nat} {cs rest : List Char}
    {members : List (String × Json)}
    (read : readWith value depth cs = .ok (.object members, rest)) :
    ∃ body, skipSpace cs = '{' :: body := by
  have free := freeValue_of_readWith read
  generalize skipSpace cs = text at free ⊢
  generalize same : Json.object members = v at free
  cases free with
  | object plain object => exact ⟨_, rfl⟩
  | embedded next read => exact ⟨_, rfl⟩
  | @negative _ _ _ n number => cases n <;> cases same
  | @digits _ _ _ _ n digit number => cases n <;> cases same
  | _ => cases same

/-- No blank text is an object. -/
theorem parse_blank_ne_object {s : String} (blank : Text.Blank s.toList)
    (members : List (String × Json)) : parse s ≠ .ok (.object members) := by
  intro parsed
  obtain ⟨⟨v, rest⟩, read, ended⟩ := bind_eq_ok.mp parsed
  obtain ⟨_, -, same⟩ := bind_eq_ok.mp ended
  cases same
  obtain ⟨body, start⟩ := start_of_object read
  have brace : '{' ∈ skipSpace s.toList := start ▸ List.mem_cons_self
  have dark := blank _ ((List.dropWhile_sublist _).subset brace)
  exact absurd dark (by decide)

end GrantConsole.Json

namespace GrantConsole

open GrantConsole.Api GrantConsole.Json GrantConsole.Text GrantConsole.Url

variable {raw : String} {v : Json}

/-- Parameters are blank text or the text of an object. -/
theorem readParameters_eq_ok : readParameters raw = .ok v ↔
    Blank raw.toList ∧ v = .object [] ∨
      Json.parse raw = .ok v ∧ ∃ members, v = .object members := by
  rw [← isBlankText_iff]
  unfold readParameters
  cases blank : isBlankText raw with
  | true =>
    have unread := parse_blank_ne_object ((isBlankText_iff raw).mp blank)
    rw [if_pos rfl, Except.ok.injEq]
    constructor
    · exact fun same => .inl ⟨rfl, same.symm⟩
    · rintro (⟨-, same⟩ | ⟨parsed, members, rfl⟩)
      · exact same.symm
      · exact absurd parsed (unread members)
  | false =>
    rw [if_neg Bool.false_ne_true]
    constructor
    · intro read
      split at read
      · rename_i members parsed
        cases read
        exact .inr ⟨parsed, members, rfl⟩
      all_goals cases read
    · rintro (⟨wrong, -⟩ | ⟨parsed, members, rfl⟩)
      · cases wrong
      · rw [parsed]

/-- Legible parameters are read again from their own text. -/
theorem readParameters_compact (read : readParameters raw = .ok v)
    (legible : Legible depthLimit v) : readParameters v.compact = .ok v := by
  rw [readParameters_eq_ok]
  rcases readParameters_eq_ok.mp read with ⟨-, rfl⟩ | ⟨parsed, members, rfl⟩
  · exact .inr ⟨rfl, [], rfl⟩
  · exact .inr ⟨parse_compact_of_legible parsed legible, members, rfl⟩

/-! ## The URL -/

/-- What a URL tells of the rule that is to be made: the grant and the template in the segments of
its path, and a single pair whose text is read as the parameters, if they are legible. -/
def TellsTemplate (grant template : String) (v : Json) (url : String) : Prop :=
  ∃ path text, readAsked url = some (path, [("kwargs", text)]) ∧
    (piecesAt '/' path).mapM decode? =
      some ["", "api", "v1", "rules", "grant", grant, "template", template] ∧
    (Legible depthLimit v → readParameters text = .ok v)

/-- Template parameters are accepted if they are blank or an object, and arrive as accepted. -/
structure ParametersArrive : Prop where
  accepted : ∀ raw v, readParameters raw = .ok v ↔
    Blank raw.toList ∧ v = .object [] ∨
      Json.parse raw = .ok v ∧ ∃ members, v = .object members
  told : ∀ raw v, readParameters raw = .ok v → ∀ grant template session request,
    (Operation.ruleFromTemplate grant template v).request? session = some request →
    TellsTemplate grant template v request.url

/-- No part of the path for a template starts a query. -/
theorem not_mem_ruleTemplate (grant template : String) :
    '?' ∉ (Endpoint.ruleTemplate grant template).toList := by
  have free (s : String) : '?' ∉ (encode s).toList := not_mem_encode (by decide) (by decide) s
  have start : '?' ∉ (basePath ++ "/rules/grant/").toList := by decide
  have middle : '?' ∉ "/template/".toList := by decide
  rw [Endpoint.ruleTemplate]
  simp only [String.toList_append, List.mem_append, not_or] at start ⊢
  exact ⟨⟨⟨start, free grant⟩, middle⟩, free template⟩

theorem decode_ruleTemplate (grant template : String) :
    (piecesAt '/' (Endpoint.ruleTemplate grant template)).mapM decode? =
      some ["", "api", "v1", "rules", "grant", grant, "template", template] := by
  have fixed : ["", "api", "v1", "rules", "grant", "template"].map decode? =
      ["", "api", "v1", "rules", "grant", "template"].map some := by decide
  simp only [List.map_cons, List.map_nil, List.cons.injEq, and_true] at fixed
  obtain ⟨empty, api, version, rules, grants, templates⟩ := fixed
  rw [Endpoint.piecesAt_ruleTemplate]
  simp only [List.mapM_cons, List.mapM_nil, empty, api, version, rules, grants, templates,
    decode?_encode]
  rfl

theorem asked_ruleFromTemplate (grant template : String) (v : Json) :
    readAsked (Operation.ruleFromTemplate grant template v).url =
      some (Endpoint.ruleTemplate grant template, [("kwargs", v.compact)]) := by
  refine readAsked_withQuery (not_mem_ruleTemplate grant template) nofun ?_
  rw [List.forall_mem_singleton]
  show PlainKey "kwargs"
  decide

/-- All template parameters that are accepted arrive. -/
theorem parameters_arrive : ParametersArrive where
  accepted _ _ := readParameters_eq_ok
  told _ v read grant template _ _ asked := by
    rw [(Operation.request?_eq asked).2]
    exact ⟨_, _, asked_ruleFromTemplate grant template v, decode_ruleTemplate grant template,
      readParameters_compact read⟩

/-- The last of two members counts, and the keys are put in order. -/
example : readParameters "\x7b\"b\":-0,\"a\":1,\"a\":2\x7d" =
    .ok (.object [("a", .whole 2), ("b", .real minusZero)]) := rfl

/-- Parameters in which the key of embedded texts is not the first one are accepted. In their own
text it is the first one, and that text is not accepted. -/
theorem parameters_arrive_embedded :
    let v : Json := .object [(embeddedKey, .text "2"), ("a", .whole 1)]
    readParameters "\x7b\"a\":1,\"$serde_json::private::RawValue\":\"2\"\x7d" = .ok v ∧
      readAsked (Operation.ruleFromTemplate "g" "t" v).url =
        some (Endpoint.ruleTemplate "g" "t", [("kwargs", v.compact)]) ∧
      readParameters v.compact = .error (.parametersNoJson .trailingComma) :=
  ⟨rfl, asked_ruleFromTemplate .., rfl⟩

end GrantConsole
