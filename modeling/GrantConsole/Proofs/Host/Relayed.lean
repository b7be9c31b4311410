import GrantConsole.Api.Operation
import GrantConsole.Host.Router
import GrantConsole.Proofs.Url.Plain

/-!
# Where requests go

Every URL that the console asks for reaches the relay as it is written, and the relay passes on what
stands after the origin of a request, whatever that origin is. So the server of the grants is asked
for what the console asked for, and no request is sent to another place.
-/

namespace GrantConsole

open GrantConsole.Api GrantConsole.Host GrantConsole.Url

/-! ## What is relayed -/

namespace Host

theorem isRelayed_iff {target : Target} :
    isRelayed target = true ↔
      relayStart.toList <+: target.path.toList ∧ relayStart.length < target.path.length := by
  simp only [isRelayed, Bool.and_eq_true, decide_eq_true_eq]
  exact and_congr_left' String.startsWith_string_iff

theorem ifAsking_ne_relayed {method : String} {answer : Answer} (other : answer ≠ .relayed) :
    ifAsking method answer ≠ .relayed := by
  rw [ifAsking]
  split
  · exact other
  · exact Answer.noConfusion

theorem route_ne_relayed {method : String} {target : Target} (other : isRelayed target = false) :
    route method target ≠ .relayed := by
  simp only [route, other, Bool.false_eq_true, if_false]
  split
  · exact ifAsking_ne_relayed Answer.noConfusion
  · split
    · exact ifAsking_ne_relayed Answer.noConfusion
    · split
      · exact ifAsking_ne_relayed Answer.noConfusion
      · exact Answer.noConfusion

/-- Requests of any method are relayed by their path alone. -/
theorem route_eq_relayed_iff {method : String} {target : Target} :
    route method target = .relayed ↔ isRelayed target = true := by
  constructor
  · intro routed
    cases relayed : isRelayed target with
    | true => rfl
    | false => exact absurd routed (route_ne_relayed relayed)
  · intro relayed
    have elsewhere : target.path ≠ "/healthz" := by
      intro health
      have under := (isRelayed_iff.mp relayed).1
      rw [health] at under
      exact absurd under (by decide)
    rw [route, if_neg elsewhere, if_pos relayed]

/-- A path that goes on after the start of the relay in plain characters. -/
def UnderStart (path : String) : Prop :=
  ∃ tail, path = relayStart ++ tail ∧ tail ≠ "" ∧ tail.toList.all isPathChar = true

theorem UnderStart.append {path s : String} (under : UnderStart path)
    (plain : s.toList.all isPathChar = true) : UnderStart (path ++ s) := by
  obtain ⟨tail, rfl, goesOn, within⟩ := under
  refine ⟨tail ++ s, String.append_assoc .., ?_, ?_⟩
  · exact fun none => goesOn (String.append_eq_empty_iff.mp none).1
  · rw [String.toList_append, List.all_append, within, plain]
    rfl

theorem UnderStart.append_encode {path : String} (under : UnderStart path) (s : String) :
    UnderStart (path ++ encode s) :=
  under.append (List.all_eq_true.mpr fun _ inside => (plain_of_mem_encode inside).1)

/-- A URL that the relay takes as it is written. -/
inductive Sendable : String → Prop
  | url {path query : String} (under : UnderStart path) (asked : PlainQuery query.toList) :
      Sendable (path ++ query)

theorem UnderStart.sendable {path : String} (under : UnderStart path) : Sendable path := by
  have alone : Sendable (path ++ "") := .url under .none
  rwa [String.append_empty] at alone

theorem UnderStart.withQuery {path : String} (under : UnderStart path)
    {pairs : List (String × String)}
    (keys : ∀ key ∈ pairs.map Prod.fst, key.toList.all isPlainQueryChar = true) :
    Sendable (withQuery path pairs) := by
  obtain ⟨query, text, asked⟩ := withQuery_eq_append path keys
  rw [text]
  exact .url under asked

theorem Sendable.relayed {url : String} (sendable : Sendable url)
    (fits : url.utf8ByteSize ≤ maxTargetBytes) :
    Target.parse? url = some ⟨some url⟩ ∧ isRelayed ⟨some url⟩ = true := by
  cases sendable with
  | @url path query under asked =>
    obtain ⟨tail, rfl, goesOn, plain⟩ := under
    have whole : (relayStart ++ tail).toList = '/' :: ("api/v1/".toList ++ tail.toList) := by
      rw [String.toList_append]
      rfl
    have within : ('/' :: ("api/v1/".toList ++ tail.toList)).all isPathChar = true := by
      rw [List.all_cons, List.all_append, plain]
      decide
    have path : Target.path ⟨some (relayStart ++ tail ++ query)⟩ = relayStart ++ tail := by
      have := Target.path_of_plain within asked
      rwa [← whole, ← String.toList_append, String.ofList_toList, String.ofList_toList] at this
    constructor
    · rw [Target.parse?, if_neg (Nat.not_lt.mpr fits), String.toList_append, whole,
        Target.ofChars?_of_plain within asked, ← whole, ← String.toList_append,
        String.ofList_toList]
    · rw [isRelayed_iff, path, String.toList_append, String.length_append]
      refine ⟨List.prefix_append .., ?_⟩
      have : tail.length ≠ 0 := by simpa using goesOn
      omega

end Host

/-! ## The URLs of the console -/

namespace Api

/-- The records that the server keeps. -/
inductive Served : (R : Type) → [Resource R] → Prop
  | grant : Served Grant
  | expense : Served Expense
  | approval : Served Approval
  | category : Served Category
  | role : Served Role
  | rule : Served Rule
  | user : Served User

/-- The operation is about records that the server keeps. -/
def Operation.IsServed {α : Type} : Operation α → Prop
  | @list R _ _ => Served R
  | @fetch R _ _ => Served R
  | @create R _ _ => Served R
  | @replace R _ _ _ => Served R
  | @delete R _ _ => Served R
  | _ => True

theorem Served.underStart_collection {R : Type} [Resource R] (served : Served R) :
    UnderStart (Endpoint.collection R) := by
  cases served with
  | grant => exact ⟨"grants/", by decide, by decide, by decide⟩
  | expense => exact ⟨"grant-expenses/", by decide, by decide, by decide⟩
  | approval => exact ⟨"grant-approvals/", by decide, by decide, by decide⟩
  | category => exact ⟨"grant-categories/", by decide, by decide, by decide⟩
  | role => exact ⟨"grant-roles/", by decide, by decide, by decide⟩
  | rule => exact ⟨"rules/", by decide, by decide, by decide⟩
  | user => exact ⟨"users/", by decide, by decide, by decide⟩

theorem Served.underStart_item {R : Type} [Resource R] (served : Served R) (id : String) :
    UnderStart (Endpoint.item R id) :=
  served.underStart_collection.append_encode id

namespace Endpoint

theorem underStart_token : UnderStart token :=
  ⟨"login/access-token", by decide, by decide, by decide⟩

theorem underStart_ruleTemplates : UnderStart ruleTemplates :=
  ⟨"rules/templates", by decide, by decide, by decide⟩

theorem underStart_pendingExpenses : UnderStart pendingExpenses :=
  ⟨"grant-approvals/pending-expenses", by decide, by decide, by decide⟩

theorem underStart_grantRules (grant : String) : UnderStart (grantRules grant) := by
  have start : UnderStart (basePath ++ "/rules/grant/") :=
    ⟨"rules/grant/", by decide, by decide, by decide⟩
  exact start.append_encode grant

theorem underStart_ruleTemplate (grant template : String) :
    UnderStart (ruleTemplate grant template) :=
  ((underStart_grantRules grant).append (s := "/template/") (by decide)).append_encode template

theorem underStart_grantRoles (grant : String) : UnderStart (grantRoles grant) := by
  have start : UnderStart (basePath ++ "/grant-roles/grant/") :=
    ⟨"grant-roles/grant/", by decide, by decide, by decide⟩
  exact start.append_encode grant

theorem underStart_userRole (grant user : String) : UnderStart (userRole grant user) :=
  ((underStart_grantRoles grant).append (s := "/user/") (by decide)).append_encode user

theorem underStart_projection (grant : String) : UnderStart (projection grant) := by
  have start : UnderStart (basePath ++ "/grant-projection/") :=
    ⟨"grant-projection/", by decide, by decide, by decide⟩
  exact start.append_encode grant

theorem sendable_paged {path : String} (under : UnderStart path) (window : Window) :
    Sendable (paged path window) := by
  have keys : ∀ key ∈ ["skip", "limit"], key.toList.all isPlainQueryChar = true := by
    decide
  exact under.withQuery keys

end Endpoint

/-- The console asks only for what the relay takes. -/
theorem Operation.sendable_url {α : Type} (op : Operation α) (served : op.IsServed) :
    Sendable op.url := by
  cases op with
  | signIn => exact Endpoint.underStart_token.sendable
  | list R window => exact Endpoint.sendable_paged (Served.underStart_collection served) window
  | fetch R id => exact (Served.underStart_item served id).sendable
  | create record => exact (Served.underStart_collection served).sendable
  | replace id record => exact (Served.underStart_item served id).sendable
  | delete R id => exact (Served.underStart_item served id).sendable
  | createUser user => exact Served.user.underStart_collection.sendable
  | updateUser id update => exact (Served.user.underStart_item id).sendable
  | grantRules grant => exact (Endpoint.underStart_grantRules grant).sendable
  | ruleTemplates => exact Endpoint.underStart_ruleTemplates.sendable
  | ruleFromTemplate grant template parameters =>
    have keys : ∀ key ∈ ["kwargs"], key.toList.all isPlainQueryChar = true := by decide
    exact (Endpoint.underStart_ruleTemplate grant template).withQuery keys
  | grantRoles grant => exact (Endpoint.underStart_grantRoles grant).sendable
  | assignRole grant user type permissions =>
    have keys : ∀ key ∈ ["role_type"], key.toList.all isPlainQueryChar = true := by decide
    exact (Endpoint.underStart_userRole grant user).withQuery keys
  | pendingExpenses window =>
    exact Endpoint.sendable_paged Endpoint.underStart_pendingExpenses window
  | projection grant => exact (Endpoint.underStart_projection grant).sendable

end Api

/-! ## What the relay passes on -/

namespace Host

/-- A relayed request has a path under the start of the relay in its text. -/
theorem carries_of_isRelayed {cs : List Char} {target : Target}
    (read : Target.ofChars? cs = some target) (relayed : isRelayed target = true) :
    ∃ raw, Carries cs raw ∧ relayStart.toList <+: raw := by
  cases Target.reading_ofChars? read with
  | asterisk => exact absurd relayed (by decide)
  | authority => exact absurd relayed (by decide)
  | @path raw carries =>
    have under := (isRelayed_iff.mp relayed).1
    rw [path_pathOf] at under
    split at under
    · exact absurd under (by decide)
    · rw [String.toList_ofList] at under
      exact ⟨raw, carries, under.trans (List.takeWhile_prefix _)⟩

/-- What a console and the relay at one host agree on, with the address of the server. -/
structure Agreement (backend : String) : Prop where
  /-- What the console asks for is relayed as it is written. -/
  sent : ∀ {α : Type} (op : Operation α), op.IsServed → op.url.utf8ByteSize ≤ maxTargetBytes →
    ∃ target, Target.parse? op.url = some target ∧ (∀ method, route method target = .relayed) ∧
      targetUrl backend target = backend ++ op.url
  /-- What is relayed goes to the path with its query that the text of the request carries. -/
  relayed : ∀ {text method : String} {target : Target}, Target.parse? text = some target →
    route method target = .relayed →
    ∃ raw : String, Carries text.toList raw.toList ∧
      (∀ other, Carries text.toList other → other = raw.toList) ∧
      relayStart.isPrefixOf raw = true ∧ targetUrl backend target = backend ++ raw
  /-- The origin of a relayed request says nothing about where it goes. -/
  originFree : ∀ {text text' method : String} {target target' : Target} {raw : List Char},
    Target.parse? text = some target → Target.parse? text' = some target' →
    Carries text.toList raw → Carries text'.toList raw → route method target = .relayed →
    route method target' = .relayed ∧ targetUrl backend target' = targetUrl backend target

theorem ofChars?_of_parse? {text : String} {target : Target}
    (read : Target.parse? text = some target) : Target.ofChars? text.toList = some target := by
  rw [Target.parse?] at read
  split at read
  · cases read
  · exact read

/-- The console and the relay agree, whatever the address of the server is. -/
theorem console_relay_agree (backend : String) : Agreement backend where
  sent op served fits := by
    obtain ⟨read, relayed⟩ := (op.sendable_url served).relayed fits
    exact ⟨⟨some op.url⟩, read, fun _ => route_eq_relayed_iff.mpr relayed, rfl⟩
  relayed := by
    intro text method target read routed
    have read := ofChars?_of_parse? read
    obtain ⟨raw, carries, under⟩ := carries_of_isRelayed read (route_eq_relayed_iff.mp routed)
    refine ⟨String.ofList raw, ?_, ?_, ?_, ?_⟩
    · rwa [String.toList_ofList]
    · intro other carries'
      rw [String.toList_ofList, carries'.unique carries]
    · exact String.startsWith_string_iff.mpr (by rwa [String.toList_ofList])
    · rw [targetUrl, Target.pathAndQuery_of_carries read carries (under.subset (by decide)),
        Option.getD_some]
  originFree := by
    intro text text' method target target' raw read read' carries carries' routed
    have read := ofChars?_of_parse? read
    have read' := ofChars?_of_parse? read'
    obtain ⟨raw', known, under⟩ := carries_of_isRelayed read (route_eq_relayed_iff.mp routed)
    rw [known.unique carries] at under
    have slash : '/' ∈ raw := under.subset (by decide)
    -- A target is what it carries, and both texts carry the same.
    have parts : target'.pathAndQuery = target.pathAndQuery :=
      (Target.pathAndQuery_of_carries read' carries' slash).trans
        (Target.pathAndQuery_of_carries read carries slash).symm
    have same : target' = target := congrArg Target.mk parts
    rw [same]
    exact ⟨routed, rfl⟩

/-- A segment that has to be encoded, and a request that names another host. -/
theorem console_relay_agree_elsewhere :
    let elsewhere := "http://elsewhere/api/v1/rules/?skip=0#top"
    (∃ target, Target.parse? (Operation.fetch Rule "a/b?ü").url = some target ∧
      targetUrl "http://s" target = "http://s/api/v1/rules/a%2Fb%3F%C3%BC") ∧
    ∃ target raw, Target.parse? elsewhere = some target ∧ Carries elsewhere.toList raw.toList ∧
      targetUrl "http://s" target = "http://s" ++ raw := by
  intro elsewhere
  have agreement := console_relay_agree "http://s"
  obtain ⟨target, read, -, sent⟩ :=
    agreement.sent (.fetch Rule "a/b?ü") Served.rule (by decide)
  refine ⟨⟨target, read, sent.trans (by decide)⟩, ?_⟩
  have read : Target.parse? elsewhere = some ⟨some "/api/v1/rules/?skip=0"⟩ := by decide
  have routed : route "GET" ⟨some "/api/v1/rules/?skip=0"⟩ = .relayed :=
    route_eq_relayed_iff.mpr (isRelayed_iff.mpr (by decide))
  obtain ⟨raw, carries, -, -, relayed⟩ := agreement.relayed read routed
  exact ⟨_, raw, read, carries, relayed⟩

end Host

end GrantConsole
