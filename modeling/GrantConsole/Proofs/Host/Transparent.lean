import GrantConsole.Proofs.Api.Call
import GrantConsole.Proofs.Host.Relayed
import GrantConsole.Proofs.Json.Written

/-!
# The relay is transparent

A call of the console gives the same whether its request is relayed or sent straight to the server
of the grants, as long as the server answers. The server gets of a request what the console put in
it, and three headers. Where the server cannot be reached or its answer breaks off, the call is
refused with the words of the host.
-/

namespace GrantConsole

open GrantConsole.Api GrantConsole.Host GrantConsole.Json GrantConsole.Url

/-! ## What is passed on -/

namespace Host

theorem lookup_filterMap_header {names : List String} {name : String}
    (headers : List (String × String)) :
    (names.filterMap fun n => (headers.lookup n).map fun value => (n, value)).lookup name =
      if name ∈ names then headers.lookup name else none := by
  induction names with
  | nil => rfl
  | cons n names ih =>
    cases found : headers.lookup n with
    | none =>
      rw [List.filterMap_cons_none (by rw [found]; rfl), ih]
      by_cases same : name = n
      · subst same
        simp [found]
      · simp [same]
    | some value =>
      rw [List.filterMap_cons_some (by rw [found]; rfl), lookup_cons_eq_ite, ih]
      by_cases same : name = n
      · subst same
        simp [found]
      · simp [same]

theorem sublist_filterMap_header (names : List String) (headers : List (String × String)) :
    ((names.filterMap fun n => (headers.lookup n).map fun value => (n, value)).map
      Prod.fst).Sublist names := by
  induction names with
  | nil => exact .slnil
  | cons n names ih =>
    cases found : headers.lookup n with
    | none =>
      rw [List.filterMap_cons_none (by rw [found]; rfl)]
      exact ih.cons n
    | some value =>
      rw [List.filterMap_cons_some (by rw [found]; rfl)]
      exact ih.cons_cons n

/-- What the relay makes of a request: all of it but its headers, of which three are left. -/
structure PassedOn (backend : String) (r : Request) (f : Forwarded) : Prop where
  method : f.method = r.method
  url : f.url = backend ++ r.target.pathAndQuery.getD ""
  body : f.body = r.body
  /-- Of each header that is passed on the first value counts. -/
  header : ∀ name, f.headers.lookup name =
    if name ∈ forwardedHeaders then r.headers.lookup name else none
  /-- No header is passed on twice. -/
  once : (f.headers.map Prod.fst).Sublist forwardedHeaders

theorem passedOn_forward (backend : String) (r : Request) :
    PassedOn backend r (forward backend r) where
  method := rfl
  url := rfl
  body := rfl
  header _ := lookup_filterMap_header r.headers
  once := sublist_filterMap_header forwardedHeaders r.headers

/-- Two requests that differ at most in headers that are not passed on. -/
structure SameButHeaders (r r' : Request) : Prop where
  method : r.method = r'.method
  target : r.target = r'.target
  body : r.body = r'.body
  header : ∀ name ∈ forwardedHeaders, r.headers.lookup name = r'.headers.lookup name

theorem SameButHeaders.forward_eq {r r' : Request} (same : SameButHeaders r r')
    (backend : String) : forward backend r = forward backend r' := by
  have headers : (forwardedHeaders.filterMap fun name =>
      (r.headers.lookup name).map fun value => (name, value)) =
      forwardedHeaders.filterMap fun name =>
        (r'.headers.lookup name).map fun value => (name, value) :=
    List.filterMap_congr fun name known => by rw [same.header name known]
  rw [forward, forward, headers, same.method, same.target, same.body]

theorem SameButHeaders.relay_eq {r r' : Request} (same : SameButHeaders r r') (backend : String)
    (server : Absolute → Forwarded → Delivery) :
    relay backend server r = relay backend server r' := by
  simp only [relay, same.forward_eq, same.target, same.method]

/-! ## What becomes of it -/

/-- What becomes of a forwarded request; without a URL to send it to it gets nowhere. -/
def deliver (server : Absolute → Forwarded → Delivery) (f : Forwarded) : Delivery :=
  match sendingUrl f.url with
  | .error fault => .unreachable fault.message
  | .ok url => server url f

theorem relay_of_isRelayed {r : Request} (relayed : isRelayed r.target = true) (backend : String)
    (server : Absolute → Forwarded → Delivery) :
    relay backend server r =
      (withoutBody r.method (passBack (deliver server (forward backend r))),
        if (deliver server (forward backend r)).isReceived then [forward backend r] else []) := by
  rw [relay, if_pos relayed, deliver]
  dsimp only
  cases sendingUrl (forward backend r).url <;> rfl

/-- The words of the host are what a refusal of it is explained by. -/
theorem explanation?_response (fault : RelayFault) :
    explanation? fault.response.body = some fault.message := by
  have read : Json.parse fault.response.body = .ok (.object [("detail", .text fault.message)]) :=
    parse_compact_text_member (by decide) fault.message
  have found : (Json.object [("detail", .text fault.message)]).member? "detail" =
      some (.text fault.message) := by
    simp [member?]
  rw [explanation?, read]
  dsimp only
  rw [found]

end Host

/-! ## Requests of the console -/

namespace Api

/-- What a body is told to hold. -/
def Body.contentType : Body → Option String
  | .empty => none
  | .json _ => some "application/json"
  | .form _ => some "application/x-www-form-urlencoded;charset=UTF-8"

/-- The text of a body, given the texts of forms. -/
def Body.written (formText : List (String × String) → String) : Body → String
  | .empty => ""
  | .json value => value.compact
  | .form pairs => formText pairs

/-- The headers that a browser sends for a request of the console, besides its own. -/
def Request.sentHeaders (r : Request) : List (String × String) :=
  r.headers ++ r.body.contentType.toList.map fun kind => ("content-type", kind)

/-- A request as it would go to the server of the grants by itself. -/
def Request.straight (backend : String) (formText : List (String × String) → String)
    (r : Request) : Forwarded where
  method := r.method.word
  url := backend ++ r.url
  headers :=
    (r.bearer.toList.map fun token => ("authorization", "Bearer " ++ token)) ++
      (r.body.contentType.toList.map fun kind => ("content-type", kind)) ++
      [("accept", "application/json")]
  body := r.body.written formText

end Api

namespace Host

/-- The longest body that the host takes, in bytes. -/
def maxBodyBytes : Nat := 2097152

/-- A request of the console has come to the host as it was sent. The browser may have put headers
of its own to it, such as cookies, but none in the place of those that are passed on. -/
structure Arrives (formText : List (String × String) → String) (sent : Api.Request)
    (r : Request) : Prop where
  method : r.method = sent.method.word
  target : Target.parse? sent.url = some r.target
  header : ∀ name ∈ forwardedHeaders, r.headers.lookup name = sent.sentHeaders.lookup name
  body : r.body = sent.body.written formText
  fits : r.body.utf8ByteSize ≤ maxBodyBytes

theorem headers_straight (sent : Api.Request) :
    (forwardedHeaders.filterMap fun name =>
      (sent.sentHeaders.lookup name).map fun value => (name, value)) =
      (sent.bearer.toList.map fun token => ("authorization", "Bearer " ++ token)) ++
        (sent.body.contentType.toList.map fun kind => ("content-type", kind)) ++
        [("accept", "application/json")] := by
  obtain ⟨method, url, bearer, body⟩ := sent
  cases bearer <;> cases body <;> rfl

theorem fits_of_parse? {url : String} {target : Target} (read : Target.parse? url = some target) :
    url.utf8ByteSize ≤ maxTargetBytes := by
  rw [Target.parse?] at read
  split at read
  case isTrue => cases read
  case isFalse fits => exact Nat.not_lt.mp fits

/-- The target of a request that has arrived is its whole URL, and is relayed. -/
theorem Arrives.relayed {formText : List (String × String) → String} {sent : Api.Request}
    {r : Request} (arrives : Arrives formText sent r) (sendable : Sendable sent.url) :
    r.target = ⟨some sent.url⟩ ∧ isRelayed r.target = true := by
  obtain ⟨read, relayed⟩ := sendable.relayed (fits_of_parse? arrives.target)
  have same : r.target = ⟨some sent.url⟩ := Option.some.inj (arrives.target.symm.trans read)
  exact ⟨same, same ▸ relayed⟩

/-- The server gets a relayed request as if it had been sent straight to it. -/
theorem Arrives.forward_eq {formText : List (String × String) → String} {sent : Api.Request}
    {r : Request} (arrives : Arrives formText sent r) (sendable : Sendable sent.url)
    (backend : String) : forward backend r = sent.straight backend formText := by
  have headers : (forwardedHeaders.filterMap fun name =>
      (r.headers.lookup name).map fun value => (name, value)) =
      forwardedHeaders.filterMap fun name =>
        (sent.sentHeaders.lookup name).map fun value => (name, value) :=
    List.filterMap_congr fun name known => by rw [arrives.header name known]
  have url : targetUrl backend r.target = backend ++ sent.url := by
    rw [(arrives.relayed sendable).1]
    rfl
  rw [forward, headers, headers_straight, arrives.method, arrives.body, url]
  rfl

theorem Arrives.relay_eq {formText : List (String × String) → String} {sent : Api.Request}
    {r : Request} (arrives : Arrives formText sent r) (sendable : Sendable sent.url)
    (backend : String) (server : Absolute → Forwarded → Delivery) :
    relay backend server r =
      (passBack (deliver server (sent.straight backend formText)),
        if (deliver server (sent.straight backend formText)).isReceived
        then [sent.straight backend formText] else []) := by
  have noHead : r.method ≠ "HEAD" := by
    rw [arrives.method]
    cases sent.method <;> decide
  rw [relay_of_isRelayed (arrives.relayed sendable).2, arrives.forward_eq sendable, withoutBody,
    if_neg noHead]

/-! ## Calls over the relay -/

/-- What comes back to the console when nothing stands between it and the server. -/
def Delivery.outcome : Delivery → Except Failure Api.Response
  | .answer response => .ok ⟨response.status, response.body⟩
  | .unreachable why => .error (.transport why)
  | .unreadable why => .error (.transport why)

/-- Requests go straight to the server of the grants. -/
def straight (backend : String) (server : Absolute → Forwarded → Delivery)
    (formText : List (String × String) → String) : Transport := fun sent =>
  (deliver server (sent.straight backend formText)).outcome

/-- Requests go through the host, as the browser brings them there. -/
def throughHost (backend : String) (server : Absolute → Forwarded → Delivery)
    (browser : Api.Request → Request) : Transport := fun sent =>
  let response := (relay backend server (browser sent)).1
  .ok ⟨response.status, response.body⟩

/-- The statuses by which a server sends the asker to another place. -/
def redirects : List Nat :=
  [301, 302, 303, 307, 308]

/-- The server answers by itself. -/
inductive Answers : Delivery → Prop
  | intro {response : Response} (itself : response.status ∉ redirects) :
      Answers (.answer response)

/-- A call was refused in the words of the host, and the session is as it was. -/
structure RefusedByHost {α : Type} (why : String) (before after : Client)
    (result : Except Failure α) : Prop where
  result : result = .error (.refused 502 (some why))
  session : after.session = before.session
  ended : after.ended = before.ended

/-- What a relay does for calls that come through it. -/
structure Transparent (backend : String) (server : Absolute → Forwarded → Delivery)
    (formText : List (String × String) → String) (browser : Api.Request → Request) : Prop where
  /-- While the server answers, calls go as if there were no relay. -/
  answered : ∀ {α : Type} (op : Operation α) (client : Client), op.IsServed →
    (∀ sent, op.request? client.session = some sent → Arrives formText sent (browser sent) ∧
      Answers (deliver server (sent.straight backend formText))) →
    (op.call (throughHost backend server browser)).perform client =
      (op.call (straight backend server formText)).perform client
  /-- The server gets what the console has sent. -/
  got : ∀ {α : Type} (op : Operation α) (client : Client) (sent : Api.Request), op.IsServed →
    op.request? client.session = some sent → Arrives formText sent (browser sent) →
    Answers (deliver server (sent.straight backend formText)) →
    (relay backend server (browser sent)).2 = [sent.straight backend formText]
  unreachable : ∀ {α : Type} (op : Operation α) (client : Client) (sent : Api.Request)
    (why : String), op.IsServed → op.request? client.session = some sent →
    Arrives formText sent (browser sent) →
    deliver server (sent.straight backend formText) = .unreachable why →
    RefusedByHost ("backend unreachable: " ++ why) client
      ((op.call (throughHost backend server browser)).perform client).1
      ((op.call (throughHost backend server browser)).perform client).2
  unreadable : ∀ {α : Type} (op : Operation α) (client : Client) (sent : Api.Request)
    (why : String), op.IsServed → op.request? client.session = some sent →
    Arrives formText sent (browser sent) →
    deliver server (sent.straight backend formText) = .unreadable why →
    RefusedByHost ("backend response unreadable: " ++ why) client
      ((op.call (throughHost backend server browser)).perform client).1
      ((op.call (throughHost backend server browser)).perform client).2
  passedOn : ∀ r, PassedOn backend r (forward backend r)
  /-- Headers that are not passed on make no difference. -/
  sameButHeaders : ∀ {r r' : Request}, SameButHeaders r r' →
    forward backend r = forward backend r' ∧ relay backend server r = relay backend server r'

theorem sendable_of_request? {α : Type} {op : Operation α} {session : Session}
    {sent : Api.Request} (served : op.IsServed) (can : op.request? session = some sent) :
    Sendable sent.url := by
  have url : sent.url = op.url := by
    rw [Operation.request?] at can
    split at can
    · obtain ⟨token, -, rfl⟩ := Option.map_eq_some_iff.mp can
      rfl
    · cases can
      rfl
  exact url ▸ op.sendable_url served

theorem throughHost_eq {formText : List (String × String) → String}
    {browser : Api.Request → Request} {sent : Api.Request}
    (arrives : Arrives formText sent (browser sent)) (sendable : Sendable sent.url)
    (backend : String) (server : Absolute → Forwarded → Delivery) :
    throughHost backend server browser sent =
      .ok ⟨(passBack (deliver server (sent.straight backend formText))).status,
        (passBack (deliver server (sent.straight backend formText))).body⟩ := by
  rw [throughHost, arrives.relay_eq sendable]

theorem Answers.outcome_eq {delivery : Delivery} (answers : Answers delivery) :
    delivery.outcome = .ok ⟨(passBack delivery).status, (passBack delivery).body⟩ := by
  cases answers
  rfl

theorem Answers.isReceived {delivery : Delivery} (answers : Answers delivery) :
    delivery.isReceived = true := by
  cases answers
  rfl

/-- A fault of the relay comes to a call as a refusal that leaves the session alone. -/
theorem refusedByHost {α : Type} {op : Operation α} {client : Client} {sent : Api.Request}
    {transport : Transport} (fault : RelayFault) (status : fault.status = 502)
    (can : op.request? client.session = some sent)
    (answer : transport sent = .ok ⟨fault.response.status, fault.response.body⟩) :
    RefusedByHost fault.message client ((op.call transport).perform client).1
      ((op.call transport).perform client).2 := by
  have status' : fault.response.status = 502 := status
  have settled : op.settle client.session (transport sent) =
      ⟨.error (.refused 502 (some fault.message)), client.session, false⟩ := by
    rw [answer, Operation.settle, status']
    simp only [Response.isSuccess, Failure.ofStatus, explanation?_response]
    rfl
  have performed : (op.call transport).perform client =
      ({ client with sent := client.sent ++ [sent] },
        .error (.refused 502 (some fault.message))) := by
    rw [Operation.perform_call, can]
    dsimp only
    rw [settled]
    rfl
  rw [performed]
  exact ⟨rfl, rfl, rfl⟩

/-- The relay is transparent, whatever the server does and the browser adds. -/
theorem relay_transparent (backend : String) (server : Absolute → Forwarded → Delivery)
    (formText : List (String × String) → String) (browser : Api.Request → Request) :
    Transparent backend server formText browser where
  answered op client served each := by
    rw [Operation.perform_call, Operation.perform_call]
    cases can : op.request? client.session with
    | none => rfl
    | some sent =>
      obtain ⟨arrives, answers⟩ := each sent can
      have same : throughHost backend server browser sent = straight backend server formText sent := by
        rw [throughHost_eq arrives (sendable_of_request? served can), straight,
          answers.outcome_eq]
      simp only [same]
  got op client sent served can arrives answers := by
    rw [arrives.relay_eq (sendable_of_request? served can), if_pos answers.isReceived]
  unreachable op client sent why served can arrives failed := by
    have answer := throughHost_eq arrives (sendable_of_request? served can) backend server
    rw [failed] at answer
    exact refusedByHost (.unreachable why) rfl can answer
  unreadable op client sent why served can arrives failed := by
    have answer := throughHost_eq arrives (sendable_of_request? served can) backend server
    rw [failed] at answer
    exact refusedByHost (.unreadable why) rfl can answer
  passedOn := passedOn_forward backend
  sameButHeaders same := ⟨same.forward_eq backend, same.relay_eq backend server⟩

/-- A browser that adds cookies, and a server that refuses one call and breaks off another. -/
theorem relay_transparent_cookies :
    let formText (pairs : List (String × String)) := "&".intercalate (pairs.map pairText)
    let browser (sent : Api.Request) : Request :=
      ⟨sent.method.word, ⟨some sent.url⟩, ("cookie", "a=b") :: sent.sentHeaders,
        sent.body.written formText⟩
    let client : Client := { session := ⟨some [(Session.tokenKey, "tok")]⟩ }
    let op : Operation Rule := .fetch Rule "a/b"
    let gone : Absolute → Forwarded → Delivery := fun _ _ =>
      .answer ⟨404, [], "\x7b\"detail\":\"gone\"\x7d"⟩
    let broken : Absolute → Forwarded → Delivery := fun _ _ => .unreadable "cut \"off\"\n"
    (op.call (throughHost "http://s" gone browser)).perform client =
        (op.call (straight "http://s" gone formText)).perform client ∧
      ((op.call (throughHost "http://s" broken browser)).perform client).2 =
        .error (.refused 502 (some "backend response unreadable: cut \"off\"\n")) := by
  intro formText browser client op gone broken
  have can : op.request? client.session =
      some ⟨.get, "/api/v1/rules/a%2Fb", some "tok", .empty⟩ := by
    have token : client.session.token? = some "tok" := by decide
    have url : op.url = "/api/v1/rules/a%2Fb" := by decide
    rw [Operation.request?, token, url]
    rfl
  have arrives : Arrives formText ⟨.get, "/api/v1/rules/a%2Fb", some "tok", .empty⟩
      (browser ⟨.get, "/api/v1/rules/a%2Fb", some "tok", .empty⟩) :=
    ⟨rfl, by decide, by decide, rfl, by decide⟩
  have reached (server : Absolute → Forwarded → Delivery) (delivery : Delivery)
      (always : server = fun _ _ => delivery) :
      deliver server ((⟨.get, "/api/v1/rules/a%2Fb", some "tok", .empty⟩ :
        Api.Request).straight "http://s" formText) = delivery := by
    have url : ((⟨.get, "/api/v1/rules/a%2Fb", some "tok", .empty⟩ : Api.Request).straight
        "http://s" formText).url = "http://s/api/v1/rules/a%2Fb" := by
      decide
    have there : (sendingUrl "http://s/api/v1/rules/a%2Fb").toOption.isSome = true := by decide
    rw [deliver, always, url]
    cases sent : sendingUrl "http://s/api/v1/rules/a%2Fb" with
    | error fault =>
      rw [sent] at there
      cases there
    | ok _ => rfl
  constructor
  · refine (relay_transparent "http://s" gone formText browser).answered op client .rule ?_
    intro sent same
    obtain rfl : _ = sent := Option.some.inj (can.symm.trans same)
    rw [reached gone _ rfl]
    exact ⟨arrives, .intro (by decide)⟩
  · exact ((relay_transparent "http://s" broken formText browser).unreadable op client _ _ .rule can
      arrives (reached broken _ rfl)).result

end Host

end GrantConsole
