import GrantConsole.Api.Client
import GrantConsole.Proofs.Session.Entries

/-!
# What a call does

A call sends at most one request, succeeds exactly on a readable success, and ends the session
exactly when its failure means that. Each step of a call is described by what it does to a client;
the description of a whole call follows from these.
-/

namespace GrantConsole.Api

variable {α β : Type}

/-! ## The steps of a call -/

namespace Call

theorem perform_bind (call : Call α) (next : α → Call β) (client : Client) :
    (call >>= next).perform client =
      match call.perform client with
      | (after, .ok a) => (next a).perform after
      | (after, .error failure) => (after, .error failure) := by
  unfold perform
  -- Running a bind is matching on what the first call gave, which is what `bindCont` does.
  change Prod.swap (match call.run client with
    | (result, after) => ExceptT.bindCont next result after) = _
  rcases call.run client with ⟨failure | a, after⟩ <;> rfl

theorem reject_bind (failure : Failure) (next : α → Call β) :
    (reject failure >>= next) = reject failure := by
  unfold reject
  cases failure.endsSession <;> rfl

theorem perform_authorize_bind (next : String → Call β) (client : Client) :
    (authorize >>= next).perform client =
      match client.session.token? with
      | some token => (next token).perform client
      | none => (reject .notSignedIn : Call β).perform client := by
  unfold authorize
  rw [bind_assoc, perform_bind]
  change ((match client.session.token? with
    | some token => pure token
    | none => reject .notSignedIn) >>= next).perform client = _
  cases client.session.token? with
  | none => rw [reject_bind]
  | some token => rw [pure_bind]

theorem perform_exchange_bind (transport : Transport) (request : Request)
    (next : Response → Call β) (client : Client) :
    (exchange transport request >>= next).perform client =
      (match transport request with
      | .error failure => reject failure
      | .ok response =>
          if response.isSuccess then next response
          else reject (.ofStatus response.status response.body)).perform
        { client with sent := client.sent ++ [request] } := by
  unfold exchange
  rw [bind_assoc, perform_bind]
  change ((match transport request with
    | .error failure => reject failure
    | .ok response => if response.isSuccess then return response
        else reject (.ofStatus response.status response.body)) >>= next).perform
      { client with sent := client.sent ++ [request] } = _
  cases transport request with
  | error failure => rw [reject_bind]
  | ok response =>
      dsimp only
      by_cases success : response.isSuccess
      · rw [if_pos success, if_pos success, pure_bind]
      · rw [if_neg success, if_neg success, reject_bind]

end Call

/-! ## A call in two parts -/

/-- A client takes in what came of an operation. -/
def Client.takeIn (client : Client) (outcome : Outcome α) : Client × Except Failure α :=
  ({ client with
      session := outcome.session
      ended := if outcome.ended then client.ended + 1 else client.ended }, outcome.result)

namespace Operation

theorem perform_reject (failure : Failure) (client : Client) :
    (Call.reject failure : Call α).perform client =
      client.takeIn (fail client.session failure) := by
  unfold Call.reject fail Client.takeIn
  cases failure.endsSession <;> rfl

theorem perform_conclude (op : Operation α) (response : Response) (client : Client) :
    (op.conclude response).perform client =
      match op.readAnswer response.body with
      | .ok a => client.takeIn ⟨.ok a, op.remember a client.session, false⟩
      | .error fault => client.takeIn (fail client.session (.unexpected fault.message)) := by
  unfold conclude
  cases op.readAnswer response.body <;> rfl

theorem perform_exchange_conclude (transport : Transport) (op : Operation α) (request : Request)
    (client : Client) :
    (Call.exchange transport request >>= op.conclude).perform client =
      { client with sent := client.sent ++ [request] }.takeIn
        (op.settle client.session (transport request)) := by
  rw [Call.perform_exchange_bind]
  unfold settle
  cases transport request with
  | error failure => exact perform_reject failure _
  | ok response =>
      cases success : response.isSuccess with
      | false => simpa [success] using perform_reject _ _
      | true =>
          simp only [success, if_true, perform_conclude]
          cases op.readAnswer response.body <;> rfl

/--
A call over a transport comes to the same as asking for its request, having that answered, and
taking in the answer.
-/
theorem perform_call (transport : Transport) (op : Operation α) (client : Client) :
    (op.call transport).perform client =
      match op.request? client.session with
      | none => client.takeIn (fail client.session .notSignedIn)
      | some request =>
          { client with sent := client.sent ++ [request] }.takeIn
            (op.settle client.session (transport request)) := by
  unfold call request?
  cases op.needsToken with
  | false => exact perform_exchange_conclude transport op _ client
  | true =>
      simp only [if_true, map_eq_pure_bind, bind_assoc, pure_bind]
      rw [Call.perform_authorize_bind]
      cases client.session.token? with
      | none => exact perform_reject .notSignedIn client
      | some token => exact perform_exchange_conclude transport op _ client

/-! ## What a call leaves behind -/

/-- Signing in. -/
inductive IsSignIn : {α : Type} → Operation α → Prop where
  | intro (email password : String) : IsSignIn (.signIn email password)

/-- Deleting a record. -/
inductive IsDeletion : {α : Type} → Operation α → Prop where
  | intro (R : Type) [Resource R] (id : String) : IsDeletion (.delete R id)

/-- The token that a success hands out; only signing in hands one out. -/
def handsOut : Operation α → α → Option String
  | signIn .., token => some token.access
  | _, _ => none

/-- What a call does to the session and how often it ends it. -/
structure SessionEffect (op : Operation α) (before after : Client)
    (result : Except Failure α) : Prop where
  ends : ∀ failure, result = .error failure → failure.endsSession = true →
    after.ended = before.ended + 1 ∧
      ∀ key, after.session.get? key =
        if key = Session.tokenKey ∨ key = Session.grantIdKey ∨ key = Session.grantTitleKey then none
        else before.session.get? key
  stays : ∀ failure, result = .error failure → failure.endsSession = false →
    after.ended = before.ended ∧ after.session = before.session
  keeps : ∀ a, result = .ok a → op.handsOut a = none →
    after.ended = before.ended ∧ after.session = before.session
  stores : ∀ a token, result = .ok a → op.handsOut a = some token →
    after.ended = before.ended ∧ after.session = before.session.set Session.tokenKey token ∧
      (before.session.entries ≠ none → after.session.get? Session.tokenKey = some token) ∧
      ∀ key, key ≠ Session.tokenKey → after.session.get? key = before.session.get? key

/-- What a call does, from the client before it to the client after it. -/
structure CallEffect (transport : Transport) (op : Operation α) (before after : Client)
    (result : Except Failure α) : Prop extends SessionEffect op before after result where
  silent : ¬ op.IsSignIn → before.session.LacksToken →
    after.sent = before.sent ∧ result = .error .notSignedIn
  sends : op.IsSignIn ∨ ¬ before.session.LacksToken →
    ∃ bearer, (op.IsSignIn → bearer = none) ∧
      (¬ op.IsSignIn → bearer = before.session.get? Session.tokenKey) ∧
      after.sent = before.sent ++ [⟨op.method, op.url, bearer, op.body⟩] ∧
      ∀ a, result = .ok a ↔
        ∃ response, transport ⟨op.method, op.url, bearer, op.body⟩ = .ok response ∧
          200 ≤ response.status ∧ response.status < 300 ∧
          (op.IsDeletion ∨ op.readAnswer response.body = .ok a)

theorem needsToken_eq_false_iff (op : Operation α) : op.needsToken = false ↔ op.IsSignIn := by
  constructor
  · intro free
    cases op <;> first | exact .intro _ _ | cases free
  · rintro ⟨email, password⟩
    rfl

theorem IsDeletion.readAnswer {op : Operation α} (deletion : op.IsDeletion) (body : String)
    (a : α) : op.readAnswer body = .ok a := by
  obtain ⟨R, id⟩ := deletion
  rfl

theorem remember_of_handsOut_none {op : Operation α} {a : α} (none : op.handsOut a = none)
    (session : Session) : op.remember a session = session := by
  cases op <;> first | rfl | cases none

theorem remember_of_handsOut_some {op : Operation α} {a : α} {token : String}
    (some : op.handsOut a = some token) (session : Session) :
    op.remember a session = session.set Session.tokenKey token := by
  cases op <;> cases some
  rfl

theorem fail_result (session : Session) (failure : Failure) :
    (fail session failure : Outcome α).result = .error failure := by
  unfold fail
  split <;> rfl

theorem sessionEffect_fail (op : Operation α) (client : Client) (sent : List Request)
    (failure : Failure) :
    let outcome := { client with sent }.takeIn (fail client.session failure)
    SessionEffect op client outcome.1 outcome.2 := by
  intro outcome
  have result : outcome.2 = .error failure := fail_result client.session failure
  constructor
  case ends =>
    intro failure' same ends
    obtain rfl : failure = failure' := Except.error.inj (result.symm.trans same)
    have after : outcome.1 =
        { session := client.session.signOut, sent, ended := client.ended + 1 } := by
      simp [outcome, fail, Client.takeIn, ends]
    rw [after]
    exact ⟨rfl, client.session.get?_signOut⟩
  case stays =>
    intro failure' same stays
    obtain rfl : failure = failure' := Except.error.inj (result.symm.trans same)
    have after : outcome.1 = { client with sent } := by
      simp [outcome, fail, Client.takeIn, stays]
    rw [after]
    exact ⟨rfl, rfl⟩
  case keeps =>
    intro a same
    cases result.symm.trans same
  case stores =>
    intro a token same
    cases result.symm.trans same

theorem sessionEffect_success (op : Operation α) (client : Client) (sent : List Request)
    (a : α) :
    let outcome :=
      { client with sent }.takeIn ⟨.ok a, op.remember a client.session, false⟩
    SessionEffect op client outcome.1 outcome.2 := by
  intro outcome
  have result : outcome.2 = .ok a := rfl
  have after : outcome.1 = { client with session := op.remember a client.session, sent } := rfl
  constructor
  case ends =>
    intro failure same
    cases result.symm.trans same
  case stays =>
    intro failure same
    cases result.symm.trans same
  case keeps =>
    intro a' same none
    obtain rfl : a = a' := Except.ok.inj (result.symm.trans same)
    rw [after, remember_of_handsOut_none none]
    exact ⟨rfl, rfl⟩
  case stores =>
    intro a' token same some
    obtain rfl : a = a' := Except.ok.inj (result.symm.trans same)
    rw [after, remember_of_handsOut_some some]
    refine ⟨rfl, rfl, ?_, ?_⟩
    · intro kept
      dsimp only
      rw [Session.get?_set, if_pos rfl]
      obtain ⟨entries, present⟩ := Option.ne_none_iff_exists'.mp kept
      rw [present, Option.map_some]
    · intro key different
      dsimp only
      rw [Session.get?_set, if_neg different]

theorem sessionEffect_settle (op : Operation α) (client : Client) (sent : List Request)
    (answer : Except Failure Response) :
    let outcome := { client with sent }.takeIn (op.settle client.session answer)
    SessionEffect op client outcome.1 outcome.2 := by
  unfold settle
  cases answer with
  | error failure => exact sessionEffect_fail op client sent failure
  | ok response =>
      dsimp only
      split
      · cases op.readAnswer response.body with
        | error fault => exact sessionEffect_fail op client sent (.unexpected fault.message)
        | ok a => exact sessionEffect_success op client sent a
      · exact sessionEffect_fail op client sent (.ofStatus response.status response.body)

/-- An operation succeeds exactly when the server tells of a success that can be read. -/
theorem settle_eq_ok_iff (op : Operation α) (session : Session)
    (answer : Except Failure Response) (a : α) :
    (op.settle session answer).result = .ok a ↔
      ∃ response, answer = .ok response ∧ response.isSuccess = true ∧
        op.readAnswer response.body = .ok a := by
  unfold settle
  cases answer with
  | error failure => simp [fail_result]
  | ok response =>
      cases success : response.isSuccess with
      | false => simp [success, fail_result]
      | true => cases read : op.readAnswer response.body <;> simp [success, read, fail_result]

/-- A readable success is taken in. -/
theorem settle_of_readable {op : Operation α} {session : Session} {response : Response} {a : α}
    (success : response.isSuccess = true) (readable : op.readAnswer response.body = .ok a) :
    op.settle session (.ok response) = ⟨.ok a, op.remember a session, false⟩ := by
  unfold settle
  simp only [success, if_true, readable]

theorem request?_eq_none {op : Operation α} {session : Session} (needs : ¬ op.IsSignIn)
    (lacks : session.LacksToken) : op.request? session = none := by
  unfold request?
  rw [← needsToken_eq_false_iff, Bool.not_eq_false] at needs
  rw [if_pos needs, (session.token?_eq_none_iff).mpr lacks, Option.map_none]

theorem request?_eq_some {op : Operation α} {session : Session}
    (can : op.IsSignIn ∨ ¬ session.LacksToken) :
    ∃ bearer, (op.IsSignIn → bearer = none) ∧
      (¬ op.IsSignIn → bearer = session.get? Session.tokenKey) ∧
      op.request? session = some ⟨op.method, op.url, bearer, op.body⟩ := by
  by_cases signIn : op.IsSignIn
  · refine ⟨none, fun _ => rfl, fun other => absurd signIn other, ?_⟩
    unfold request?
    rw [(needsToken_eq_false_iff op).mpr signIn]
    rfl
  · have kept : ¬ session.LacksToken := can.resolve_left signIn
    refine ⟨session.get? Session.tokenKey, fun same => absurd same signIn, fun _ => rfl, ?_⟩
    rw [← needsToken_eq_false_iff, Bool.not_eq_false] at signIn
    unfold request?
    rw [if_pos signIn, Session.token?_eq_get? kept]
    cases found : session.get? Session.tokenKey with
    | none => exact absurd (Or.inl found) kept
    | some token => rfl

/-- The request of an operation is made with its method and for its path. -/
theorem request?_eq {op : Operation α} {session : Session} {request : Request}
    (asked : op.request? session = some request) :
    request.method = op.method ∧ request.url = op.url := by
  unfold request? at asked
  split at asked
  · obtain ⟨token, -, rfl⟩ := Option.map_eq_some_iff.mp asked
    exact ⟨rfl, rfl⟩
  · cases asked
    exact ⟨rfl, rfl⟩

theorem call_silent (transport : Transport) {op : Operation α} {client : Client}
    (needs : ¬ op.IsSignIn) (lacks : client.session.LacksToken) :
    (op.call transport).perform client = client.takeIn (fail client.session .notSignedIn) := by
  rw [perform_call, request?_eq_none needs lacks]

end Operation

end GrantConsole.Api
