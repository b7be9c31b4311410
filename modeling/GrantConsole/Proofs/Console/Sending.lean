import GrantConsole.Proofs.Api.Call
import GrantConsole.Proofs.Console.Moves

/-!
# Requests and the token

A move sends one request at most: that of the call which became due first, as the session is at that
time. So each request of a run carries the token that was kept when it was sent; only the request
for a token carries none.
-/

namespace GrantConsole.Api

/-- The request asks for a token. -/
def Request.AsksForToken (r : Request) : Prop :=
  r.method = .post ∧ r.url = "/api/v1/login/access-token"

/-- The session keeps a token, and the request carries it. -/
def Request.CarriesTokenOf (r : Request) (session : Session) : Prop :=
  ∃ token, token ≠ "" ∧ session.get? Session.tokenKey = some token ∧ r.bearer = some token

namespace Operation

variable {α : Type} {op : Operation α} {session : Session} {r : Request}

theorem asksForToken_of_isSignIn (signIn : op.IsSignIn) (asked : op.request? session = some r) :
    r.AsksForToken := by
  obtain ⟨email, password⟩ := signIn
  cases asked
  exact ⟨rfl, rfl⟩

theorem carriesTokenOf_of_not_isSignIn (needs : ¬ op.IsSignIn)
    (asked : op.request? session = some r) : r.CarriesTokenOf session := by
  have kept : ¬ session.LacksToken := fun lacks => by
    rw [request?_eq_none needs lacks] at asked
    cases asked
  obtain ⟨bearer, -, carried, same⟩ := request?_eq_some (.inr kept : op.IsSignIn ∨ _)
  cases asked.symm.trans same
  cases found : session.get? Session.tokenKey with
  | none => exact absurd (.inl found) kept
  | some token =>
    exact ⟨token, fun empty => kept (.inr (empty ▸ found)), found, (carried needs).trans found⟩

/-- A request that does not ask for a token carries the one that is kept. -/
theorem request?_carriesTokenOf (asked : op.request? session = some r) (other : ¬ r.AsksForToken) :
    r.CarriesTokenOf session :=
  carriesTokenOf_of_not_isSignIn (fun signIn => other (asksForToken_of_isSignIn signIn asked)) asked

end Operation

end GrantConsole.Api

namespace GrantConsole.Console.Tab

open GrantConsole.Api GrantConsole.Screen GrantConsole.Url

/-- A move sends a request. -/
structure Sends (tab : Tab) (request : Request) (after : Tab) : Prop where
  moves : Moves tab after
  sent : after.sent = tab.sent ++ [request]

section Sending

variable {tab after final : Tab}

/-- A piece of work sends nothing, or it sends the request of a call as the session is. -/
theorem Works.sent_cases {due : Due} (works : Works tab due after) :
    after.sent = tab.sent ∨
      ∃ (c : Page.Call) (request : Request), c.operation.request? tab.session = some request ∧
        after.sent = tab.sent ++ [request] := by
  cases works with
  | mounts => exact .inl (takeTurn_sent ..)
  | calls page c =>
    have sent := tab.send_sent page c
    cases asked : c.operation.request? tab.session with
    | none => exact .inl (by rw [sent, asked, Option.toList_none, List.append_nil])
    | some request => exact .inr ⟨c, request, asked, by rw [sent, asked]; rfl⟩
  | goes path => exact .inl (goto_sent ..)
  | signsOut => exact .inl (goto_sent ..)
  | expires => exact .inl (goto_sent ..)
  | left own elsewhere => exact .inl rfl
  | seen => exact .inl rfl

/-- A move sends nothing or the request of a call, as the session is before it. -/
theorem Moves.sent_cases (moves : Moves tab after) :
    after.sent = tab.sent ∨
      ∃ (c : Page.Call) (request : Request), c.operation.request? tab.session = some request ∧
        after.sent = tab.sent ++ [request] := by
  cases moves with
  | works next =>
    obtain ⟨due, rest, -, works⟩ := tab.works_of_next next
    exact works.sent_cases
  | acts rests offered entry => exact .inl (takeTurn_sent ..)
  | signsOut rests => exact .inl rfl
  | visits rests path => exact .inl (goto_sent ..)
  | answers rests held r => exact .inl (settleCall_sent ..)
  | dismisses id => exact .inl rfl
  | waits ms => exact .inl rfl
  | keeps key value => cases value <;> exact .inl rfl
  | dresses strays => exact .inl rfl

/-- A request that has been sent was sent before the move, or is the one that it sends. -/
theorem Moves.sent_getElem? (moves : Moves tab after) {i : Nat} {request : Request}
    (sent : after.sent[i]? = some request) :
    tab.sent[i]? = some request ∨ tab.sent.length = i ∧ Sends tab request after ∧
      ∃ c : Page.Call, c.operation.request? tab.session = some request := by
  rcases moves.sent_cases with same | ⟨c, last, asked, added⟩
  · exact .inl (same ▸ sent)
  · rw [added, List.getElem?_append] at sent
    split at sent
    · exact .inl sent
    · rename_i beyond
      rw [List.getElem?_singleton, Option.ite_none_right_eq_some, Option.some.injEq] at sent
      obtain ⟨none, rfl⟩ := sent
      exact .inr ⟨by omega, ⟨moves, added⟩, c, asked⟩

/-- Each request beyond those sent at the start was sent by one of the moves, in this order. -/
theorem Leads.sends (leads : Leads tab final) {i : Nat} (new : tab.sent.length ≤ i)
    {request : Request} (sent : final.sent[i]? = some request) :
    ∃ before after, Leads tab before ∧ Sends before request after ∧ Leads after final ∧
      before.sent.length = i ∧
      ∃ c : Page.Call, c.operation.request? before.session = some request := by
  induction leads with
  | refl =>
    rw [List.getElem?_eq_none new] at sent
    cases sent
  | @tail mid final leads moves ih =>
    rcases moves.sent_getElem? sent with old | ⟨nth, sends, asked⟩
    · obtain ⟨before, after, leads, sends, later, rest⟩ := ih old
      exact ⟨before, after, leads, sends, later.tail moves, rest⟩
    · exact ⟨mid, final, leads, sends, .refl, nth, asked⟩

end Sending

end GrantConsole.Console.Tab
