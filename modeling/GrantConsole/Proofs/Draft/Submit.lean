import GrantConsole.Proofs.Api.Call
import GrantConsole.Proofs.Domain.RoundTrip
import GrantConsole.Proofs.Draft.Run
import GrantConsole.Proofs.Record.Rearranged

/-!
# From draft to server and back

A submit takes a snapshot of the draft, sends it in one request and takes the answer in. The request
says all of the rule, and a success leaves a blank draft of the same grant or the rule that came
back.
-/

namespace GrantConsole

open GrantConsole.Api GrantConsole.Json GrantConsole.Record

namespace Submission

theorem needsToken_operation (s : Submission) : s.operation.needsToken = true := by
  obtain ⟨mode, rule⟩ := s
  cases mode <;> rfl

theorem readAnswer_operation (s : Submission) : s.operation.readAnswer = Rule.shape.parse := by
  obtain ⟨mode, rule⟩ := s
  cases mode <;> rfl

theorem body_operation (s : Submission) : s.operation.body = .json (Rule.shape.write s.rule) := by
  obtain ⟨mode, rule⟩ := s
  cases mode <;> rfl

/-- The request that carries a submission with a token. -/
def request (s : Submission) (token : String) : Request :=
  ⟨s.operation.method, s.operation.url, some token, s.operation.body⟩

theorem request?_operation (s : Submission) {session : Session} {token : String}
    (kept : session.token? = some token) :
    s.operation.request? session = some (s.request token) := by
  rw [Operation.request?, if_pos s.needsToken_operation, kept]
  rfl

theorem call_silent (s : Submission) (transport : Transport) {client : Client}
    (lacks : client.session.LacksToken) :
    (s.operation.call transport).perform client =
      client.takeIn (Operation.fail client.session .notSignedIn) := by
  refine Operation.call_silent transport ?_ lacks
  rw [← Operation.needsToken_eq_false_iff, s.needsToken_operation]
  exact Bool.noConfusion

/-- A success with a readable rule is taken in as that rule. -/
theorem settle_operation (s : Submission) (session : Session) {answer : Except Failure Response}
    {response : Response} (answered : answer = .ok response) (least : 200 ≤ response.status)
    (most : response.status < 300) {rule : Rule}
    (readable : Rule.shape.parse response.body = .ok rule) :
    (s.operation.settle session answer).result = .ok rule := by
  refine (Operation.settle_eq_ok_iff s.operation session answer rule).mpr
    ⟨response, answered, ?_, ?_⟩
  · simp [Response.isSuccess, least, most]
  · rw [s.readAnswer_operation]
    exact readable

end Submission

namespace RuleDraft

/-- What a submit of the draft sends. -/
def snapshot (d : RuleDraft) : Submission :=
  ⟨d.submitMode, d.rule⟩

/-- The client, the draft and the outcome after a whole submit over a transport, if the draft can be
submitted. -/
def submit (d : RuleDraft) (transport : Transport) (client : Client) :
    Option (Client × RuleDraft × SubmitOutcome) :=
  match d.beginSubmit with
  | (begun, some s) =>
    let (after, result) := (s.operation.call transport).perform client
    some (after, begun.finishSubmit result)
  | (_, none) => none

theorem submit_of_not_isSubmitting {d : RuleDraft} (free : d.isSubmitting = false)
    {transport : Transport} {client after : Client} {result : Except Failure Rule}
    (performed : (d.snapshot.operation.call transport).perform client = (after, result)) :
    d.submit transport client = some (after, d.underWay.finishSubmit result) := by
  unfold submit
  rw [beginSubmit_of_not_isSubmitting free]
  dsimp only
  rw [← snapshot, performed]

/-- The request says all of the draft: where it belongs, under which id, and the rule itself. -/
structure Carries (d : RuleDraft) (token : String) (request : Request) : Prop where
  bearer : request.bearer = some token
  create : d.rule.id = none → request.method = .post ∧ request.url = "/api/v1/rules/"
  update : ∀ id, d.rule.id = some id →
    request.method = .put ∧ request.url = "/api/v1/rules/" ++ Url.encode id
  body : ∃ v, request.body = .json v ∧
    ∀ w, Rearranged v w → Rule.shape.parse w.compact = .ok d.rule

/-- What a success leaves of a draft, given the rule that came back. -/
structure Settled (d : RuleDraft) (rule : Rule) (after : RuleDraft) (outcome : SubmitOutcome) :
    Prop where
  created : d.rule.id = none → outcome = .created rule ∧
    after = { rule := Rule.blank d.rule.grant, phase := .idle, lastError := none }
  updated : d.rule.id ≠ none → outcome = .updated ∧
    after = { rule, phase := .idle, lastError := none }

theorem carries_snapshot (d : RuleDraft) (token : String) :
    d.Carries token (d.snapshot.request token) := by
  constructor
  case bearer => rfl
  case create =>
    intro unknown
    unfold snapshot submitMode
    rw [unknown]
    exact ⟨rfl, rfl⟩
  case update =>
    intro id known
    unfold snapshot submitMode
    rw [known]
    exact ⟨rfl, rfl⟩
  case body =>
    refine ⟨_, d.snapshot.body_operation, ?_⟩
    intro w rearranged
    obtain ⟨distinct, lossless, fits⟩ := Faithful.rule
    exact rearranged.parse_compact distinct fits (Shape.writable_write distinct lossless d.rule)
      (Shape.ofJson?_write distinct lossless d.rule)

theorem settled_finishSubmit (d : RuleDraft) (rule : Rule) :
    d.Settled rule (d.underWay.finishSubmit (.ok rule)).1
      (d.underWay.finishSubmit (.ok rule)).2 := by
  unfold underWay submitMode finishSubmit
  constructor
  case created =>
    intro unknown
    rw [unknown]
    exact ⟨rfl, rfl⟩
  case updated =>
    intro known
    obtain ⟨id, known⟩ := Option.ne_none_iff_exists'.mp known
    rw [known]
    exact ⟨rfl, rfl⟩

/-- A draft that can be submitted is sent whole, once and with the token, and is settled by what
comes back; without a token it is not sent. -/
theorem submit_cycle (transport : Transport) (client : Client) {d : RuleDraft}
    (free : d.isSubmitting = false) :
    ∃ client' d' outcome, d.submit transport client = some (client', d', outcome) ∧
      (∀ token, client.session.get? Session.tokenKey = some token → token ≠ "" →
        ∃ request, client'.sent = client.sent ++ [request] ∧ d.Carries token request ∧
          ∀ response rule, transport request = .ok response → 200 ≤ response.status →
            response.status < 300 → Rule.shape.parse response.body = .ok rule →
            d.Settled rule d' outcome) ∧
      (client.session.LacksToken → client'.sent = client.sent ∧
        ∃ failure, outcome = .failed failure ∧ failure.message = "not signed in") := by
  rcases performed : (d.snapshot.operation.call transport).perform client with ⟨client', result⟩
  refine ⟨client', _, _, submit_of_not_isSubmitting free performed, ?_, ?_⟩
  · intro token stored something
    have kept : ¬ client.session.LacksToken := by
      rintro (missing | empty)
      · cases missing.symm.trans stored
      · exact something (Option.some.inj (stored.symm.trans empty))
    have token? := (Session.token?_eq_get? kept).trans stored
    rw [Operation.perform_call, d.snapshot.request?_operation token?] at performed
    obtain ⟨rfl, rfl⟩ := Prod.mk.inj performed
    refine ⟨_, rfl, d.carries_snapshot token, ?_⟩
    intro response rule answered least most readable
    rw [d.snapshot.settle_operation client.session answered least most readable]
    exact d.settled_finishSubmit rule
  · intro lacks
    rw [d.snapshot.call_silent transport lacks] at performed
    obtain ⟨rfl, rfl⟩ := Prod.mk.inj performed
    refine ⟨rfl, .notSignedIn, ?_, rfl⟩
    exact congrArg Prod.snd (finishSubmit_error (d := d.underWay) rfl .notSignedIn)

/-- A new rule, answered with the rule as it is kept. -/
theorem submit_cycle_created :
    let made : Rule := { grant := "g", name := "cap", filters := [{ field := "amount" }] }
    let kept : Rule := { made with id := some "7" }
    let client : Client := { session := ⟨some [(Session.tokenKey, "t")]⟩ }
    ∃ client' request,
      (load made).submit (fun _ => .ok ⟨201, (Rule.shape.write kept).compact⟩) client =
        some (client', new "g", .created kept) ∧
      client'.sent = [request] ∧ (load made).Carries "t" request := by
  intro made kept client
  have readable : Rule.shape.parse (Rule.shape.write kept).compact = .ok kept :=
    Shape.parse_write Faithful.rule.distinct Faithful.rule.lossless Faithful.rule.fits kept
  obtain ⟨client', d', outcome, submitted, signedIn, -⟩ := submit_cycle
    (fun _ => .ok ⟨201, (Rule.shape.write kept).compact⟩) client (d := load made) rfl
  obtain ⟨request, sent, carries, settled⟩ := signedIn "t" rfl (by decide)
  obtain ⟨rfl, rfl⟩ := (settled _ kept rfl (by decide) (by decide) readable).created rfl
  exact ⟨client', request, submitted, sent, carries⟩

end RuleDraft

end GrantConsole
