import GrantConsole.Api.Client

/-!
# Scripted calls

A client together with the answers that its calls will get, in their order. A call that sends
nothing leaves the answers alone.
-/

namespace GrantConsole.Api

structure Script extends Client where
  answers : List (Except Failure Response) := []
  /-- Nothing can be sent from here. -/
  offline : Bool := false

namespace Script

/-- The answer to the next request. -/
def answer (s : Script) : Except Failure Response :=
  if s.offline then .error .unavailable
  else s.answers.headD (.error (.transport "no scripted response"))

def perform {α : Type} (s : Script) (op : Operation α) : Script × Except Failure α :=
  let (client, result) := (op.call fun _ => s.answer).perform s.toClient
  let client := if s.offline then { client with sent := s.sent } else client
  let answers := s.answers.drop (client.sent.length - s.sent.length)
  ({ s with toClient := client, answers }, result)

end Script

end GrantConsole.Api
