import GrantConsole.Api.Failure
import GrantConsole.Api.Request

/-!
# A scripted server

A server that answers from a script: each request takes the next reply, which may leave it open.
After the last reply, rules for methods and beginnings of paths answer; a request that none is for
stays open.
-/

namespace GrantConsole.Console

open GrantConsole.Api

inductive Reply
  | answer (response : Response)
  /-- The request does not get through, or the answer breaks off. -/
  | broken (why : String)
deriving Repr, DecidableEq

def Reply.outcome : Reply → Except Failure Response
  | answer response => .ok response
  | broken why => .error (.transport why)

structure StandingReply where
  method : String
  /-- How the paths begin that this reply is for. -/
  start : String
  reply : Reply
deriving Repr, DecidableEq

structure Server where
  replies : List (Option Reply) := []
  standing : List StandingReply := []
deriving Repr, DecidableEq

namespace Server

def standingReply? (s : Server) (request : Request) : Option Reply :=
  (s.standing.find? fun r =>
    r.method == request.method.word && r.start.isPrefixOf request.url).map StandingReply.reply

/-- The reply to a request, if it gets one at once. -/
def take (s : Server) (request : Request) : Option Reply × Server :=
  match s.replies with
  | reply :: replies => (reply, { s with replies })
  | [] => (s.standingReply? request, s)

end Server

end GrantConsole.Console
