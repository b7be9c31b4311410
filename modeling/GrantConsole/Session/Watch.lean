import GrantConsole.Session.Access

/-!
# Watchers of the session

Three kinds of watchers react to what becomes of a session: a guard decides once whether a page may
load, a follower goes where its wish points, and an expiry watcher goes to the sign-in page when the
session has expired. A watcher is due when it is installed and when a value that it has read is set.
Due watchers run in the order in which they became due.
-/

namespace GrantConsole

inductive Watcher
  /-- Decides on its first run; it reads nothing that is set later. -/
  | guard
  /-- Reads the wish with a number. -/
  | follower (wish : Nat)
  | expiry
deriving Repr, DecidableEq

/-- What a watcher did. -/
inductive Reaction
  | load
  | guardTo (path : String)
  | goTo (path : String)
  | expireTo (path : String)
deriving Repr, DecidableEq

structure Watch where
  session : Session
  expired : Bool := false
  /-- Where the followers are to go, one wish for each. -/
  wishes : List (Option String) := []
  /-- The watchers that have run and read something. -/
  readers : List Watcher := []
  due : List Watcher := []
deriving Repr

namespace Watch

/-- The readers of a value become due, those that are due already stay in their place. -/
def wake (w : Watch) (reads : Watcher → Bool) : Watch :=
  { w with due := w.due ++ (w.readers.filter reads).filter fun r => !w.due.contains r }

def install (w : Watch) (watcher : Watcher) : Watch :=
  { w with due := w.due ++ [watcher] }

def installFollower (w : Watch) : Watch :=
  { w with wishes := w.wishes ++ [none] }.install (.follower w.wishes.length)

def setExpired (w : Watch) (expired : Bool) : Watch :=
  { w with expired }.wake fun r => r == Watcher.expiry

def setWish (w : Watch) (wish : Nat) (path : Option String) : Watch :=
  { w with wishes := w.wishes.set wish path }.wake fun r => r == Watcher.follower wish

/-- Sets the wish of the follower installed last. -/
def goto (w : Watch) (path : String) : Watch :=
  if w.wishes.isEmpty then w else w.setWish (w.wishes.length - 1) (some path)

/-- The wish of the follower installed last. -/
def pending (w : Watch) : Option String :=
  w.wishes.getLast?.join

/-- Runs one watcher that has just been taken off the due ones. -/
def run (w : Watch) (watcher : Watcher) : Watch × List Reaction :=
  let w := { w with readers := w.readers.filter (· != watcher) ++ [watcher] }
  match watcher with
  | .guard =>
    match w.session.access with
    | .granted => (w, [.load])
    | .redirect path => (w, [.guardTo path])
  | .follower wish =>
    match (w.wishes[wish]?).join with
    | some path => (w.setWish wish none, [.goTo path])
    | none => (w, [])
  | .expiry => if w.expired then (w.setExpired false, [.expireTo signInPath]) else (w, [])

/-- Runs due watchers until none is left. A run makes at most one watcher of its kind due again, and
that one finds nothing to do. -/
def tickWith : (fuel : Nat) → Watch → Watch × List Reaction
  | 0, w => (w, [])
  | fuel + 1, w =>
    match w.due with
    | [] => (w, [])
    | watcher :: due =>
      let (w, reactions) := { w with due }.run watcher
      let (w, more) := tickWith fuel w
      (w, reactions ++ more)

def tick (w : Watch) : Watch × List Reaction :=
  tickWith ((w.due.length + 1) * (w.readers.length + w.due.length + 2)) w

end Watch

end GrantConsole
