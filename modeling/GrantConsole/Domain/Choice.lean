import GrantConsole.Text.Blank

/-!
# Closed choices

The words that records and forms choose from. Each choice has one spelling; what an operator types
may have blanks around it, and in two places another case.
-/

namespace GrantConsole

open GrantConsole.Text

/-- A word that names no choice of its kind. -/
structure UnknownWord where
  noun : String
  word : String
deriving Repr, DecidableEq

def UnknownWord.message (e : UnknownWord) : String :=
  "unknown " ++ e.noun ++ ": " ++ e.word

/-- The choice that a word spells. -/
def chooseWord {α : Type} (noun : String) (spell : α → String) (choices : List α) (word : String) :
    Except UnknownWord α :=
  match choices.find? fun a => spell a == word with
  | some a => .ok a
  | none => .error ⟨noun, word⟩

/-- A letter of the alphabet as a capital; any other character as it is. -/
def capital (c : Char) : Char :=
  if 'a' ≤ c ∧ c ≤ 'z' then Char.ofNat (c.toNat - 32) else c

def capitals (s : String) : String :=
  String.ofList (s.toList.map capital)

/-- How a clause compares the attribute of a record with its value. -/
inductive Operator
  | equal
  | notEqual
  | greater
  | less
  | atLeast
  | atMost
  | among
deriving Repr, DecidableEq, Inhabited

namespace Operator

def spelling : Operator → String
  | equal => "="
  | notEqual => "!="
  | greater => ">"
  | less => "<"
  | atLeast => ">="
  | atMost => "<="
  | among => "IN"

def all : List Operator := [equal, notEqual, greater, less, atLeast, atMost, among]

/-- The operators that a form offers. -/
def offered : List Operator := [equal, notEqual, greater, less, atLeast, atMost]

def read (s : String) : Except UnknownWord Operator :=
  let word := trim s
  if word = "in" then .ok among else chooseWord "operator" spelling all word

end Operator

/-- How a budget rule sums up the records it looks at. -/
inductive Aggregator
  | sum
  | max
  | min
  | avg
  | count
deriving Repr, DecidableEq

namespace Aggregator

def spelling : Aggregator → String
  | sum => "SUM"
  | max => "MAX"
  | min => "MIN"
  | avg => "AVG"
  | count => "COUNT"

def all : List Aggregator := [sum, max, min, avg, count]

/-- The aggregators that a form offers. -/
def offered : List Aggregator := [max, sum]

def read (s : String) : Except UnknownWord Aggregator :=
  chooseWord "aggregator" spelling all (capitals (trim s))

end Aggregator

/-- What a rule judges. -/
inductive RuleType
  | expense
  | budget
deriving Repr, DecidableEq, Inhabited

namespace RuleType

def spelling : RuleType → String
  | expense => "expense"
  | budget => "budget"

def all : List RuleType := [expense, budget]

def read (s : String) : Except UnknownWord RuleType :=
  chooseWord "rule type" spelling all (trim s)

end RuleType

/-- The rank that a user has on a grant. -/
inductive RoleType
  | owner
  | admin
  | user
deriving Repr, DecidableEq

namespace RoleType

def spelling : RoleType → String
  | owner => "owner"
  | admin => "admin"
  | user => "user"

def all : List RoleType := [owner, admin, user]

def read (s : String) : Except UnknownWord RoleType :=
  chooseWord "role type" spelling all (trim s)

end RoleType

/-- What was decided about an expense. -/
inductive Verdict
  | approved
  | rejected
deriving Repr, DecidableEq, Inhabited

namespace Verdict

def spelling : Verdict → String
  | approved => "approved"
  | rejected => "rejected"

def all : List Verdict := [approved, rejected]

end Verdict

end GrantConsole
