import GrantConsole.Domain.Account
import GrantConsole.Json.Free
import GrantConsole.Json.Message
import GrantConsole.Number.Decimal
import GrantConsole.Number.Layout

/-!
# What operators type

The reading of amounts, dates, template parameters, credentials and new users from forms, and what
is wrong with them if they cannot be used.
-/

namespace GrantConsole

open GrantConsole.Json GrantConsole.Number GrantConsole.Text

/-- What is wrong with a form. -/
inductive FormFault
  | badAmount (raw : String)
  | parametersNoObject
  | parametersNoJson (fault : Fault)
  | credentialsMissing
  | emailMissing
  | passwordTooShort
  | grantMissing
  | templateMissing
  | userMissing
deriving Repr, DecidableEq

/-- The shortest password that the server takes. -/
def minPasswordLength : Nat := 8

def FormFault.message : FormFault → String
  | badAmount raw => "not a valid amount: " ++ raw
  | parametersNoObject => "template parameters must be a JSON object"
  | parametersNoJson fault => "template parameters are not valid JSON: " ++ fault.message
  | credentialsMissing => "Enter both email and password."
  | emailMissing => "Email is required."
  | passwordTooShort =>
    "Password must be at least " ++ toString minPasswordLength ++ " characters."
  | grantMissing => "Select a grant first."
  | templateMissing => "Choose a template."
  | userMissing => "Choose a user."

/-- A finite amount; commas in it do not count. -/
def readAmountText (raw : String) : Except FormFault Binary64 :=
  match readBinary64? ((trim raw).toList.filter (· != ',')) with
  | some x => if x.isFinite then .ok x else .error (.badAmount raw)
  | none => .error (.badAmount raw)

/-- The moment at which a day begins; what names a moment already stays as it is. -/
def startOfDay (date : String) : String :=
  let day := trim date
  if day.isEmpty || day.toList.contains 'T' then day else day ++ "T00:00:00"

/-- The day of a moment. -/
def dayOf (moment : String) : String :=
  String.ofList (moment.toList.takeWhile (· != 'T'))

/-- Template parameters: a JSON object, or nothing. -/
def readParameters (raw : String) : Except FormFault Json :=
  if isBlankText raw then .ok (.object [])
  else
    match Json.parse raw with
    | .ok (.object members) => .ok (.object members)
    | .ok _ => .error .parametersNoObject
    | .error fault => .error (.parametersNoJson fault)

def checkCredentials (email password : String) : Except FormFault Unit :=
  if isBlankText email || password.isEmpty then .error .credentialsMissing else .ok ()

/-- A text, unless it is empty. -/
def nonempty? (s : String) : Option String :=
  if s.isEmpty then none else some s

/-- What is sent to make a drafted user with a password. -/
def newUser (draft : User) (password : String) : Except FormFault NewUser :=
  let email := trim draft.email
  if email.isEmpty then .error .emailMissing
  else if password.length < minPasswordLength then .error .passwordTooShort
  else
    .ok ⟨email, password, draft.fullName.bind nonempty?, draft.active, draft.superuser⟩

end GrantConsole
