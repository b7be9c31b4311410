import GrantConsole.Domain.Resource
import GrantConsole.Url.Query

/-!
# Endpoints

The paths of the server below its base path. Ids, names and other free text stand in them as
encoded segments.
-/

namespace GrantConsole.Api

open GrantConsole.Url

def basePath : String := "/api/v1"

/-- The part of a collection that is asked for. -/
structure Window where
  skip : Nat := 0
  limit : Nat := 100
deriving Repr, DecidableEq

namespace Endpoint

def collection (R : Type) [Resource R] : String :=
  basePath ++ Resource.collection R

def item (R : Type) [Resource R] (id : String) : String :=
  collection R ++ encode id

def token : String :=
  basePath ++ "/login/access-token"

def grantRules (grant : String) : String :=
  basePath ++ "/rules/grant/" ++ encode grant

def ruleTemplates : String :=
  basePath ++ "/rules/templates"

def ruleTemplate (grant template : String) : String :=
  basePath ++ "/rules/grant/" ++ encode grant ++ "/template/" ++ encode template

def grantRoles (grant : String) : String :=
  basePath ++ "/grant-roles/grant/" ++ encode grant

def userRole (grant user : String) : String :=
  basePath ++ "/grant-roles/grant/" ++ encode grant ++ "/user/" ++ encode user

def pendingExpenses : String :=
  basePath ++ "/grant-approvals/pending-expenses"

def projection (grant : String) : String :=
  basePath ++ "/grant-projection/" ++ encode grant

/-- A path with a window asked of it. -/
def paged (path : String) (window : Window) : String :=
  withQuery path [("skip", toString window.skip), ("limit", toString window.limit)]

end Endpoint

end GrantConsole.Api
