import GrantConsole.Domain.Account
import GrantConsole.Domain.Grant
import GrantConsole.Domain.Rule

/-!
# Resources

The records that the server keeps in collections. A resource has a path for its collection and,
once it is kept, an id. Collections are listed in pages.
-/

namespace GrantConsole

open GrantConsole.Record

class Resource (R : Type) extends Shaped R where
  /-- The path of the collection below the base path. -/
  collection : String
  /-- The id that the server has given, if it has. -/
  id? : R → Option String

/-- Part of a collection, with the number of all records in it. -/
structure Page (R : Type) where
  items : List R
  count : Int64
deriving Repr, DecidableEq, Inhabited

def Page.shape {R : Type} (item : Shape R) : Shape (Page R) :=
  .record "Page"
    (.cons "data" (.list item) .required <| .cons "count" .whole (.default 0) .nil)
    (fun (items, count, ()) => ⟨items, count⟩)
    (fun p => (p.items, p.count, ()))

instance {R : Type} [Shaped R] : Shaped (Page R) := ⟨Page.shape Shaped.shape⟩

instance : Resource Grant where
  collection := "/grants/"
  id? := Grant.id

instance : Resource Expense where
  collection := "/grant-expenses/"
  id? := Expense.id

instance : Resource Approval where
  collection := "/grant-approvals/"
  id? := Approval.id

instance : Resource Category where
  collection := "/grant-categories/"
  id? := Category.id

instance : Resource Role where
  collection := "/grant-roles/"
  id? := Role.id

instance : Resource Rule where
  collection := "/rules/"
  id? := Rule.id

instance : Resource User where
  collection := "/users/"
  id? u := if u.id.isEmpty then none else some u.id

end GrantConsole
