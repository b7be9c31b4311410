import GrantConsole.Proofs.Host.Relayed
import GrantConsole.Proofs.Url.Decoded
import Mathlib.Logic.Function.Basic

/-!
# What the URL of an endpoint names

The URL of an endpoint falls into segments at its slashes, and the segments that stand for ids and
names are decoded to these. So an endpoint has one URL for two choices of records only when the
choices are the same.
-/

namespace GrantConsole.Api

open GrantConsole.Url

/-! ## Segments -/

theorem piecesAt_append (mark : Char) (before after : String) :
    piecesAt mark (before ++ String.singleton mark ++ after) =
      piecesAt mark before ++ piecesAt mark after := by
  have whole : (before ++ String.singleton mark ++ after).toList =
      before.toList ++ mark :: after.toList := by
    simp
  rw [piecesAt, whole, List.splitOn_append_cons_self, List.map_append]
  rfl

theorem piecesAt_encode (s : String) : piecesAt '/' (encode s) = [encode s] := by
  have free : '/' ∉ (encode s).toList := not_mem_encode (by decide) (by decide) s
  rw [piecesAt, List.splitOn_eq_singleton free, List.map_singleton, String.ofList_toList]

/-- An encoded text after a slash is a segment of its own. -/
theorem piecesAt_append_encode {start base : String} (slash : start = base ++ "/") (s : String) :
    piecesAt '/' (start ++ encode s) = piecesAt '/' base ++ [encode s] := by
  rw [slash, ← piecesAt_encode s]
  exact piecesAt_append '/' base (encode s)

/-- A fixed segment between slashes is one as well. -/
theorem piecesAt_append_fixed {url middle name : String} (between : middle = "/" ++ name ++ "/")
    (s : String) :
    piecesAt '/' (url ++ middle ++ encode s) = piecesAt '/' url ++ piecesAt '/' name ++
      [encode s] := by
  have parts : url ++ middle = url ++ "/" ++ name ++ "/" := by
    rw [between, ← String.append_assoc, ← String.append_assoc]
  rw [piecesAt_append_encode parts]
  exact congrArg (· ++ [encode s]) (piecesAt_append '/' url name)

/-- What the segments with these numbers stand for. -/
def argumentsAt (places : List Nat) (url : String) : Option (List String) :=
  places.mapM fun place => (piecesAt '/' url)[place]?.bind decode?

/-- An endpoint for one record. -/
structure NamesOne (place : Nat) (endpoint : String → String) : Prop where
  /-- The segment stands for the record. -/
  told : ∀ id, argumentsAt [place] (endpoint id) = some [id]
  apart : Function.Injective endpoint

/-- An endpoint for two records. -/
structure NamesTwo (places : Nat × Nat) (endpoint : String → String → String) : Prop where
  /-- The segments stand for the records, each for its own. -/
  told : ∀ id other, argumentsAt [places.1, places.2] (endpoint id other) = some [id, other]
  apart : Function.Injective2 endpoint

theorem namesOne_of_segment {place : Nat} {endpoint : String → String}
    (segment : ∀ id, (piecesAt '/' (endpoint id))[place]? = some (encode id)) :
    NamesOne place endpoint := by
  have told : ∀ id, argumentsAt [place] (endpoint id) = some [id] := by
    intro id
    simp [argumentsAt, segment id, decode?_encode]
  refine ⟨told, fun id id' same => ?_⟩
  have both : some [id] = some [id'] := by rw [← told id, same, told id']
  simpa using both

theorem namesTwo_of_segments {places : Nat × Nat} {endpoint : String → String → String}
    (first : ∀ id other, (piecesAt '/' (endpoint id other))[places.1]? = some (encode id))
    (second : ∀ id other, (piecesAt '/' (endpoint id other))[places.2]? = some (encode other)) :
    NamesTwo places endpoint := by
  have told : ∀ id other,
      argumentsAt [places.1, places.2] (endpoint id other) = some [id, other] := by
    intro id other
    simp [argumentsAt, first id other, second id other, decode?_encode]
  refine ⟨told, fun id id' other other' same => ?_⟩
  have both : some [id, other] = some [id', other'] := by
    rw [← told id other, same, told id' other']
  simpa using both

/-! ## The endpoints of the server -/

namespace Endpoint

/-- The records of a collection stand under the name of the collection. -/
theorem piecesAt_item {R : Type} [Resource R] (served : Served R) (id : String) :
    ∃ name, piecesAt '/' (item R id) = ["", "api", "v1", name, encode id] := by
  have under (base name : String) (slash : collection R = base ++ "/")
      (pieces : piecesAt '/' base = ["", "api", "v1", name]) :
      ∃ name, piecesAt '/' (item R id) = ["", "api", "v1", name, encode id] := by
    refine ⟨name, ?_⟩
    rw [item, piecesAt_append_encode slash, pieces]
    rfl
  cases served with
  | grant => exact under "/api/v1/grants" "grants" (by decide) (by decide)
  | expense => exact under "/api/v1/grant-expenses" "grant-expenses" (by decide) (by decide)
  | approval => exact under "/api/v1/grant-approvals" "grant-approvals" (by decide) (by decide)
  | category => exact under "/api/v1/grant-categories" "grant-categories" (by decide) (by decide)
  | role => exact under "/api/v1/grant-roles" "grant-roles" (by decide) (by decide)
  | rule => exact under "/api/v1/rules" "rules" (by decide) (by decide)
  | user => exact under "/api/v1/users" "users" (by decide) (by decide)

theorem piecesAt_grantRules (grant : String) :
    piecesAt '/' (grantRules grant) = ["", "api", "v1", "rules", "grant", encode grant] := by
  have slash : basePath ++ "/rules/grant/" = "/api/v1/rules/grant" ++ "/" := by decide
  have fixed : piecesAt '/' "/api/v1/rules/grant" = ["", "api", "v1", "rules", "grant"] := by
    decide
  rw [grantRules, piecesAt_append_encode slash, fixed]
  rfl

theorem piecesAt_ruleTemplate (grant template : String) :
    piecesAt '/' (ruleTemplate grant template) =
      ["", "api", "v1", "rules", "grant", encode grant, "template", encode template] := by
  have between : "/template/" = "/" ++ "template" ++ "/" := by decide
  have fixed : piecesAt '/' "template" = ["template"] := by decide
  have url : ruleTemplate grant template =
      grantRules grant ++ "/template/" ++ encode template := rfl
  rw [url, piecesAt_append_fixed between, piecesAt_grantRules, fixed]
  rfl

theorem piecesAt_grantRoles (grant : String) :
    piecesAt '/' (grantRoles grant) = ["", "api", "v1", "grant-roles", "grant", encode grant] := by
  have slash : basePath ++ "/grant-roles/grant/" = "/api/v1/grant-roles/grant" ++ "/" := by decide
  have fixed : piecesAt '/' "/api/v1/grant-roles/grant" =
      ["", "api", "v1", "grant-roles", "grant"] := by
    decide
  rw [grantRoles, piecesAt_append_encode slash, fixed]
  rfl

theorem piecesAt_userRole (grant user : String) :
    piecesAt '/' (userRole grant user) =
      ["", "api", "v1", "grant-roles", "grant", encode grant, "user", encode user] := by
  have between : "/user/" = "/" ++ "user" ++ "/" := by decide
  have fixed : piecesAt '/' "user" = ["user"] := by decide
  have url : userRole grant user = grantRoles grant ++ "/user/" ++ encode user := rfl
  rw [url, piecesAt_append_fixed between, piecesAt_grantRoles, fixed]
  rfl

theorem piecesAt_projection (grant : String) :
    piecesAt '/' (projection grant) = ["", "api", "v1", "grant-projection", encode grant] := by
  have slash : basePath ++ "/grant-projection/" = "/api/v1/grant-projection" ++ "/" := by decide
  have fixed : piecesAt '/' "/api/v1/grant-projection" = ["", "api", "v1", "grant-projection"] := by
    decide
  rw [projection, piecesAt_append_encode slash, fixed]
  rfl

end Endpoint

/-- What can be read back from the URLs of the console. -/
structure UrlsNameRecords : Prop where
  encoded : ∀ s, Encoded (encode s).toList
  decoded : ∀ s, decode? (encode s) = some s
  item : ∀ {R : Type} [Resource R], Served R → NamesOne 4 (Endpoint.item R)
  grantRules : NamesOne 5 Endpoint.grantRules
  ruleTemplate : NamesTwo (5, 7) Endpoint.ruleTemplate
  grantRoles : NamesOne 5 Endpoint.grantRoles
  userRole : NamesTwo (5, 7) Endpoint.userRole
  projection : NamesOne 4 Endpoint.projection
  /-- The path and the pairs asked of it are read from the URL. -/
  asked : ∀ {path : String} {pairs : List (String × String)}, '?' ∉ path.toList → pairs ≠ [] →
    (∀ pair ∈ pairs, PlainKey pair.1) → readAsked (withQuery path pairs) = some (path, pairs)

/-- Every URL tells what it was made from. -/
theorem urls_name_records : UrlsNameRecords where
  encoded := encoded_encode
  decoded := decode?_encode
  item served := by
    refine namesOne_of_segment fun id => ?_
    obtain ⟨name, pieces⟩ := Endpoint.piecesAt_item served id
    rw [pieces]
    rfl
  grantRules := by
    refine namesOne_of_segment fun grant => ?_
    rw [Endpoint.piecesAt_grantRules]
    rfl
  ruleTemplate := by
    refine namesTwo_of_segments (fun grant template => ?_) fun grant template => ?_ <;>
    · rw [Endpoint.piecesAt_ruleTemplate]
      rfl
  grantRoles := by
    refine namesOne_of_segment fun grant => ?_
    rw [Endpoint.piecesAt_grantRoles]
    rfl
  userRole := by
    refine namesTwo_of_segments (fun grant user => ?_) fun grant user => ?_ <;>
    · rw [Endpoint.piecesAt_userRole]
      rfl
  projection := by
    refine namesOne_of_segment fun grant => ?_
    rw [Endpoint.piecesAt_projection]
    rfl
  asked := readAsked_withQuery

/-- Marks inside of names and values stay inside of them. -/
theorem urls_name_records_marks :
    argumentsAt [5, 7] (Endpoint.ruleTemplate "a/template/b" "c?d=e&f#%2F") =
        some ["a/template/b", "c?d=e&f#%2F"] ∧
      Endpoint.ruleTemplate "a/template/b" "c" ≠ Endpoint.ruleTemplate "a" "b/template/c" ∧
      readAsked (withQuery "/api/v1/rules/" [("kwargs", "\x7b\"a\":\"&b=ü\"\x7d"), ("skip", "")]) =
        some ("/api/v1/rules/", [("kwargs", "\x7b\"a\":\"&b=ü\"\x7d"), ("skip", "")]) := by
  refine ⟨urls_name_records.ruleTemplate.told _ _, fun same => ?_, ?_⟩
  · have grants : "a/template/b" = "a" := (urls_name_records.ruleTemplate.apart same).1
    exact absurd grants (by decide)
  · have plain : ∀ pair ∈ [("kwargs", "\x7b\"a\":\"&b=ü\"\x7d"), ("skip", "")],
        PlainKey pair.1 := by
      rw [List.forall_mem_cons, List.forall_mem_singleton]
      exact ⟨by decide, by decide⟩
    exact urls_name_records.asked (by decide) (by decide) plain

end GrantConsole.Api
