import GrantConsole.Proofs.Console.Cost
import GrantConsole.Proofs.Screen.Questions

/-!
# Questions of the pages

What was said of the screens that delete is said of pages. Only those seven ever ask; the others
have no record to delete.
-/

namespace GrantConsole.Console

open GrantConsole.Api GrantConsole.Screen

namespace Page

/-- The record that an act asks to delete. -/
def Act.asks? : Act → Option String
  | grants (.delete id) => some id
  | expenses (.delete id) => some id
  | approvals (.delete id) => some id
  | categories (.delete id) => some id
  | roles (.delete id) => some id
  | users (.delete id) => some id
  | rules (.delete id) => some id
  | _ => none

/-- The act answers yes to a question. -/
def Act.confirms : Act → Bool
  | grants .confirm => true
  | expenses .confirm => true
  | approvals .confirm => true
  | categories .confirm => true
  | roles .confirm => true
  | users .confirm => true
  | rules .confirm => true
  | _ => false

/-- The record that a page asks about: its dialog is the question whether to delete it. -/
def asked? : Page → Option String
  | grants s => (Grants.rows.listing s).asked?
  | expenses s => (Expenses.rows.listing s).asked?
  | approvals s => (Approvals.rows.listing s).asked?
  | categories s => (Categories.rows.listing s).asked?
  | roles s => (Roles.rows.listing s).asked?
  | users s => (Users.rows.listing s).asked?
  | rules s => (Rules.rows.listing s).asked?
  | _ => none

/-- The ids of the records that a page can delete, as they are listed. -/
def listed : Page → List String
  | grants s => Listing.ids (Grants.rows.listing s).items
  | expenses s => Listing.ids (Expenses.rows.listing s).items
  | approvals s => Listing.ids (Approvals.rows.listing s).items
  | categories s => Listing.ids (Categories.rows.listing s).items
  | roles s => Listing.ids (Roles.rows.listing s).items
  | users s => Listing.ids (Users.rows.listing s).items
  | rules s => Listing.ids (Rules.rows.listing s).items
  | _ => []

/-- Where a record that a page can delete is kept. -/
def item? (p : Page) (id : String) : Option String :=
  match p with
  | grants _ => some (Endpoint.item Grant id)
  | expenses _ => some (Endpoint.item Expense id)
  | approvals _ => some (Endpoint.item Approval id)
  | categories _ => some (Endpoint.item Category id)
  | roles _ => some (Endpoint.item Role id)
  | users _ => some (Endpoint.item User id)
  | rules _ => some (Endpoint.item Rule id)
  | _ => none

/-- What the buttons that delete say. -/
def deleteLabel : Page → String
  | roles _ => "Remove"
  | _ => "Delete"

@[simp] theorem asked?_opened (place : Place) (session : Session) :
    (opened place session).asked? = none := by
  cases place <;> rfl

@[simp] theorem asked?_moved (p : Page) (place : Place) : (p.moved place).asked? = p.asked? := by
  fun_cases moved place p <;> rfl

@[simp] theorem asked?_mounted (p : Page) (session : Session) :
    (p.mounted session).state.asked? = p.asked? := by
  fun_cases mounted p session
  · cases p with
    | expenses s => exact s.asked?_mounted session
    | roles s => exact s.asked?_mounted session
    | rules s => exact s.asked?_reload session
    | _ => rfl
  · rfl
  · rfl

/-- A page asks about a record because an act asked to delete it, or because it did before. -/
theorem asked?_handle {p : Page} {session : Session} {act : Act} {entry : Entry} {id : String}
    (own : act.kind = p.kind)
    (asks : (p.handle session act entry).state.asked? = some id) :
    act.asks? = some id ∨ act.asks? = none ∧ p.asked? = some id := by
  cases act with
  | grants a | expenses a | approvals a | categories a | roles a | users a | rules a =>
    cases p <;> cases own
    rename_i s
    rcases s.asked?_handle asks with rfl | ⟨other, asked⟩
    · exact .inl rfl
    · exact .inr ⟨by cases a <;> first | rfl | exact absurd rfl (other _), asked⟩
  | signIn a | ruleEditor a =>
    cases p <;> cases own
    cases asks

/-- A deletion is called for by the answer yes only, and it is that of the record asked about. -/
theorem call_delete {p : Page} {session : Session} {act : Act} {entry : Entry} {c : Call}
    (called : .call c ∈ (p.handle session act entry).commands)
    (deletes : c.operation.method = .delete) :
    act.confirms = true ∧ (p.handle session act entry).commands = [.call c] ∧
      ∃ id, p.asked? = some id ∧ p.item? id = some c.operation.url := by
  have alone : (p.handle session act entry).commands = [.call c] := by
    obtain ⟨d, alone⟩ := List.length_eq_one_iff.mp
      (Nat.le_antisymm (p.handle_short session act entry) (List.length_pos_of_mem called))
    rw [alone] at called ⊢
    rw [List.mem_singleton.mp called]
  refine (fun h => ⟨h.1, alone, h.2⟩) (?_ : act.confirms = true ∧ _)
  revert called
  fun_cases handle p session act entry
  case case2 s a | case3 s a | case4 s a | case5 s a | case6 s a | case7 s a | case8 s a =>
    intro called
    obtain ⟨c, made, rfl⟩ := (Turn.call_mem_map ..).mp called
    obtain ⟨rfl, id, asked, rfl⟩ := s.call_delete made deletes
    exact ⟨rfl, id, asked, rfl⟩
  case case1 s a =>
    intro called
    obtain ⟨c, made, rfl⟩ := (Turn.call_mem_map ..).mp called
    cases deletes
  case case9 s a =>
    intro called
    obtain ⟨c, made, rfl⟩ := (Turn.call_mem_map ..).mp called
    obtain ⟨rfl, submission, -, rfl⟩ := RuleEditor.call_handle made
    rcases submission.operation_method with post | put
    · cases post.symm.trans deletes
    · cases put.symm.trans deletes
  case case10 =>
    intro called
    cases called

/-- The answer yes deletes the record that was asked about, and does nothing else. -/
theorem handle_confirm {p : Page} {a : Act} {id : String} (own : a.kind = p.kind)
    (confirms : a.confirms = true) (asked : p.asked? = some id) (session : Session) (entry : Entry) :
    ∃ c, p.handle session a entry = ⟨p, session, [.call c]⟩ ∧ c.operation.method = .delete ∧
      p.item? id = some c.operation.url := by
  cases a with
  | grants a | expenses a | approvals a | categories a | roles a | users a | rules a =>
    cases p <;> cases own
    cases a <;> cases confirms
    exact ⟨_, congrArg (Turn.map _ _) (Rows.confirmed_of_asked asked session), rfl, rfl⟩
  | signIn a | ruleEditor a => cases confirms

/-- Neither the mount of a page nor an answer calls for a deletion: it would cost too much. -/
theorem call_mounted_method {p : Page} {session : Session} {c : Call}
    (called : .call c ∈ (p.mounted session).commands) : c.operation.method = .get := by
  have cheap := Nat.lt_of_le_of_lt (price_le_of_mem Call.cost called)
    (Nat.lt_of_lt_of_le (p.cost_mounted session) (p.kind.mountCost_le))
  unfold Call.cost price at cheap
  split at cheap
  · assumption
  · omega

theorem call_settle_method {page : Option Page} {session : Session} {c d : Call}
    {result : Except Failure c.Answer}
    (called : .call d ∈ (settle page session c result).commands) : d.operation.method = .get := by
  have cheap := Nat.le_trans (price_le_of_mem Call.cost called)
    (cost_settle page session c result)
  unfold Call.cost price afterPrice at cheap
  split at cheap
  · assumption
  · split at cheap <;> omega

/-- No answer makes a page ask: it asks about what it asked about before, if it asks at all. -/
theorem asked?_settle {p q : Page} {session : Session} {c : Call} {result : Except Failure c.Answer}
    {id : String} (settled : (settle (some p) session c result).state = some q)
    (asks : q.asked? = some id) : p.asked? = some id := by
  have alike : p.kind = c.kind := by
    obtain ⟨_, here, alike⟩ := (settle_isSome_iff (some p) session c result).mp (by rw [settled]; rfl)
    cases here
    exact alike
  cases c with
  | signIn c | overview c | ruleEditor c =>
    obtain ⟨t, -, rfl⟩ := Option.map_eq_some_iff.mp settled
    cases asks
  | grants c | expenses c | approvals c | categories c | roles c | users c | rules c =>
    obtain ⟨t, left, rfl⟩ := Option.map_eq_some_iff.mp settled
    cases p <;> cases alike
    rename_i s
    exact s.asked?_settle left asks

end Page

end GrantConsole.Console
