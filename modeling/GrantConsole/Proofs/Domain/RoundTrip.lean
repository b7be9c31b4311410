import GrantConsole.Proofs.Record.Lossless

/-!
# Round trips of the records of the console

Every record without binary numbers, and every page of such records, is read back from the text that
is written for it.
-/

namespace GrantConsole

open GrantConsole.Json GrantConsole.Record

/-- Every value of the shape has a text of its own, within the depth that is read. -/
structure Faithful {α : Type} (shape : Shape α) : Prop where
  distinct : shape.Distinct
  lossless : shape.Lossless
  fits : shape.nesting ≤ depthLimit

/-! ## Choices -/

@[simp]
theorem Operator.lossless_shape : Operator.shape.Lossless := by
  intro op
  cases op <;> decide

@[simp]
theorem Aggregator.lossless_shape : Aggregator.shape.Lossless := by
  intro aggregator
  cases aggregator <;> decide

@[simp]
theorem Aggregator.write_ne_null (a : Aggregator) : Aggregator.shape.write a ≠ .null :=
  nofun

@[simp]
theorem RuleType.lossless_shape : RuleType.shape.Lossless := by
  intro type
  cases type <;> decide

@[simp]
theorem RoleType.lossless_shape : RoleType.shape.Lossless := by
  intro type
  cases type <;> decide

@[simp]
theorem Verdict.lossless_shape : Verdict.shape.Lossless := by
  intro verdict
  cases verdict <;> decide

/-! ## Records -/

-- What is asked of a record comes down to what is asked of each of its fields.
attribute [local simp] Fields.Distinct Shape.Distinct Fields.Lossless Shape.Lossless Fields.nesting
  Shape.nesting

namespace Faithful

theorem record {α β : Type} {name : String} {fields : Fields β} {make : β → α} {parts : α → β}
    (keys : fields.keys.Nodup) (distinct : fields.Distinct) (lossless : fields.Lossless)
    (whole : ∀ a, make (parts a) = a) (fits : fields.nesting + 1 ≤ depthLimit) :
    Faithful (.record name fields make parts) :=
  ⟨⟨keys, distinct⟩, ⟨lossless, whole⟩, fits⟩

theorem filter : Faithful Filter.shape :=
  record (by decide) (by simp [Operator.shape]) (by simp) (fun _ => rfl) (by decide)

theorem condition : Faithful Condition.shape :=
  record (by decide) (by simp [Operator.shape]) (by simp) (fun _ => rfl) (by decide)

theorem rule : Faithful Rule.shape := by
  refine record (by decide) ?_ ?_ (fun _ => rfl) (by decide)
  · simp [RuleType.shape, Aggregator.shape, filter.distinct, condition.distinct]
  · simp [filter.lossless, condition.lossless]

theorem approval : Faithful Approval.shape :=
  record (by decide) (by simp [Verdict.shape]) (by simp) (fun _ => rfl) (by decide)

theorem category : Faithful Category.shape :=
  record (by decide) (by simp) (by simp) (fun _ => rfl) (by decide)

theorem role : Faithful Role.shape :=
  record (by decide) (by simp [RoleType.shape]) (by simp) (fun _ => rfl) (by decide)

theorem user : Faithful User.shape :=
  record (by decide) (by simp) (by simp) (fun _ => rfl) (by decide)

theorem newUser : Faithful NewUser.shape :=
  record (by decide) (by simp) (by simp) (fun _ => rfl) (by decide)

theorem userUpdate : Faithful UserUpdate.shape :=
  record (by decide) (by simp) (by simp) (fun _ => rfl) (by decide)

theorem token : Faithful Token.shape :=
  record (by decide) (by simp) (by simp) (fun _ => rfl) (by decide)

theorem page {R : Type} {item : Shape R} (faithful : Faithful item)
    (fits : item.nesting + 2 ≤ depthLimit) : Faithful (Page.shape item) := by
  refine record (by simp [Fields.keys]) ?_ ?_ (fun _ => rfl) ?_
  · simp [faithful.distinct]
  · simp [faithful.lossless]
  · have nests : (Page.shape item).nesting = item.nesting + 2 := by
      simp [Page.shape]
    exact nests.le.trans fits

end Faithful

/-! ## All of them -/

/-- Reading the text of any value of the type gives that value. -/
def RoundTrips (α : Type) [Shaped α] : Prop :=
  ∀ a : α, (Shaped.shape : Shape α).parse (Shaped.shape.write a).compact = .ok a

theorem Faithful.roundTrips {α : Type} [Shaped α] (faithful : Faithful (Shaped.shape : Shape α)) :
    RoundTrips α :=
  Shape.parse_write faithful.distinct faithful.lossless faithful.fits

/-- What is sent and received without binary numbers can be read back. -/
structure RecordsRoundTrip : Prop where
  rule : RoundTrips Rule
  filter : RoundTrips Filter
  condition : RoundTrips Condition
  approval : RoundTrips Approval
  category : RoundTrips Category
  role : RoundTrips Role
  user : RoundTrips User
  newUser : RoundTrips NewUser
  userUpdate : RoundTrips UserUpdate
  token : RoundTrips Token
  rules : RoundTrips (Page Rule)
  approvals : RoundTrips (Page Approval)
  categories : RoundTrips (Page Category)
  roles : RoundTrips (Page Role)
  users : RoundTrips (Page User)

theorem recordsRoundTrip : RecordsRoundTrip where
  rule := Faithful.rule.roundTrips
  filter := Faithful.filter.roundTrips
  condition := Faithful.condition.roundTrips
  approval := Faithful.approval.roundTrips
  category := Faithful.category.roundTrips
  role := Faithful.role.roundTrips
  user := Faithful.user.roundTrips
  newUser := Faithful.newUser.roundTrips
  userUpdate := Faithful.userUpdate.roundTrips
  token := Faithful.token.roundTrips
  rules := (Faithful.rule.page (by decide)).roundTrips
  approvals := (Faithful.approval.page (by decide)).roundTrips
  categories := (Faithful.category.page (by decide)).roundTrips
  roles := (Faithful.role.page (by decide)).roundTrips
  users := (Faithful.user.page (by decide)).roundTrips

end GrantConsole
