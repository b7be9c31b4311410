import GrantConsole.Domain.Resource
import GrantConsole.Proofs.Record.Enlarged

/-!
# The records of the console, with members in any order and unknown ones

The server may send the members of a record in any order, and others that the console does not know,
in the record and in the records inside it: filters, conditions and the rows of a page. The console
reads the same record.
-/

namespace GrantConsole

open GrantConsole.Json GrantConsole.Record

/-- Records of the type and pages of them are read the same from texts with members put in and put
in another order. -/
structure ReadsEnlarged (R : Type) [Shaped R] : Prop where
  record : ∀ {s t : String} {r : R}, (Shaped.shape : Shape R).EnlargedText s t →
    (Shaped.shape : Shape R).parse s = .ok r → (Shaped.shape : Shape R).parse t = .ok r
  page : ∀ {s t : String} {p : Page R}, (Shaped.shape : Shape (Page R)).EnlargedText s t →
    (Shaped.shape : Shape (Page R)).parse s = .ok p →
    (Shaped.shape : Shape (Page R)).parse t = .ok p

structure RecordsReadEnlarged : Prop where
  grant : ReadsEnlarged Grant
  expense : ReadsEnlarged Expense
  approval : ReadsEnlarged Approval
  category : ReadsEnlarged Category
  role : ReadsEnlarged Role
  rule : ReadsEnlarged Rule
  user : ReadsEnlarged User

theorem readsEnlarged (R : Type) [Shaped R] : ReadsEnlarged R where
  record enlarged parsed := Shape.parse_of_enlarged enlarged parsed
  page enlarged parsed := Shape.parse_of_enlarged enlarged parsed

theorem recordsReadEnlarged : RecordsReadEnlarged where
  grant := readsEnlarged Grant
  expense := readsEnlarged Expense
  approval := readsEnlarged Approval
  category := readsEnlarged Category
  role := readsEnlarged Role
  rule := readsEnlarged Rule
  user := readsEnlarged User

/-! ## A page with members put in -/

/-- Written objects with members put in and put in another order. -/
theorem ObjectEnlarged.written {known : List String}
    {member : String → List Char → List Char → Prop} {before after : List (String × Json)}
    (kept added : List (String × Json))
    (each : List.Forall₂ (fun m n => m.1 = n.1 ∧ member m.1 m.2.print n.2.print) before kept)
    (unknown : ∀ m ∈ added, m.1 ∉ known) (writable : ∀ m ∈ added, m.2.Writable)
    (order : (kept ++ added).Perm after) :
    ObjectEnlarged known member (Json.object before).print (Json.object after).print := by
  have kept : List.Forall₂ (fun m n : Named => m.name = n.name ∧ member m.name m.value n.value)
      (before.map writtenMember) (kept.map writtenMember) :=
    List.forall₂_map_left_iff.mpr (List.forall₂_map_right_iff.mpr each)
  have values : ∀ m ∈ added.map writtenMember, Value m.value :=
    List.forall_mem_map.mpr fun m member => value_print (writable m member)
  rw [print_object, print_object]
  refine .mk noBlanks noBlanks kept (List.forall_mem_map.mpr unknown) values ?_
  rw [← List.map_append]
  exact order.map writtenMember

/-- A category as it is sent, and with its members in another order and one more. -/
def sentRow : Json :=
  .object [("name", .text "Travel"), ("code", .text "T")]

def enlargedRow : Json :=
  .object [("owner", .array [.null]), ("code", .text "T"), ("name", .text "Travel")]

/-- A page with that row, and with the enlarged one. -/
def sentPage : Json :=
  .object [("data", .array [sentRow]), ("count", .whole 1)]

def enlargedPage : Json :=
  .object [("next", .object []), ("count", .whole 1), ("data", .array [enlargedRow])]

theorem enlarged_sentRow : Category.shape.Enlarged sentRow.print enlargedRow.print := by
  have kept (s : String) : Value (Json.text s).print ∧ (Json.text s).print = (Json.text s).print :=
    ⟨value_print (.text s), rfl⟩
  refine ObjectEnlarged.written [("name", .text "Travel"), ("code", .text "T")]
    [("owner", .array [.null])] ?_ (by decide) ?_ (List.reverse_perm _).symm
  · exact .cons ⟨rfl, kept "Travel"⟩ (.cons ⟨rfl, kept "T"⟩ .nil)
  · exact List.forall_mem_singleton.mpr (.array (List.forall_mem_singleton.mpr .null))

theorem enlarged_sentPage :
    (Page.shape Category.shape).Enlarged sentPage.print enlargedPage.print := by
  have rows : ListEnlarged (fun v w => Category.shape.Enlarged v w) (Json.array [sentRow]).print
      (Json.array [enlargedRow]).print := by
    rw [print_array, print_array]
    exact .mk noBlanks noBlanks (.cons enlarged_sentRow .nil)
  have count : Value (Json.whole 1).print ∧ (Json.whole 1).print = (Json.whole 1).print :=
    ⟨value_print (.whole (by decide) (by decide)), rfl⟩
  refine ObjectEnlarged.written [("data", .array [enlargedRow]), ("count", .whole 1)]
    [("next", .object [])] ?_ (by decide) ?_ (List.reverse_perm _).symm
  · exact .cons ⟨rfl, rows⟩ (.cons ⟨rfl, count⟩ .nil)
  · exact List.forall_mem_singleton.mpr (.object .nil nofun)

/-- The enlarged page is read as the page that was sent. -/
theorem recordsReadEnlarged_categories :
    (Page.shape Category.shape).parse sentPage.compact =
        .ok ⟨[⟨none, "Travel", none, "T", true⟩], 1⟩ ∧
      (Page.shape Category.shape).parse enlargedPage.compact =
        .ok ⟨[⟨none, "Travel", none, "T", true⟩], 1⟩ := by
  have sent : (Page.shape Category.shape).parse sentPage.compact =
      .ok ⟨[⟨none, "Travel", none, "T", true⟩], 1⟩ := by
    decide +kernel
  refine ⟨sent, recordsReadEnlarged.category.page ?_ sent⟩
  exact ⟨writtenItem sentPage, writtenItem enlargedPage, by simp [compact, writtenItem_chars],
    by simp [compact, writtenItem_chars], enlarged_sentPage⟩

end GrantConsole
