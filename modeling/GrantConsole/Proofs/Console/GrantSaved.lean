import GrantConsole.Proofs.Console.Repeats
import GrantConsole.Proofs.Console.Requests
import GrantConsole.Proofs.Form.Money

/-!
# Grants that are saved untouched

A grant that is opened for editing and saved as it is replaces itself: one request to change
anything goes out, for the id of its row, with the record as the row has it. Only its days are
written as moments, and the moments stay as they are when the grant is saved untouched again.
-/

namespace GrantConsole

open GrantConsole.Number GrantConsole.Record GrantConsole.Text

/-! ## Forms, read again

The text of a finite amount is read as that amount, and a day that has become a moment stays that
moment. -/

/-- The plain text of a finite amount is read as that amount. -/
theorem readAmountText_plainText {x : Binary64} (finite : x.isFinite = true) :
    readAmountText x.plainText = .ok x := by
  have plain (c : Char) (mem : c ∈ x.plainText.toList) :
      isBlank c = false ∧ (c != ',') = true := by
    rcases Binary64.mem_plainText finite mem with digit | rfl | rfl
    · exact ⟨isBlank_of_isDigit digit, ne_comma_of_isDigit digit⟩
    · exact ⟨rfl, rfl⟩
    · exact ⟨rfl, rfl⟩
  have commas : x.plainText.toList.filter (· != ',') = x.plainText.toList :=
    List.filter_eq_self.mpr fun c mem => (plain c mem).2
  refine readAmountText_eq_ok (fun c mem => (plain c mem).1) ?_ finite
  rw [commas, Binary64.readBinary64?_plainText finite]

theorem startOfDay_of_moment {day : String} (bare : Bare day.toList)
    (moment : day.isEmpty = true ∨ 'T' ∈ day.toList) : startOfDay day = day := by
  have stays : (day.isEmpty || day.toList.contains 'T') = true := by
    simpa using moment
  unfold startOfDay
  rw [trim_of_bare bare]
  exact if_pos stays

/-- The start of a day is a moment, which stays as it is. -/
theorem startOfDay_startOfDay (date : String) : startOfDay (startOfDay date) = startOfDay date := by
  have bare := bare_trim date
  cases stays : (trim date).isEmpty || (trim date).toList.contains 'T' with
  | true =>
    have same : startOfDay date = trim date := if_pos stays
    rw [same]
    exact startOfDay_of_moment bare (by simpa using stays)
  | false =>
    have moment : startOfDay date = trim date ++ "T00:00:00" :=
      if_neg (Bool.eq_false_iff.mp stays)
    rw [moment]
    refine startOfDay_of_moment ⟨fun c first => ?_, fun c last => ?_⟩ (.inr (by simp))
    · -- There is a day before the time.
      obtain ⟨day, rest, chars⟩ : ∃ day rest, (trim date).toList = day :: rest := by
        refine List.exists_cons_of_ne_nil fun none => ?_
        have empty : (trim date).isEmpty = true := by simpa using none
        rw [empty] at stays
        cases stays
      rw [String.toList_append, chars] at first
      exact bare.first c (by rw [chars]; exact first)
    · rw [String.toList_append, List.getLast?_append] at last
      cases last
      rfl

/-! ## What is saved -/

namespace Grant

/-- The grant with its days written as moments. -/
def saved (g : Grant) : Grant :=
  { g with start := startOfDay g.start, finish := startOfDay g.finish }

theorem total_saved (g : Grant) : g.saved.total = g.total := by
  simp only [saved]

theorem saved_saved (g : Grant) : g.saved.saved = g.saved := by
  simp only [saved, startOfDay_startOfDay]

end Grant

namespace Screen.Grants

variable {s : Grants} {id : String} {g : Grant}

/-- The page with the form of a grant as it opens. -/
def formOpened (s : Grants) (g : Grant) : Grants :=
  { rows.update (fun l => { l with dialog := .edit g }) s with amount := g.total.plainText }

theorem id_of_find? (found : (rows.listing s).find? id = some g) : g.id = some id := by
  have own : Listing.hasId id g = true := List.find?_some found
  exact eq_of_beq own

/-- A grant that has an id is replaced. -/
theorem saveCall_edit (own : g.id = some id) : saveCall .edit g = .replace id g.saved := by
  obtain ⟨_, _, _, _, _, _, _, _, _, _⟩ := g
  cases own
  rfl

theorem handle_edit (found : (rows.listing s).find? id = some g) (session : Session)
    (entry : Entry) : s.handle session (.edit id) entry = ⟨s.formOpened g, session, []⟩ := by
  simp only [handle, Listing.openEdit, found]
  rfl

/-- A form that is saved as it opened replaces its grant. -/
theorem handle_save_formOpened (found : (rows.listing s).find? id = some g)
    (finite : g.total.isFinite = true) (session : Session) (entry : Entry) :
    (s.formOpened g).handle session .save entry =
      ⟨s.formOpened g, session, [.call (.replace id g.saved)]⟩ := by
  have read : readAmountText (s.formOpened g).amount = .ok g.total :=
    readAmountText_plainText finite
  have same : ((s.formOpened g).editDraft fun g' => { g' with total := g.total }) =
      s.formOpened g := rfl
  simp only [handle, read, same]
  rw [← saveCall_edit (id_of_find? found)]
  rfl

end Screen.Grants

namespace Console

open GrantConsole.Api GrantConsole.Markup GrantConsole.Screen

namespace Tab

/-- The requests that ask for a change, in order. -/
def changes (tab : Tab) : List Request :=
  tab.requests (· != .get)

variable {tab : Tab} {s : Grants} {id token : String} {g : Grant}

/-- The form of a grant opens without a request. -/
theorem act_edit (rests : tab.due = []) (page : tab.page = .grants s)
    (found : (Grants.rows.listing s).find? id = some g) (entry : Entry) :
    tab.act (.page (.grants (.edit id))) entry =
      sweep { tab with page := .grants (s.formOpened g) } := by
  refine act_of_nothing rests ?_
  rw [page, Page.handle, Grants.handle_edit found]
  rfl

/-- A form that is saved as it opened sends its grant, whatever the server answers. -/
theorem changes_act_save (rests : tab.due = []) (page : tab.page = .grants (s.formOpened g))
    (signedIn : tab.session.token? = some token)
    (found : (Grants.rows.listing s).find? id = some g) (finite : g.total.isFinite = true)
    (entry : Entry) :
    (tab.act (.page (.grants .save)) entry).changes =
      tab.changes ++ [⟨.put, Endpoint.item Grant id, some token,
        .json (Shaped.shape.write g.saved)⟩] := by
  let call : Page.Call := .grants (.replace id g.saved)
  have makes : tab.page.handle tab.session (.grants .save) entry =
      ⟨tab.page, tab.session, [.call call]⟩ := by
    rw [page, Page.handle, Grants.handle_save_formOpened found finite]
    rfl
  have asked : call.operation.request? tab.session =
      some ⟨.put, Endpoint.item Grant id, some token, .json (Shaped.shape.write g.saved)⟩ := by
    show (tab.session.token?.map _) = _
    rw [signedIn]
    rfl
  have alone : Tab.due { tab with page := tab.page, due := [.call tab.number call] } =
      [.call tab.number call] := rfl
  rw [act_page_eq, takeTurn_of_call rests makes, changes, run_requests_of_call rfl alone]
  change tab.changes ++ (call.operation.request? tab.session).toList.filter _ = _
  rw [asked]
  rfl

end Tab

end Console

open GrantConsole.Api GrantConsole.Console GrantConsole.Screen

/-- Whenever the form of a grant is opened by a click in its row and saved by the click after it,
the one request for a change is that which replaces the record with the id of the row by another
record. -/
def Grant.SavesAs (g record : Grant) : Prop :=
  ∀ (tab : Tab) (s : Grants) (id token : String) (edit save : Target) (spot spot' : Markup.Spot Act),
    tab.due = [] → tab.page = .grants s → tab.session.token? = some token →
      (Grants.rows.listing s).find? id = some g →
      tab.Presses edit spot (.grants (.edit id)) →
      (tab.step (.click edit)).1.Presses save spot' (.grants .save) →
      (tab.after [.click edit, .click save]).changes =
        tab.changes ++ [⟨.put, "/api/v1" ++ "/grants/" ++ Url.encode id, some token,
          .json (Shaped.shape.write record)⟩]

theorem Grant.savesAs_saved (g : Grant) (finite : g.total.isFinite = true) :
    g.SavesAs g.saved := by
  intro tab s id token edit save spot spot' rests page signedIn found edits saves
  have opened : (tab.step (.click edit)).1 =
      Tab.sweep { tab with page := .grants (s.formOpened g) } :=
    edits.step_eq.trans (Tab.act_edit rests page found {})
  have both : tab.after [.click edit, .click save] =
      ((tab.step (.click edit)).1).act (.page (.grants .save)) {} := saves.step_eq
  rw [both, opened]
  let shown : Tab := Tab.sweep { tab with page := .grants (s.formOpened g) }
  have quiet : shown.due = [] := rests
  have page : shown.page = .grants (s.formOpened g) := rfl
  exact Tab.changes_act_save quiet page signedIn found finite {}

/-- Saving an untouched grant changes nothing but the form of its days, and saving it untouched
again changes nothing at all. -/
theorem Grant.saved_untouched {g : Grant} (finite : g.total.isFinite = true) :
    g.SavesAs g.saved ∧ g.saved.SavesAs g.saved := by
  have again := g.saved.savesAs_saved (by rw [g.total_saved, finite])
  rw [g.saved_saved] at again
  exact ⟨g.savesAs_saved finite, again⟩

/-- A grant over a tenth of a unit of money, with a day that is typed as it is and a moment. -/
def soilGrant : Grant :=
  { id := some "g 2", title := "Soil", start := " 2025-01-01", finish := "2025-12-31T12:00:00",
    total := ⟨0x3FB999999999999A⟩ }

/-- The page of the grants with two rows. -/
def twoGrants : Tab where
  session := ⟨some [("access_token", "t")]⟩
  server := {}
  location := ⟨"/grants", ""⟩
  chrome := ⟨true, "/grants", none⟩
  page := .grants
    { listing := ⟨{ items := [{ id := some "g1" }, soilGrant], loading := false }, []⟩ }

/-- The second grant is opened in its row and saved. -/
theorem Grant.saved_untouched_soilGrant :
    let edit : Target := ⟨{ text := some "Edit" }, 1⟩
    let save : Target := ⟨{ text := some "Save" }, 0⟩
    soilGrant.total.isFinite = true ∧
      (twoGrants.after [.click edit, .click save]).changes =
        [⟨.put, "/api/v1/grants/g%202", some "t",
          .json (Shaped.shape.write { soilGrant with start := "2025-01-01T00:00:00" })⟩] := by
  intro edit save
  have finite : soilGrant.total.isFinite = true := rfl
  obtain ⟨spot, edits⟩ : ∃ spot, twoGrants.Presses edit spot (.grants (.edit "g 2")) :=
    Tab.exists_presses (by decide +kernel)
  obtain ⟨spot', saves⟩ :
      ∃ spot, (twoGrants.step (.click edit)).1.Presses save spot (.grants .save) :=
    Tab.exists_presses (by decide +kernel)
  have sent := (Grant.saved_untouched finite).1 twoGrants _ "g 2" "t" edit save spot spot' rfl rfl
    (by decide +kernel) (by decide +kernel) edits saves
  have moments : soilGrant.saved = { soilGrant with start := "2025-01-01T00:00:00" } := by
    decide +kernel
  refine ⟨finite, ?_⟩
  rw [sent, moments]
  rfl

end GrantConsole
