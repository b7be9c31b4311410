import GrantConsole.Api.Failure
import GrantConsole.Domain.Resource

/-!
# Listings

A page of the console keeps the rows of one collection, how their loading stands, and at most one
dialog over them. A record that was saved takes the place of the row with its id or becomes the last
row; a record that was deleted leaves its row.
-/

namespace GrantConsole

open GrantConsole.Api

inductive Dialog (R : Type)
  | closed
  /-- A draft of a record to be made. -/
  | create (draft : R)
  /-- A working copy of a row. -/
  | edit (draft : R)
  /-- The question whether to delete the record with an id. -/
  | confirmDelete (id : String)
deriving Repr, DecidableEq

/-- What dialog is open, without its draft. -/
inductive DialogMode
  | closed
  | create
  | edit
  | confirmDelete (id : String)
deriving Repr, DecidableEq

namespace Dialog

variable {R : Type}

def mode : Dialog R → DialogMode
  | closed => .closed
  | create _ => .create
  | edit _ => .edit
  | confirmDelete id => .confirmDelete id

def draft? : Dialog R → Option R
  | create draft => some draft
  | edit draft => some draft
  | _ => none

def mapDraft (f : R → R) : Dialog R → Dialog R
  | create draft => create (f draft)
  | edit draft => edit (f draft)
  | d => d

end Dialog

structure Listing (R : Type) where
  items : List R := []
  count : Int64 := 0
  loading : Bool := true
  error : Option Failure := none
  dialog : Dialog R := .closed
deriving Repr, DecidableEq

namespace Listing

variable {R : Type}

def beginLoad (s : Listing R) : Listing R :=
  { s with loading := true, error := none }

/-- Takes in what a load gave; a failed one leaves the rows as they were. -/
def finishLoad (s : Listing R) (result : Except Failure (Page R)) : Listing R :=
  match result with
  | .ok page => { s with loading := false, count := page.count, items := page.items }
  | .error failure => { s with loading := false, error := some failure }

/-- Drops the rows that fail a test; the count stays. -/
def retain (s : Listing R) (keep : R → Bool) : Listing R :=
  { s with items := s.items.filter keep }

def openCreate (s : Listing R) (draft : R) : Listing R :=
  { s with dialog := .create draft }

def openDelete (s : Listing R) (id : String) : Listing R :=
  { s with dialog := .confirmDelete id }

def closeDialog (s : Listing R) : Listing R :=
  { s with dialog := .closed }

/-- Changes the draft of an open dialog. -/
def editDraft (s : Listing R) (f : R → R) : Listing R :=
  { s with dialog := s.dialog.mapDraft f }

def draft? (s : Listing R) : Option R :=
  s.dialog.draft?

variable [Resource R]

/-- The record has an id, and it is this one. -/
def hasId (id : String) (r : R) : Bool :=
  Resource.id? r == some id

def find? (s : Listing R) (id : String) : Option R :=
  s.items.find? (hasId id)

/-- Opens the edit dialog on a copy of a row; without the row nothing changes. -/
def openEdit (s : Listing R) (id : String) : Listing R × Bool :=
  match s.find? id with
  | some item => ({ s with dialog := .edit item }, true)
  | none => (s, false)

/-- The place of the row that a record takes. -/
def place? (items : List R) (saved : R) : Option Nat :=
  match Resource.id? saved with
  | some id => items.findIdx? (hasId id)
  | none => none

/-- Puts a saved record in the place of the row with its id, or after all rows. -/
def upsert (s : Listing R) (saved : R) : Listing R :=
  match place? s.items saved with
  | some i => { s with items := s.items.set i saved }
  | none => { s with items := s.items ++ [saved], count := s.count + 1 }

/-- Takes in what saving the draft gave. The dialog closes on success and stays on failure. -/
def finishSave (s : Listing R) (result : Except Failure R) : Listing R × Except Failure Unit :=
  match result with
  | .ok saved => ((s.upsert saved).closeDialog, .ok ())
  | .error failure => (s, .error failure)

/-- Takes in what deleting a record gave. The dialog closes in any case. -/
def finishDelete (s : Listing R) (id : String) (result : Except Failure Unit) :
    Listing R × Except Failure Unit :=
  let s := s.closeDialog
  match result with
  | .error failure => (s, .error failure)
  | .ok () =>
    let items := s.items.filter fun r => !hasId id r
    let count := if items.length < s.items.length then s.count - 1 else s.count
    ({ s with items, count }, .ok ())

end Listing

end GrantConsole
