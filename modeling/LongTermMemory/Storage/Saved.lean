import LongTermMemory.Document.Json
import LongTermMemory.Storage.Database
import LongTermMemory.Store.Saved

/-!
The text of a database in its file. The document behind it reads back as the database that it was
written from (`Database.ofSaved?_saved`).
-/

namespace LongTermMemory

def Journal.saved : Journal → Document
  | .rollback => .null
  | .ahead none => .list []
  | .ahead (some s) => .list [s.saved]

def Journal.ofSaved? : Document → Option Journal
  | .null => some .rollback
  | .list [] => some (.ahead none)
  | .list [s] => (Store.ofSaved? s).map fun s => .ahead (some s)
  | _ => none

theorem Journal.ofSaved?_saved (j : Journal)
    (h : ∀ s, j = .ahead (some s) → ∀ e ∈ s.entries, Entry.ofMemory e.memory = e) :
    Journal.ofSaved? j.saved = some j := by
  match j with
  | .rollback => rfl
  | .ahead none => rfl
  | .ahead (some s) => simp [saved, ofSaved?, Store.ofSaved?_saved s (h s rfl)]

namespace Database

def saved (d : Database) : Document := .list [d.store.saved, d.journal.saved]

def ofSaved? : Document → Option Database
  | .list [store, journal] => do
    some { store := ← Store.ofSaved? store, journal := ← Journal.ofSaved? journal }
  | _ => none

theorem ofSaved?_saved (d : Database)
    (hd : ∀ e ∈ d.store.entries, Entry.ofMemory e.memory = e)
    (hj : ∀ s, d.journal = .ahead (some s) → ∀ e ∈ s.entries, Entry.ofMemory e.memory = e) :
    ofSaved? d.saved = some d := by
  simp [saved, ofSaved?, Store.ofSaved?_saved d.store hd, Journal.ofSaved?_saved d.journal hj]

end Database

namespace Place

/-- A file of one byte counts as one without contents. -/
def ofText (s : String) : Place :=
  if s.utf8ByteSize ≤ 1 then .blank
  else
    match Json.parse? s >>= Database.ofSaved? with
    | some d => .database d
    | none => .foreign

/-- The text to be kept at a place, none where it stays what it is. -/
def text? : Place → Option String
  | .database d => some (Json.compact d.saved)
  | .blank => some ""
  | _ => none

end Place

end LongTermMemory
