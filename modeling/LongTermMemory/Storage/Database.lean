import LongTermMemory.Store

/-!
A store in its file. What is written goes into the file at once or into a log beside it, so that the
file itself may hold less than the store.
-/

namespace LongTermMemory

/-- How what is written reaches the file. -/
inductive Journal where
  /-- At once. -/
  | rollback
  /-- Through a log. The file itself holds `settled`, and no store yet for none. -/
  | ahead (settled : Option Store)

structure Database where
  store : Store := {}
  journal : Journal := .rollback

/-- What stands where a database is looked for. -/
inductive Place where
  /-- No file can be there. -/
  | unreachable
  | absent
  /-- A file without contents. -/
  | blank
  | foreign
  | database (d : Database)

namespace Database

/-- The database once a command has left a store. The log is folded into the file, or stays. -/
def leave (d : Database) (s : Store) (folded : Bool) : Database :=
  match d.journal with
  | .rollback => { store := s, journal := .rollback }
  | .ahead settled => { store := s, journal := .ahead (if folded then some s else settled) }

end Database

end LongTermMemory
