import LongTermMemory.Error

/-!
Why a database is of no use. Each cause has its result code and its text.
-/

namespace LongTermMemory

inductive Unusable where
  /-- What is there is no file that can be opened. -/
  | unopened (path : String)
  /-- The file holds something else. -/
  | foreign
  /-- Nothing was ever written there. -/
  | untouched
  /-- A zero byte stands in the path. -/
  | broken (offset : Nat)
  /-- The path is one of another host. -/
  | authority (name : String)
  | unknownCache (name : String)
  | unknownMode (name : String)
  /-- The mode allows more than is asked for here. -/
  | refusedMode (name : String)
  | unknownSystem (name : String)
  /-- The log beside the file needs memory that openings share, and there is none. -/
  | unshared
  /-- The log beside the file cannot be folded into a file that is only read. -/
  | unfolded
  | readOnly
deriving DecidableEq

namespace Unusable

/-- The result code, none where the database was never asked. -/
def code? : Unusable → Option Int
  | .unopened _ => some 14
  | .foreign => some 26
  | .untouched => some 1
  | .broken _ => none
  | .authority _ => some 1
  | .unknownCache _ => some 1
  | .unknownMode _ => some 1
  | .refusedMode _ => some 3
  | .unknownSystem _ => some 1
  | .unshared => some 14
  | .unfolded => some 3850
  | .readOnly => some 8

def message : Unusable → String
  | .unopened path => "unable to open database file: " ++ path
  | .foreign => "file is not a database"
  | .untouched => "no such table: memories"
  | .broken offset => "nul byte found in provided data at position: " ++ toString offset
  | .authority name => "invalid uri authority: " ++ name
  | .unknownCache name => "no such cache mode: " ++ name
  | .unknownMode name => "no such access mode: " ++ name
  | .refusedMode name => "access mode not allowed: " ++ name
  | .unknownSystem name => "no such vfs: " ++ name
  | .unshared => "unable to open database file"
  | .unfolded => "disk I/O error"
  | .readOnly => "attempt to write a readonly database"

/-- What a result code stands for. -/
def codeMeaning : Int → String
  | 1 => "SQL error or missing database"
  | 3 => "Access permission denied"
  | 8 => "Attempt to write a readonly database"
  | 14 => "Unable to open the database file"
  | 26 => "File opened that is not a database file"
  | 3850 => "I/O error in the advisory file locking layer"
  | _ => "Unknown error code"

/-- What lies behind the message. -/
def ground (u : Unusable) : String :=
  match u.code? with
  | none => u.message
  | some code => "Error code " ++ toString code ++ ": " ++ codeMeaning code

/-- What went wrong, and what was behind it. -/
def chain (u : Unusable) : List String :=
  [(Fault.database (u.code?.getD 0)).heading ++ u.message, u.message, u.ground]

end Unusable

end LongTermMemory
