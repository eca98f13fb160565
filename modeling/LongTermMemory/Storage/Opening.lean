import LongTermMemory.Config
import LongTermMemory.Storage.Address
import LongTermMemory.Storage.Database
import LongTermMemory.Text.NoCase

/-!
Opening a store. In plain mode it is opened twice, for writing and then for reading, and in
cloud-safe mode once for both; the parameters of a URI say how. A store in memory ends with its
opening, and two openings of it are two stores unless they share it.
-/

namespace LongTermMemory

/-- What is asked of an opening. -/
inductive OpenMode where
  | read
  | write
  /-- Writing, and making the file where there is none. -/
  | create
  /-- A store in memory. -/
  | memory
deriving DecidableEq

namespace OpenMode

def named? : String → Option OpenMode
  | "ro" => some .read
  | "rw" => some .write
  | "rwc" => some .create
  | "memory" => some .memory
  | _ => none

def rank : OpenMode → Nat
  | .read => 1
  | .write => 2
  | .create => 3
  | .memory => 4

/-- A mode may give way to one that allows no more, and always to memory. -/
def allows (m n : OpenMode) : Bool := n = .memory || n.rank ≤ m.rank

end OpenMode

/-- Where files are kept. -/
inductive FileSystem where
  /-- On disk, with memory that openings share. -/
  | sharing
  /-- On disk, without. -/
  | bare
  | memory
deriving DecidableEq

def FileSystem.named? : String → Option FileSystem
  | "unix" => some .sharing
  | "unix-excl" => some .sharing
  | "unix-none" => some .bare
  | "unix-dotfile" => some .bare
  | "memdb" => some .memory
  | _ => none

/-- How a store is opened. -/
structure Manner where
  mode : OpenMode
  /-- Whether openings of one file are one. -/
  shared : Bool := false
  system : FileSystem := .sharing
  /-- Whether the file is taken never to change. -/
  immutable : Bool := false
  /-- Whether nobody else is taken to use the file. -/
  unlocked : Bool := false

namespace Manner

def heed (m : Manner) : String × String → Except Unusable Manner
  | ("cache", "shared") => .ok { m with shared := true }
  | ("cache", "private") => .ok { m with shared := false }
  | ("cache", name) => .error (.unknownCache name)
  | ("mode", name) =>
    match OpenMode.named? name with
    | none => .error (.unknownMode name)
    | some mode => if m.mode.allows mode then .ok { m with mode } else .error (.refusedMode name)
  | _ => .ok m

/-- The number that begins a value; its digits are hexadecimal after `0x`. -/
def leadingNumber? (value : String) : Option Nat :=
  let hexadecimal (cs : List Char) : Nat :=
    Json.natOfDigits 16 (cs.takeWhile fun c => (Json.digitValue? c).isSome)
  match value.toList with
  | '0' :: 'x' :: cs => some (hexadecimal cs)
  | '0' :: 'X' :: cs => some (hexadecimal cs)
  | cs =>
    match cs.takeWhile Json.isDigit with
    | [] => none
    | digits => some (Json.natOfDigits 10 digits)

/-- Whether a value means yes. A number counts modulo 256, and as zero if it takes over 31 bits. -/
def isYes (value : String) : Bool :=
  match leadingNumber? value with
  | none => ["on", "yes", "true"].any (Text.NoCase.same value)
  | some n => n < 2147483648 && n % 256 ≠ 0

/-- How an address asks to be opened where `mode` is asked for at most. -/
def ofAddress (mode : OpenMode) (a : Address) : Except Unusable Manner := do
  let m ← a.parameters.foldlM heed { mode }
  let name := (a.parameters.reverse.lookup "vfs").getD "unix"
  match FileSystem.named? name with
  | none => .error (.unknownSystem name)
  | some system =>
    .ok
      { m with
        system
        immutable := (a.value? "immutable").any isYes
        unlocked := (a.value? "nolock").any isYes }

/-- Whether nothing may be written. -/
def fixed (m : Manner) : Bool := m.mode = .read || m.immutable

/-- Whether what is written may go through a log. -/
def logs (m : Manner) : Bool := m.system = .sharing && !m.immutable && !m.unlocked

end Manner

/-- How an open store may be used. -/
inductive Use where
  /-- It is read and written. -/
  | free
  /-- It is only read. -/
  | guarded
  /-- What is written is one store, and what is read another. -/
  | divided
deriving DecidableEq

structure Opened where
  store : Store := {}
  use : Use := .free
  /-- Whether the store outlasts its opening. -/
  lasting : Bool := false
  /-- Whether the log is folded into the file when the store is closed. -/
  folding : Bool := false

namespace Opened

/-- What stands at a place once the store opened there is closed. -/
def closed (o : Opened) (s : Store) (folded : Bool) : Place → Place
  | .database d => .database (if o.lasting then d.leave s (folded || o.folding) else d)
  | p => p

end Opened

namespace Address

/-- Whether the path is a name in memory or none at all. -/
def unfiled (a : Address) : Bool := a.path = "" || a.path = memory

/-- Whether the store is one in memory. -/
def passing (a : Address) (m : Manner) : Bool :=
  a.unfiled || m.mode = .memory || m.system = .memory

/-- Whether two openings of a store in memory are one store: they share it, or a file system in
memory keeps it under an absolute path. -/
def meets (a : Address) (m : Manner) : Bool :=
  let kept := m.system = .memory && m.mode ≠ .memory && !a.unfiled
  a.path ≠ "" && (m.shared || kept && a.path.startsWith "/" && a.path ≠ "/")

/-- The second opening, for reading, where there is one. -/
def reader (a : Address) (mode : StorageMode) : Except Unusable (Option Manner) :=
  match mode with
  | .plain => (Manner.ofAddress .read a).map some
  | .cloudSafe => .ok none

def openPassing (a : Address) (m : Manner) (mode : StorageMode) : Except Unusable Opened := do
  if m.mode = .read || (m.immutable && m.mode ≠ .memory && !a.unfiled) then .error .readOnly
  match ← a.reader mode with
  | none => .ok {}
  | some r => .ok { use := if a.meets r then .free else .divided }

end Address

namespace Manner

/-- A file without contents becomes a database. -/
def found (m : Manner) (mode : StorageMode) : Except Unusable Database :=
  if m.fixed then .error .readOnly
  else .ok { journal := if mode = .plain && m.logs then .ahead none else .rollback }

/-- Plain mode brings the log in and cloud-safe mode folds it, where they can. -/
def settle (m : Manner) (mode : StorageMode) (d : Database) : Except Unusable Database :=
  match d.journal, mode with
  | .rollback, .cloudSafe => .ok d
  | .rollback, .plain =>
    if !m.logs then .ok d
    else if m.fixed then .error .readOnly
    else .ok { d with journal := .ahead (some d.store) }
  | .ahead settled, _ =>
    if m.immutable then
      match settled with
      | none => .error .readOnly
      | some s => .ok { d with store := s }
    else if !m.logs then .error .unshared
    else if mode = .plain then .ok d
    else if m.fixed then .error .unfolded
    else .ok { d with journal := .rollback }

/-- The database that is read in the place it is written to, and what the place holds then. -/
def openFile (m : Manner) (path : String) (mode : StorageMode) (place : Place) :
    Except Unusable Database × Place :=
  let blank : Except Unusable Database × Place :=
    match m.found mode with
    | .ok d => (.ok d, .database d)
    | .error cause => (.error cause, .blank)
  match place with
  | .unreachable => (.error (.unopened path), .unreachable)
  | .absent => if m.mode = .create then blank else (.error (.unopened path), .absent)
  | .blank => blank
  | .foreign => (.error .foreign, .foreign)
  | .database d =>
    match m.settle mode d with
    | .ok e => (.ok e, .database (if m.fixed then d else e))
    | .error cause => (.error cause, .database d)

end Manner

namespace StorageConfig

/-- How the store is opened for writing. Nothing is asked of the path for a store in memory. -/
def writer (c : StorageConfig) : Except Unusable (Address × Manner) := do
  let a ← Address.ofPath c.path
  let m ← Manner.ofAddress .create a
  .ok (a, m)

/-- The file of the store, none for a store in memory. -/
def file? (c : StorageConfig) : Option String :=
  match c.writer with
  | .error _ => none
  | .ok (a, m) => if a.passing m then none else some a.path

/-- Opens a store where `place` is what stands there, and tells what stands there then. -/
def opening (c : StorageConfig) (place : Place) : Except Unusable Opened × Place :=
  if c.path = Address.memory then (.ok {}, place)
  else
    match c.writer with
    | .error cause => (.error cause, place)
    | .ok (a, m) =>
      if a.passing m then (a.openPassing m c.mode, place)
      else
        match m.openFile c.path c.mode place with
        | (.error cause, place) => (.error cause, place)
        | (.ok d, place) =>
          let o : Opened :=
            { store := d.store, use := if m.fixed then .guarded else .free, lasting := !m.fixed }
          match a.reader c.mode with
          | .error cause => (.error cause, o.closed d.store true place)
          | .ok r => (.ok { o with folding := r.any (·.shared) }, place)

end StorageConfig

end LongTermMemory
