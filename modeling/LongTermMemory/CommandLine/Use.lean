import LongTermMemory.CommandLine.Run
import LongTermMemory.Engine.Guarded
import LongTermMemory.Storage.Opening

/-!
What becomes of a command on the store that its call opens. The store may be one that is only read,
or two stores of which one is written and the other read.
-/

namespace LongTermMemory.CommandLine

/-- Whether a command needs to read what is stored before it does anything. -/
def Command.reads : Command → Bool
  | .create .. => false
  | .delete _ => false
  | .learn .. => false
  | _ => true

/-- Whether the log is folded into the file at the end of a command. -/
def Command.folds : Command → Bool
  | .maintain _ => true
  | _ => false

/-- Runs a command on a store that was just made and is written to but never read. Nothing is
learned, for whether it is known already cannot be told. -/
def Command.runDivided (x : Setting) (c : Command) : Except Failure Output :=
  match c with
  | .get _ => .error (.barred .untouched)
  | .learn .. => .ok (line nothingLearned)
  | c => do
    let (output, _) ← c.run x {}
    if c.reads then .error (.barred .untouched) else .ok output

/-- Runs a command on a store that is only read. Nothing is learned, and nothing is recalled, for
each recall would be noted. -/
def Command.runGuarded (x : Setting) (s : Store) (c : Command) : Except Failure Output :=
  match c with
  | .learn .. => .ok (line nothingLearned)
  | .context .. => (c.run x {}).map (·.1)
  | .consolidate =>
    match x.engine.consolidateGuarded x.now x.owner s with
    | .ok report => .ok (documented report.document)
    | .error cause => .error (.engine cause)
  | .lifecycle =>
    match x.engine.lifecycleGuarded x.now x.owner s with
    | .ok (some report) => .ok (documented report.document)
    | .ok none => .error (.barred .readOnly)
    | .error cause => .error (.engine cause)
  | .maintain _ =>
    .ok (documented (.list ((x.engine.maintainGuarded x.now s).map (·.document))))
  | c => do
    let (output, _) ← c.run x s
    if c.reads then .ok output else .error (.barred .readOnly)

/-- What a command says on an open store, and the store after it. -/
def Command.runOn (x : Setting) (o : Opened) (c : Command) : Except Failure Output × Store :=
  match o.use with
  | .divided => (c.runDivided x, o.store)
  | .guarded => (c.runGuarded x o.store, o.store)
  | .free =>
    match c.run x o.store with
    | .ok (output, s) => (.ok output, s)
    | .error failure => (.error failure, o.store)

/-- What a call says where `place` is what stands at its store, and what stands there then. -/
def Call.answer (c : Call) (x : Setting) (place : Place) : Except Failure Output × Place :=
  match x.engine.config.storage.opening place with
  | (.error cause, place) => (.error (.closed cause), place)
  | (.ok o, place) =>
    let (said, s) := c.command.runOn x o
    (said, o.closed s (c.command.folds && said.isOk) place)

end LongTermMemory.CommandLine
