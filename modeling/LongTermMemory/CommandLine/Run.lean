import LongTermMemory.CommandLine.Command
import LongTermMemory.Document.Json
import LongTermMemory.Engine.Learn
import LongTermMemory.Printed
import LongTermMemory.Storage.Unusable

/-!
What a call does: it settles its configuration and runs its command on the store, for some output
and the store after it.
-/

namespace LongTermMemory.CommandLine

/-- Why a call fails after its arguments are read. -/
inductive Failure where
  | engine (cause : Error)
  | unknownType (name : String)
  | unknownMode (name : String)
  /-- An error of the engine in the course of a task. -/
  | during (task : String) (cause : Error)
  /-- The store cannot be opened. -/
  | closed (cause : Unusable)
  /-- The open store cannot be used as the command needs. -/
  | barred (cause : Unusable)

namespace Failure

def opening : String := "opening memory engine"

/-- What failed and why. -/
def chain : Failure → List String
  | .engine cause => [cause.message]
  | .unknownType name => [MemoryType.unknownMessage name]
  | .unknownMode name => [StorageMode.unknownMessage name]
  | .during task cause => [task, cause.message]
  | .closed cause => opening :: cause.chain
  | .barred cause => cause.chain

/-- A cause below others; its later lines stand under the first one. -/
def indented (label : String) (cause : String) : String :=
  let margin := String.ofList (List.replicate label.length ' ')
  label ++ String.intercalate ("\n" ++ margin) (cause.splitOn "\n")

/-- The causes from number `n` on. -/
def numbered : Nat → List String → List String
  | _, [] => []
  | n, cause :: rest => indented ("    " ++ toString n ++ ": ") cause :: numbered (n + 1) rest

/-- Two causes and more are numbered. -/
def causes : List String → List String
  | [cause] => [indented "    " cause]
  | l => numbered 0 l

def report (f : Failure) : String :=
  match f.chain with
  | [] => ""
  | [what] => "Error: " ++ what
  | what :: rest =>
    "Error: " ++ what ++ "\n\nCaused by:\n" ++ String.intercalate "\n" (causes rest)

/-- Whether a configuration file is no readable document. -/
def unreadable : Failure → Bool
  | .during _ cause => cause = .config .unreadable
  | _ => false

end Failure

/-! ## Settings -/

/-- A path that begins at the home folder. -/
def underHome (home : Option String) (path : String) : String :=
  match home, path.toList with
  | some home, '~' :: [] => home
  | some home, '~' :: '/' :: rest => home ++ String.ofList ('/' :: rest)
  | _, _ => path

def settle (task : String) : Except Error Config → Except Failure Config
  | .ok c => .ok c
  | .error cause => .error (.during task cause)

/-- The configuration in a file. -/
def configIn (path contents : String) : Except Failure Config :=
  settle ("loading config from " ++ path) (Config.ofToml contents)

namespace Call

def configPath (home : Option String) (c : Call) : Option String := c.config.map (underHome home)

/-- The configured store, unless the call names another. -/
def storageIn (home : Option String) (c : Call) (s : StorageConfig) :
    Except Failure StorageConfig := do
  let mode ← match c.storageMode with
    | none => .ok s.mode
    | some name =>
      match StorageMode.parse? name with
      | some mode => .ok mode
      | none => .error (.unknownMode name)
  .ok { path := underHome home (c.storePath.getD s.path), mode }

/-- The engine of a call whose configuration file, if it names one, has the given contents. -/
def engine (home : Option String) (c : Call) (contents : Option String) :
    Except Failure Engine := do
  let config ← match c.configPath home, contents with
    | some path, some contents => configIn path contents
    | _, _ => .ok {}
  let storage ← c.storageIn home config.storage
  match Engine.ofConfig { config with storage } with
  | .ok e => .ok e
  | .error cause => .error (.during Failure.opening cause)

end Call

/-! ## Output -/

/-- Lines of text, and perhaps a document after them. -/
structure Output where
  text : String := ""
  document : Option Document := none

def Output.printed (o : Output) : String :=
  o.text ++ o.document.elim "" fun d => Json.pretty d ++ "\n"

def line (s : String) : Output := { text := s ++ "\n" }

def lines (l : List String) : Output := { text := String.join (l.map (· ++ "\n")) }

/-- The first line, without the line break. -/
def firstLine (cs : List Char) : List Char :=
  let first := cs.takeWhile (· ≠ '\n')
  if first.length < cs.length ∧ first.getLast? = some '\r' then first.dropLast else first

/-- The first line, its end cut where it is longer than `width` characters. -/
def headline (width : Nat) (s : String) : String :=
  let first := firstLine s.toList
  if first.length ≤ width then String.ofList first
  else String.ofList (first.take (width - 3)) ++ "..."

def headlineWidth : Nat := 60

def numbered (id : MemoryId) : String := "#" ++ toString id

def rated (m : Memory) : String := "(" ++ toString m.importance ++ ")"

def titled (m : Memory) : String := " - " ++ headline headlineWidth m.content

def typed (m : Memory) : String := " [" ++ m.type.name ++ "] " ++ rated m

def listedLine (m : Memory) : String :=
  numbered m.id ++ typed m ++ " " ++ String.intercalate ", " m.tags ++ titled m

def foundLine (m : Memory) : String := numbered m.id ++ " " ++ rated m ++ titled m

def learnedLine (m : Memory) : String := "Learned " ++ numbered m.id ++ typed m ++ titled m

def nothingLearned : String := "Nothing learned"

/-! ## Commands -/

/-- The items between commas, trimmed and without the empty ones. -/
def splitList (s : String) : List String :=
  ((s.splitOn ",").map Text.trim).filter (!·.isEmpty)

def typeNamed (name : Option String) : Except Failure (Option MemoryType) :=
  match name with
  | none => .ok none
  | some name =>
    match MemoryType.parse? name with
    | some t => .ok (some t)
    | none => .error (.unknownType name)

/-- What a command is run with. -/
structure Setting where
  engine : Engine
  owner : String
  now : Instant
  /-- The size of the store in bytes. -/
  storeSize : Nat

/-- The source of the memories created here. -/
def sourceType : String := "cli"

/-- An answer of the engine, told by `f`. -/
def told {α : Type} (f : α → Output) : Except Error (α × Store) → Except Failure (Output × Store)
  | .ok (a, s) => .ok (f a, s)
  | .error cause => .error (.engine cause)

/-- An answer of the engine that leaves the store as it is. -/
def toldOf {α : Type} (s : Store) (f : α → Output) (r : Except Error α) :
    Except Failure (Output × Store) :=
  told f (r.map fun a => (a, s))

def documented (d : Document) : Output := { document := some d }

def Setting.statsDocument (x : Setting) (s : Stats) : Document :=
  let storage := x.engine.config.storage
  .record
    [("db_path", .text storage.path),
     ("db_size_bytes", Document.ofNat x.storeSize),
     ("owner", s.document),
     ("storage_mode", .text storage.mode.name)]

def Command.run (x : Setting) (s : Store) : Command → Except Failure (Output × Store)
  | .create content tags type category importance => do
    let type ← typeNamed type
    let request : NewMemory :=
      { owner := x.owner, content, tags := splitList tags, type, category, importance
        createdBy := some x.owner, sourceType := some sourceType }
    told
      (fun m => { line ("Created memory " ++ numbered m.id) with document := some m.document })
      (x.engine.create x.now request s)
  | .get id => toldOf s (fun m => documented m.document) (s.get x.now id)
  | .list limit tags type archived => do
    let type ← typeNamed type
    let selection : Selection :=
      { limit := some limit, tags := tags.map splitList, type, includeArchived := archived }
    toldOf s (fun ms => lines (ms.map listedLine)) (Engine.list x.now x.owner selection s)
  | .search query limit category =>
    toldOf s (fun ms => lines (ms.map foundLine))
      (Engine.search x.now x.owner query { limit := some limit, category } s)
  | .delete id =>
    told (fun () => line ("Deleted memory " ++ numbered id))
      ((Engine.deleteOwned x.owner id s).map fun s => ((), s))
  | .stats => toldOf s (fun f => documented (x.statsDocument f)) (Engine.stats x.owner s)
  | .learn userInput response tool toolOutput =>
    let turn : Interaction :=
      { owner := x.owner, userInput, agentResponse := response
        toolResult := tool.map fun tool => { tool, output := toolOutput } }
    let (ms, s) := x.engine.learn x.now turn s
    .ok (if ms.isEmpty then line nothingLearned else lines (ms.map learnedLine), s)
  | .context query maxLength =>
    told line (x.engine.retrieveContext x.now x.owner query (maxLength.map Int.toNat) s)
  | .consolidate => told (fun r => documented r.document) (x.engine.consolidate x.now x.owner s)
  | .lifecycle => told (fun r => documented r.document) (x.engine.lifecycle x.now x.owner s)
  | .maintain _ =>
    let (reports, s) := x.engine.maintain x.now s
    .ok (documented (.list (reports.map (·.document))), s)

/-- The seconds after which a command runs again, none for a command that runs once. -/
def Command.interval? : Command → Option Nat
  | .maintain seconds => if seconds = 0 then none else some seconds.toNat
  | _ => none

end LongTermMemory.CommandLine
