import LongTermMemory.Store

/-!
The statements of which writes are made. One statement writes whole or not at all, but what it wrote
stays when a later one fails, unless they run in a transaction, which takes it back.
-/

namespace LongTermMemory

/-- Statements that run one after another until one fails. -/
abbrev Statements := ExceptT Error (StateM Store)

/-- What an operation answers and what it leaves, when a failed one leaves the store as it was. -/
def Store.settled {α : Type} (s : Store) : Except Error (α × Store) → Except Error α × Store
  | .ok (a, s) => (.ok a, s)
  | .error cause => (.error cause, s)

namespace Statements

variable {α : Type}

/-- The answer of statements and the store after them, each statement for good. -/
def outcome (body : Statements α) (s : Store) : Except Error α × Store := body.run.run s

/-- Statements of which, when one fails, none has written anything in the end. -/
def transaction (body : Statements α) (s : Store) : Except Error α × Store :=
  match body.outcome s with
  | (.ok a, s') => (.ok a, s')
  | (.error cause, _) => (.error cause, s)

/-- A statement that reads. -/
def select (f : Store → Except Error α) : Statements α := ExceptT.mk fun s => (f s, s)

/-- A statement that writes whole or not at all. -/
def write (f : Store → Except Error (α × Store)) : Statements α :=
  ExceptT.mk fun s => s.settled (f s)

/-- A statement that changes a row if it is there, and says whether it was. -/
def writeIf (p : Store → Bool) (f : Store → Store) : Statements Bool :=
  write fun s => .ok (if p s then (true, f s) else (false, s))

open Store (requireConstraint importanceInRange)

/-! ## Rows of memories -/

def memoryRow (now : Instant) (id : MemoryId) : Statements Memory := select (·.get now id)

/-- A new memory is inserted without its tags. -/
def insertMemory (now : Instant) (r : NewMemory) : Statements MemoryId :=
  write fun s => do
    requireConstraint (importanceInRange r.importance) .importanceRange
    requireConstraint r.confidence.inUnit .confidenceRange
    let id := s.lastMemoryId + 1
    requireConstraint (r.parent.all fun p => p = id || s.exists? p) .parentExists
    let m := Store.newMemory now id [] r
    .ok (id, { s with entries := s.entries ++ [Entry.ofMemory m], lastMemoryId := id })

/-- Makes changes, those of tags aside, to a memory that is at the given version. -/
def updateMemory (now : Instant) (id : MemoryId) (version : Int) (c : Changes) : Statements Bool :=
  write fun s =>
    match s.kept? id with
    | some m =>
      if m.version = version then do
        requireConstraint (c.importance.all importanceInRange) .importanceRange
        requireConstraint (c.confidence.all Single.inUnit) .confidenceRange
        .ok (true, s.modify id (Store.changedEntry now c none))
      else .ok (false, s)
    | none => .ok (false, s)

def deleteMemory (id : MemoryId) : Statements Bool := writeIf (·.exists? id) (·.remove id)

def countAccess (now : Instant) (id : MemoryId) : Statements Bool :=
  writeIf (·.exists? id) (·.modifyMemory id (Store.accessed now))

/-! ## Tags -/

def clearTags (id : MemoryId) : Statements Unit :=
  write fun s => .ok ((), s.modifyMemory id ({ · with tags := [] }))

/-- Keeps a tag name, unless it is kept in some spelling. -/
def insertTag (tag : String) : Statements Unit :=
  write fun s =>
    let kept := s.tagNames.any (Text.NoCase.same tag)
    .ok ((), { s with tagNames := if kept then s.tagNames else s.tagNames ++ [tag] })

/-- The spelling under which a tag name is kept. -/
def tagRow (tag : String) : Statements String :=
  select fun s => (s.tagNames.find? (Text.NoCase.same tag)).elim (.error .noRow) .ok

/-- The tags of a memory with one more, in the order of names. -/
def withTag (name : String) (tags : List String) : List String :=
  if tags.contains name then tags else (name :: tags).mergeSort Text.NoCase.le

def linkTag (id : MemoryId) (name : String) : Statements Unit :=
  write fun s => do
    requireConstraint (s.exists? id) .memoryExists
    .ok ((), s.modifyMemory id fun m => { m with tags := withTag name m.tags })

def addTag (id : MemoryId) (tag : String) : Statements Unit := do
  insertTag tag
  let name ← tagRow tag
  linkTag id name

/-- Gives a memory some tags instead of those that it has. -/
def setTags (id : MemoryId) (tags : List String) : Statements Unit := do
  clearTags id
  tags.forM (addTag id)

def resetTags (id : MemoryId) : Option (List String) → Statements Unit
  | none => pure ()
  | some tags => setTags id tags

/-! ## Rows about memories -/

def insertContext (id : MemoryId) (c : NewContext) : Statements Context :=
  write fun s => do
    requireConstraint (s.exists? id) .memoryExists
    .ok (s.addContext id c)

def insertAccess (now : Instant) (id : MemoryId) (n : AccessNote) : Statements Unit :=
  write fun s => do
    requireConstraint (s.exists? id) .memoryExists
    let access := Store.newAccess now (s.lastAccessId + 1) id n
    .ok ((), { s with accesses := s.accesses ++ [access], lastAccessId := s.lastAccessId + 1 })

/-- Inserts an edge, or refreshes the one between the same memories of the same type. -/
def upsertEdge (now : Instant) (r : NewRelationship) : Statements Unit :=
  write fun s => do
    requireConstraint (s.exists? r.source && s.exists? r.target) .memoryExists
    let id := s.lastRelationshipId + 1
    let relationships := match s.relationships.find? (Store.sameEdge r) with
      | some e =>
        let refreshed := { e with strength := r.strength.stored, description := r.description }
        s.relationships.map fun e => if Store.sameEdge r e then refreshed else e
      | none =>
        s.relationships ++
          [{ id, source := r.source, target := r.target, type := r.type
             strength := r.strength.stored, description := r.description, createdAt := now }]
    .ok ((), { s with relationships, lastRelationshipId := id })

def edgeRow (now : Instant) (r : NewRelationship) : Statements Relationship :=
  select fun s =>
    (s.relationships.find? (Store.sameEdge r)).elim (.error .noRow) fun e => .ok (e.readAt now)

/-! ## Operations -/

def create (now : Instant) (r : NewMemory) : Statements Memory := do
  let id ← insertMemory now r
  setTags id r.tags
  r.contexts.forM fun c => discard (insertContext id c)
  memoryRow now id

def requireVersion (id : MemoryId) (stored : Int) : Option Int → Statements Unit
  | none => pure ()
  | some v => if v = stored then pure () else throw (.conflict (.version id stored v))

def update (now : Instant) (id : MemoryId) (c : Changes) : Statements Memory := do
  let m ← memoryRow now id
  requireVersion id m.version c.expectedVersion
  if ← updateMemory now id m.version c then
    resetTags id c.tags
    memoryRow now id
  else throw (.conflict (.changedWhileUpdating id))

def delete (id : MemoryId) : Statements Unit := do
  if ← deleteMemory id then pure () else throw (.notFound id)

def deleteOwned (now : Instant) (owner : String) (id : MemoryId) : Statements Unit := do
  let m ← memoryRow now id
  if m.owner = owner then delete id else throw (.notFound id)

def recordAccess (now : Instant) (id : MemoryId) (n : AccessNote) : Statements Unit := do
  if ← countAccess now id then insertAccess now id n else throw (.notFound id)

def addContext (now : Instant) (id : MemoryId) (c : NewContext) : Statements Context := do
  let _ ← memoryRow now id
  insertContext id c

def relate (now : Instant) (r : NewRelationship) : Statements Relationship := do
  let _ ← memoryRow now r.source
  let _ ← memoryRow now r.target
  upsertEdge now r
  edgeRow now r

end Statements

end LongTermMemory
