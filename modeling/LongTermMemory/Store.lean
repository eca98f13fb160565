import LongTermMemory.Digest
import LongTermMemory.Request
import LongTermMemory.Text.Index
import LongTermMemory.Text.NoCase

/-!
The store: memories with their contexts, relationships and access log, all as plain lists in the
order of their ids. An operation gives its answer and the new store, or an error and no store, so
that a failed one leaves no trace. Nothing here checks requests beyond what the database itself
keeps; the engine does that.
-/

namespace LongTermMemory

/-- A memory as it is kept, with the digest and the index terms of its content. -/
structure Entry where
  memory : Memory
  digest : String
  terms : List (List UInt8)

def Entry.ofMemory (m : Memory) : Entry :=
  { memory := m, digest := Digest.ofContent m.content, terms := Text.Index.terms m.content }

/-- The last ids given out are never given out again. -/
structure Store where
  entries : List Entry := []
  contexts : List Context := []
  relationships : List Relationship := []
  accesses : List Access := []
  /-- The tag names in their first spellings. -/
  tagNames : List String := []
  lastMemoryId : MemoryId := 0
  lastContextId : Int := 0
  lastRelationshipId : Int := 0
  lastAccessId : Int := 0

namespace Store

def empty : Store := {}

def entry? (s : Store) (id : MemoryId) : Option Entry := s.entries.find? (·.memory.id = id)

/-- The memory as it is kept. -/
def kept? (s : Store) (id : MemoryId) : Option Memory := (s.entry? id).map (·.memory)

def exists? (s : Store) (id : MemoryId) : Bool := s.entries.any (·.memory.id = id)

/-- Changes the entry of one id. -/
def modify (s : Store) (id : MemoryId) (f : Entry → Entry) : Store :=
  { s with entries := s.entries.map fun e => if e.memory.id = id then f e else e }

def modifyMemory (s : Store) (id : MemoryId) (f : Memory → Memory) : Store :=
  s.modify id fun e => { e with memory := f e.memory }

def get (s : Store) (now : Instant) (id : MemoryId) : Except Error Memory :=
  match s.kept? id with
  | some m => .ok (m.readAt now)
  | none => .error (.notFound id)

/-! ## Tags -/

/-- The spelling under which a tag name is kept, and the names with it. -/
def spell (names : List String) (tag : String) : String × List String :=
  match names.find? (Text.NoCase.same tag) with
  | some name => (name, names)
  | none => (tag, names ++ [tag])

/-- The kept spellings of some tags, each once, and the names with them. -/
def spellAll (names : List String) : List String → List String × List String
  | [] => ([], names)
  | tag :: rest =>
    let (name, names) := spell names tag
    let (spelled, names) := spellAll names rest
    (if spelled.contains name then spelled else name :: spelled, names)

/-- The tags of a memory as they are kept: in their kept spellings and in the order of names. -/
def keepTags (names tags : List String) : List String × List String :=
  let (spelled, names) := spellAll names tags
  (spelled.mergeSort Text.NoCase.le, names)

/-! ## Writing -/

def importanceInRange (i : Int) : Bool := 1 ≤ i ∧ i ≤ 10

def requireConstraint (p : Bool) (c : Constraint) : Except Error Unit :=
  if p then .ok () else .error (.database c)

/-- The memory that a request becomes under an id. -/
def newMemory (now : Instant) (id : MemoryId) (tags : List String) (r : NewMemory) : Memory :=
  { id
    owner := r.owner
    content := r.content
    tags
    type := r.type.getD .default
    category := r.category.getD generalCategory
    importance := r.importance
    confidence := r.confidence.stored
    dynamicImportance := Single.ofInt r.importance
    sourceType := r.sourceType
    sourceId := r.sourceId
    createdBy := r.createdBy.getD systemActor
    createdAt := now
    lastModified := now
    lastAccessed := none
    lastAgedAt := none
    accessCount := 0
    related := Ascending.ofList r.related
    parent := r.parent
    metadata := r.metadata
    archived := false
    archiveReason := none
    version := 1 }

def newContext (id : Int) (memoryId : MemoryId) (c : NewContext) : Context :=
  { id, memoryId, type := c.type, key := c.key, value := c.value, confidence := c.confidence }

/-- The context as it was given, and the store that keeps it. -/
def addContext (s : Store) (memoryId : MemoryId) (c : NewContext) : Context × Store :=
  let context := newContext (s.lastContextId + 1) memoryId c
  let kept := { context with confidence := c.confidence.stored }
  (context, { s with contexts := s.contexts ++ [kept], lastContextId := s.lastContextId + 1 })

def addContexts (s : Store) (memoryId : MemoryId) (cs : List NewContext) : Store :=
  cs.foldl (fun s c => (s.addContext memoryId c).2) s

/-- A memory may be its own parent. -/
def create (s : Store) (now : Instant) (r : NewMemory) : Except Error (Memory × Store) := do
  requireConstraint (importanceInRange r.importance) .importanceRange
  requireConstraint r.confidence.inUnit .confidenceRange
  let id := s.lastMemoryId + 1
  requireConstraint (r.parent.all fun p => p = id || s.exists? p) .parentExists
  let (tags, tagNames) := keepTags s.tagNames r.tags
  let m := newMemory now id tags r
  let s := { s with entries := s.entries ++ [Entry.ofMemory m], tagNames, lastMemoryId := id }
  .ok (m.readAt now, s.addContexts id r.contexts)

/-- Creates one memory after another, all of them or none. -/
def createAll (s : Store) (now : Instant) : List NewMemory → Except Error (List Memory × Store)
  | [] => .ok ([], s)
  | r :: rest => do
    let (m, s) ← s.create now r
    let (ms, s) ← createAll s now rest
    .ok (m :: ms, s)

/-- The memory after some changes, its tags aside. -/
def changed (now : Instant) (c : Changes) (m : Memory) : Memory :=
  { m with
    content := c.content.getD m.content
    type := c.type.getD m.type
    category := c.category.getD m.category
    importance := c.importance.getD m.importance
    dynamicImportance := c.importance.elim m.dynamicImportance Single.ofInt
    confidence := c.confidence.elim m.confidence Single.stored
    metadata := c.metadata.getD m.metadata
    related := c.related.elim m.related Ascending.ofList
    archived := c.archived.getD m.archived
    archiveReason :=
      match c.archiveReason with
      | .keep => m.archiveReason
      | .clear => none
      | .set reason => some reason
    lastModified := now
    version := m.version + 1 }

/-- The entry of a changed memory. The digest and the terms follow the content. -/
def changedEntry (now : Instant) (c : Changes) (tags : Option (List String)) (e : Entry) : Entry :=
  let m := { changed now c e.memory with tags := tags.getD e.memory.tags }
  { memory := m
    digest := c.content.elim e.digest Digest.ofContent
    terms := c.content.elim e.terms Text.Index.terms }

def update (s : Store) (now : Instant) (id : MemoryId) (c : Changes) :
    Except Error (Memory × Store) := do
  let m ← s.get now id
  match c.expectedVersion with
  | none => pure ()
  | some v => if v = m.version then pure () else throw (.conflict (.version id m.version v))
  requireConstraint (c.importance.all importanceInRange) .importanceRange
  requireConstraint (c.confidence.all Single.inUnit) .confidenceRange
  let (tags, tagNames) := match c.tags with
    | none => (none, s.tagNames)
    | some tags =>
      let (tags, names) := keepTags s.tagNames tags
      (some tags, names)
  let s := { s.modify id (changedEntry now c tags) with tagNames }
  let m ← s.get now id
  .ok (m, s)

/-- Deletes a memory with all that belongs to it; its children lose their parent. -/
def remove (s : Store) (id : MemoryId) : Store :=
  { s with
    entries := (s.entries.filter fun e => e.memory.id ≠ id).map fun e =>
      if e.memory.parent = some id then { e with memory := { e.memory with parent := none } } else e
    contexts := s.contexts.filter fun c => c.memoryId ≠ id
    relationships := s.relationships.filter fun r => !r.touches id
    accesses := s.accesses.filter fun a => a.memoryId ≠ id }

def delete (s : Store) (id : MemoryId) : Except Error Store :=
  if s.exists? id then .ok (s.remove id) else .error (.notFound id)

def accessed (now : Instant) (m : Memory) : Memory :=
  { m with
    accessCount := m.accessCount + 1
    lastAccessed := some now
    dynamicImportance := Single.ofInt m.importance }

def newAccess (now : Instant) (id : Int) (memoryId : MemoryId) (n : AccessNote) : Access :=
  { id
    memoryId
    timestamp := now
    context := n.context
    method := n.method
    query := n.query
    relevant := n.relevant
    relevance := n.relevance.map Single.stored }

def recordAccess (s : Store) (now : Instant) (id : MemoryId) (n : AccessNote) :
    Except Error Store :=
  if s.exists? id then
    let access := newAccess now (s.lastAccessId + 1) id n
    .ok
      { s.modifyMemory id (accessed now) with
        accesses := s.accesses ++ [access]
        lastAccessId := s.lastAccessId + 1 }
  else .error (.notFound id)

/-- Whether a relationship has the ends and the type of a request. -/
def sameEdge (r : NewRelationship) (e : Relationship) : Bool :=
  e.source = r.source && e.target = r.target && e.type = r.type

/-- Adds an edge, or refreshes the one between the same memories of the same type. An id is used up
either way. -/
def relate (s : Store) (now : Instant) (r : NewRelationship) :
    Except Error (Relationship × Store) := do
  let _ ← s.get now r.source
  let _ ← s.get now r.target
  let id := s.lastRelationshipId + 1
  match s.relationships.find? (sameEdge r) with
  | some e =>
    let refreshed := { e with strength := r.strength.stored, description := r.description }
    .ok (refreshed.readAt now,
      { s with
        relationships := s.relationships.map fun e => if sameEdge r e then refreshed else e
        lastRelationshipId := id })
  | none =>
    let added : Relationship :=
      { id, source := r.source, target := r.target, type := r.type, strength := r.strength.stored
        description := r.description, createdAt := now }
    .ok (added.readAt now,
      { s with relationships := s.relationships ++ [added], lastRelationshipId := id })

def archivedMemory (now : Instant) (reason : String) (m : Memory) : Memory :=
  { m with
    archived := true
    archiveReason := some reason
    lastModified := now
    version := m.version + 1 }

/-- Archives a memory that is still active at the given version, and says whether it was. -/
def archiveIfVersion (s : Store) (now : Instant) (id : MemoryId) (version : Int)
    (reason : String) : Bool × Store :=
  match s.kept? id with
  | some m =>
    if m.version = version ∧ !m.archived then
      (true, s.modifyMemory id (archivedMemory now reason))
    else (false, s)
  | none => (false, s)

def agedMemory (at_ : Instant) (importance : Int) (m : Memory) : Memory :=
  { m with
    importance
    dynamicImportance := Single.ofInt importance
    lastAgedAt := some at_
    lastModified := at_
    version := m.version + 1 }

/-- Gives a memory at the given version a new importance, and says whether it was at it. -/
def age (s : Store) (at_ : Instant) (id : MemoryId) (version importance : Int) :
    Except Error (Bool × Store) :=
  match s.kept? id with
  | some m =>
    if m.version = version then do
      requireConstraint (importanceInRange importance) .importanceRange
      .ok (true, s.modifyMemory id (agedMemory at_ importance))
    else .ok (false, s)
  | none => .ok (false, s)

end Store

end LongTermMemory
