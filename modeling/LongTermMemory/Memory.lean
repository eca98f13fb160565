import LongTermMemory.Document
import LongTermMemory.Error
import LongTermMemory.Instant
import LongTermMemory.Memory.Type

/-!
Memories and what belongs to them: contexts, relationships and the log of accesses.
-/

namespace LongTermMemory

structure Memory where
  id : MemoryId
  owner : String
  content : String
  tags : List String
  type : MemoryType
  category : String
  importance : Int
  confidence : Single
  dynamicImportance : Single
  sourceType : Option String
  sourceId : Option String
  createdBy : String
  createdAt : Instant
  lastModified : Instant
  lastAccessed : Option Instant
  lastAgedAt : Option Instant
  accessCount : Int
  related : List MemoryId
  parent : Option MemoryId
  metadata : List (String × Document)
  archived : Bool
  archiveReason : Option String
  version : Int

namespace Memory

/-- The last access, or the creation of a memory never accessed. -/
def lastTouched (m : Memory) : Instant := m.lastAccessed.getD m.createdAt

def hasTag (m : Memory) (tag : String) : Bool := m.tags.contains tag

/-- The memory as it is read at the instant `now`: a stamp that cannot be read back counts as just
now where one is needed and as absent where none is. -/
def readAt (now : Instant) (m : Memory) : Memory :=
  { m with
    createdAt := if m.createdAt.readable then m.createdAt else now
    lastModified := if m.lastModified.readable then m.lastModified else now
    lastAccessed := m.lastAccessed.filter Instant.readable
    lastAgedAt := m.lastAgedAt.filter Instant.readable }

end Memory

/-- Situational metadata of a memory. -/
structure Context where
  id : Int
  memoryId : MemoryId
  type : ContextType
  key : String
  value : String
  confidence : Single

/-- A directed edge between two memories. -/
structure Relationship where
  id : Int
  source : MemoryId
  target : MemoryId
  type : RelationshipType
  strength : Single
  description : Option String
  createdAt : Instant

namespace Relationship

def touches (r : Relationship) (id : MemoryId) : Bool := r.source = id || r.target = id

def readAt (now : Instant) (r : Relationship) : Relationship :=
  { r with createdAt := if r.createdAt.readable then r.createdAt else now }

end Relationship

/-- One access of a memory. -/
structure Access where
  id : Int
  memoryId : MemoryId
  timestamp : Instant
  context : Option String
  method : String
  query : Option String
  relevant : Bool
  relevance : Option Single

def Access.readAt (now : Instant) (a : Access) : Access :=
  { a with timestamp := if a.timestamp.readable then a.timestamp else now }

/-- Written by the lifecycle pass that archives. -/
def archivedAsAged : String := "low_importance_aged"

/-- Written by the consolidation pass. -/
def archivedAsConsolidated : String := "consolidated"

/-- The author of the memories that the engine writes itself. -/
def systemActor : String := "system"

/-- The category of what fits no other, and the tag of what has no other. -/
def generalCategory : String := "general"

end LongTermMemory
