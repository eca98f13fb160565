import LongTermMemory.Config
import LongTermMemory.Memory

/-!
Requests: what a caller asks the store to create, change, link or list, and how each is read from
a document.
-/

namespace LongTermMemory

structure NewContext where
  type : ContextType := .default
  key : String
  value : String
  confidence : Single := Single.one

structure NewMemory where
  owner : String
  content : String
  tags : List String := []
  /-- Derived from the content when absent, and so is the category. -/
  type : Option MemoryType := none
  category : Option String := none
  importance : Int
  confidence : Single := Single.one
  sourceType : Option String := none
  sourceId : Option String := none
  createdBy : Option String := none
  related : List MemoryId := []
  parent : Option MemoryId := none
  metadata : List (String × Document) := []
  contexts : List NewContext := []

/-- What becomes of the reason why a memory was archived. -/
inductive ReasonChange where
  | keep
  | clear
  | set (reason : String)
deriving DecidableEq

/-- Changes to one memory; what is absent stays. -/
structure Changes where
  content : Option String := none
  tags : Option (List String) := none
  type : Option MemoryType := none
  category : Option String := none
  importance : Option Int := none
  confidence : Option Single := none
  metadata : Option (List (String × Document)) := none
  related : Option (List MemoryId) := none
  archived : Option Bool := none
  archiveReason : ReasonChange := .keep
  /-- The version that the memory must have for the changes to be made. -/
  expectedVersion : Option Int := none

inductive SortField where
  | id
  | createdAt
  | lastModified
  | lastAccessed
  | importance
  | accessCount
deriving DecidableEq, Repr

namespace SortField

def all : List SortField :=
  [.id, .createdAt, .lastModified, .lastAccessed, .importance, .accessCount]

def name : SortField → String
  | .id => "id"
  | .createdAt => "created_at"
  | .lastModified => "last_modified"
  | .lastAccessed => "last_accessed"
  | .importance => "importance"
  | .accessCount => "access_count"

def default : SortField := .createdAt

def ofName? (s : String) : Option SortField := all.find? (·.name == s)

end SortField

inductive SortOrder where
  | ascending
  | descending
deriving DecidableEq, Repr

namespace SortOrder

def all : List SortOrder := [.ascending, .descending]

def name : SortOrder → String
  | .ascending => "asc"
  | .descending => "desc"

def default : SortOrder := .descending

def ofName? (s : String) : Option SortOrder := all.find? (·.name == s)

end SortOrder

/-- Which memories of an owner are listed, and in which order. -/
structure Selection where
  limit : Option Int := none
  offset : Option Int := none
  /-- Only memories with a greater id. -/
  afterId : Option MemoryId := none
  /-- Only memories that carry one of these tags; an empty list excludes none. -/
  tags : Option (List String) := none
  type : Option MemoryType := none
  category : Option String := none
  minImportance : Option Int := none
  sortBy : Option SortField := none
  sortOrder : Option SortOrder := none
  includeArchived : Bool := false

structure SearchFilters where
  limit : Option Int := none
  tags : Option (List String) := none
  type : Option MemoryType := none
  category : Option String := none
  minImportance : Option Int := none
  includeArchived : Bool := false

/-- Search results come by importance. -/
def SearchFilters.selection (f : SearchFilters) : Selection :=
  { limit := f.limit
    tags := f.tags
    type := f.type
    category := f.category
    minImportance := f.minImportance
    includeArchived := f.includeArchived
    sortBy := some .importance }

structure NewRelationship where
  source : MemoryId
  target : MemoryId
  type : RelationshipType := .default
  strength : Single := Single.one
  description : Option String := none

/-- What is noted of one access. -/
structure AccessNote where
  context : Option String := none
  method : String
  query : Option String := none
  relevant : Bool := false
  relevance : Option Single := none

namespace AccessNote

/-- A memory was returned for a query. -/
def retrieval (query : String) (relevance : Single) (relevant : Bool) : AccessNote :=
  { method := "retrieval", query := some query, relevant, relevance := some relevance }

/-- A caller looked a memory up. -/
def direct (context : String) : AccessNote := { context := some context, method := "direct" }

end AccessNote

structure ToolOutcome where
  tool : String
  output : String

/-- One finished turn of a conversation. -/
structure Interaction where
  owner : String
  userInput : String
  agentResponse : String
  toolResult : Option ToolOutcome := none
  tags : List String := []

/-! ## Reading -/

open Document (asFields? asBool? asText? asList? asInt32? asInt64? asSingle? asRecord?)

def MemoryType.ofDocument? (d : Document) : Option MemoryType := d.asName? >>= MemoryType.ofName?

def ContextType.ofDocument? (d : Document) : Option ContextType := d.asName? >>= ContextType.ofName?

def RelationshipType.ofDocument? (d : Document) : Option RelationshipType :=
  d.asName? >>= RelationshipType.ofName?

def SortField.ofDocument? (d : Document) : Option SortField := d.asName? >>= SortField.ofName?

def SortOrder.ofDocument? (d : Document) : Option SortOrder := d.asName? >>= SortOrder.ofName?

/-- The memory type goes by two names. -/
def typeNames : List String := ["memory_type", "type"]

def NewContext.ofDocument? (d : Document) : Option NewContext := do
  let f ← asFields? 4 d
  some
    { type := ← f.withDefault 0 ["context_type"] .default ContextType.ofDocument?
      key := ← f.required 1 ["key"] asText?
      value := ← f.required 2 ["value"] asText?
      confidence := ← f.withDefault 3 ["confidence"] Single.one asSingle? }

def NewMemory.ofDocument? (d : Document) : Option NewMemory := do
  let f ← asFields? 14 d
  some
    { owner := ← f.required 0 ["owner_id"] asText?
      content := ← f.required 1 ["content"] asText?
      tags := ← f.withDefault 2 ["tags"] [] Document.asTexts?
      type := ← f.orAbsent 3 typeNames MemoryType.ofDocument?
      category := ← f.orAbsent 4 ["category"] asText?
      importance := ← f.required 5 ["importance_score"] asInt32?
      confidence := ← f.withDefault 6 ["confidence_score"] Single.one asSingle?
      sourceType := ← f.optional 7 ["source_type"] asText?
      sourceId := ← f.optional 8 ["source_id"] asText?
      createdBy := ← f.optional 9 ["created_by"] asText?
      related := ← f.withDefault 10 ["related_memory_ids"] [] (asList? asInt64?)
      parent := ← f.optional 11 ["parent_memory_id"] asInt64?
      metadata := ← f.withDefault 12 ["metadata"] [] asRecord?
      contexts := ← f.withDefault 13 ["contexts"] [] (asList? NewContext.ofDocument?) }

/-- A reason can be set, not cleared: an absent reason and a null one both stay. -/
def Changes.ofDocument? (d : Document) : Option Changes := do
  let f ← asFields? 11 d
  let reason ← f.optional 9 ["archive_reason"] asText?
  some
    { content := ← f.optional 0 ["content"] asText?
      tags := ← f.optional 1 ["tags"] Document.asTexts?
      type := ← f.optional 2 typeNames MemoryType.ofDocument?
      category := ← f.optional 3 ["category"] asText?
      importance := ← f.optional 4 ["importance_score"] asInt32?
      confidence := ← f.optional 5 ["confidence_score"] asSingle?
      metadata := ← f.optional 6 ["metadata"] asRecord?
      related := ← f.optional 7 ["related_memory_ids"] (asList? asInt64?)
      archived := ← f.optional 8 ["is_archived"] asBool?
      archiveReason := reason.elim .keep .set
      expectedVersion := ← f.optional 10 ["expected_version"] asInt64? }

def Selection.ofDocument? (d : Document) : Option Selection := do
  let f ← asFields? 10 d
  some
    { limit := ← f.optional 0 ["limit"] asInt64?
      offset := ← f.optional 1 ["offset"] asInt64?
      afterId := ← f.optional 2 ["after_id"] asInt64?
      tags := ← f.optional 3 ["tags"] Document.asTexts?
      type := ← f.optional 4 typeNames MemoryType.ofDocument?
      category := ← f.optional 5 ["category"] asText?
      minImportance := ← f.optional 6 ["min_importance"] asInt32?
      sortBy := ← f.optional 7 ["sort_by"] SortField.ofDocument?
      sortOrder := ← f.optional 8 ["sort_order"] SortOrder.ofDocument?
      includeArchived := ← f.withDefault 9 ["include_archived"] false asBool? }

def SearchFilters.ofDocument? (d : Document) : Option SearchFilters := do
  let f ← asFields? 6 d
  some
    { limit := ← f.optional 0 ["limit"] asInt64?
      tags := ← f.optional 1 ["tags"] Document.asTexts?
      type := ← f.optional 2 typeNames MemoryType.ofDocument?
      category := ← f.optional 3 ["category"] asText?
      minImportance := ← f.optional 4 ["min_importance"] asInt32?
      includeArchived := ← f.withDefault 5 ["include_archived"] false asBool? }

def NewRelationship.ofDocument? (d : Document) : Option NewRelationship := do
  let f ← asFields? 5 d
  some
    { source := ← f.required 0 ["source_memory_id"] asInt64?
      target := ← f.required 1 ["target_memory_id"] asInt64?
      type := ← f.withDefault 2 ["relationship_type"] .default RelationshipType.ofDocument?
      strength := ← f.withDefault 3 ["strength"] Single.one asSingle?
      description := ← f.optional 4 ["description"] asText? }

def AccessNote.ofDocument? (d : Document) : Option AccessNote := do
  let f ← asFields? 5 d
  some
    { context := ← f.optional 0 ["access_context"] asText?
      method := ← f.required 1 ["access_method"] asText?
      query := ← f.optional 2 ["query"] asText?
      relevant := ← f.withDefault 3 ["was_relevant"] false asBool?
      relevance := ← f.optional 4 ["relevance_score"] asSingle? }

def ToolOutcome.ofDocument? (d : Document) : Option ToolOutcome := do
  let f ← asFields? 2 d
  some
    { tool := ← f.required 0 ["tool"] asText?
      output := ← f.required 1 ["output"] asText? }

def Interaction.ofDocument? (d : Document) : Option Interaction := do
  let f ← asFields? 5 d
  some
    { owner := ← f.required 0 ["owner_id"] asText?
      userInput := ← f.required 1 ["user_input"] asText?
      agentResponse := ← f.required 2 ["agent_response"] asText?
      toolResult := ← f.optional 3 ["tool_result"] ToolOutcome.ofDocument?
      tags := ← f.withDefault 4 ["tags"] [] Document.asTexts? }

end LongTermMemory
