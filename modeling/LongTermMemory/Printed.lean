import LongTermMemory.Engine.Maintain

/-!
Memories, figures and reports as documents, with times as they are printed. The figures of an owner
have their fields in the order of names.
-/

namespace LongTermMemory

def Instant.document (t : Instant) : Document := .text t.printed

namespace Document

def ofNat (n : Nat) : Document := .integer n

def ofCounts (l : List (String × Nat)) : Document := .record (l.map fun (k, n) => (k, ofNat n))

end Document

def Memory.document (m : Memory) : Document :=
  .record
    [("id", .integer m.id),
     ("owner_id", .text m.owner),
     ("content", .text m.content),
     ("tags", Document.texts m.tags),
     ("type", .text m.type.name),
     ("category", .text m.category),
     ("importance_score", .integer m.importance),
     ("confidence_score", Document.ofSingle m.confidence),
     ("dynamic_importance", Document.ofSingle m.dynamicImportance),
     ("source_type", Document.ofOption .text m.sourceType),
     ("source_id", Document.ofOption .text m.sourceId),
     ("created_by", .text m.createdBy),
     ("created_at", m.createdAt.document),
     ("last_modified", m.lastModified.document),
     ("last_accessed", Document.ofOption Instant.document m.lastAccessed),
     ("last_aged_at", Document.ofOption Instant.document m.lastAgedAt),
     ("access_count", .integer m.accessCount),
     ("related_memory_ids", Document.integers m.related),
     ("parent_memory_id", Document.ofOption .integer m.parent),
     ("metadata", .record m.metadata),
     ("is_archived", .bool m.archived),
     ("archive_reason", Document.ofOption .text m.archiveReason),
     ("version", .integer m.version)]

def Stats.document (s : Stats) : Document :=
  .record
    [("active_memories", Document.ofNat s.activeMemories),
     ("archived_memories", Document.ofNat s.archivedMemories),
     ("avg_importance", Document.ofOption Document.ofWidened s.averageImportance),
     ("by_category", Document.ofCounts s.byCategory),
     ("by_type", Document.ofCounts s.byType),
     ("most_accessed", .list (s.mostAccessed.map fun (id, n) => Document.integers [id, n])),
     ("owner_id", .text s.owner),
     ("top_tags", .list (s.topTags.map fun (tag, n) => .list [.text tag, Document.ofNat n])),
     ("total_accesses", .integer s.totalAccesses),
     ("total_memories", Document.ofNat s.totalMemories),
     ("total_relationships", Document.ofNat s.totalRelationships)]

def LifecycleReport.document (r : LifecycleReport) : Document :=
  .record
    [("aged", Document.ofNat r.aged),
     ("archived", Document.ofNat r.archived),
     ("deduplicated", Document.ofNat r.deduplicated),
     ("aborted", .bool r.aborted)]

def ConsolidationReport.document (r : ConsolidationReport) : Document :=
  .record
    [("groups_found", Document.ofNat r.groupsFound),
     ("groups_merged", Document.ofNat r.groupsMerged),
     ("memories_archived", Document.ofNat r.memoriesArchived),
     ("merged_ids", Document.integers r.mergedIds),
     ("skipped_groups", Document.ofNat r.skippedGroups),
     ("aborted", .bool r.aborted)]

def MaintenanceReport.document (r : MaintenanceReport) : Document :=
  .record
    [("owner_id", .text r.owner),
     ("lifecycle", r.lifecycle.document),
     ("consolidation", r.consolidation.document)]

end LongTermMemory
