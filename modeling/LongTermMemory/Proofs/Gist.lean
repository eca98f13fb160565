import LongTermMemory.Merging
import LongTermMemory.Proofs.OptimisticLock

/-!
What grouping and merging read of memories: their gist. Stamps, the count of accesses and the parent
play no part in it, so memories that differ in these only are grouped and merged alike.
-/

namespace LongTermMemory

namespace Memory

/-- A memory without its stamps, the count of its accesses and its parent. -/
def gist (m : Memory) : Memory :=
  { m with
    createdAt := ⟨0⟩
    lastModified := ⟨0⟩
    lastAccessed := none
    lastAgedAt := none
    accessCount := 0
    parent := none }

@[simp] theorem gist_readAt (now : Instant) (m : Memory) : (m.readAt now).gist = m.gist := rfl

/-- Memories of one version have one gist. -/
theorem Unedited.gist_eq {m m' : Memory} (h : m.Unedited m') : m'.gist = m.gist := by
  unfold Unedited at h
  rw [h]
  rfl

end Memory

variable {ms ms' : List Memory}

theorem ids_of_gists (h : ms.map Memory.gist = ms'.map Memory.gist) :
    ms.map (·.id) = ms'.map (·.id) := by
  have hids : ∀ l : List Memory, (l.map Memory.gist).map (·.id) = l.map (·.id) := by
    intro l
    rw [List.map_map]
    rfl
  rw [← hids ms, h, hids]

/-! ## The request for a new memory -/

theorem summarizeGroup_gist (maxItems : Nat) (group : DisplayGroup) (ms : List Memory) :
    summarizeGroup maxItems group (ms.map Memory.gist) = summarizeGroup maxItems group ms := by
  unfold summarizeGroup
  simp only [List.map_map]
  rfl

theorem synthesize_gist (maxItems : Nat) (ms : List Memory) :
    synthesize maxItems (ms.map Memory.gist) = synthesize maxItems ms := by
  have hgroups : (ms.map Memory.gist).map DisplayGroup.ofMemory = ms.map DisplayGroup.ofMemory := by
    rw [List.map_map]
    rfl
  unfold synthesize
  rw [hgroups]
  refine congrArg (String.intercalate " | ") (List.map_congr_left fun g _ => ?_)
  rw [List.filter_map]
  exact summarizeGroup_gist maxItems g _

namespace ConsolidationConfig

variable (c : ConsolidationConfig)

theorem mergedRequest_gist (owner : String) (ms : List Memory) :
    c.mergedRequest owner (ms.map Memory.gist) = c.mergedRequest owner ms := by
  unfold mergedRequest mergedImportance
  simp only [synthesize_gist, List.map_map, List.flatMap_map]
  rfl

theorem mergedRequest_congr (owner : String) (h : ms.map Memory.gist = ms'.map Memory.gist) :
    c.mergedRequest owner ms = c.mergedRequest owner ms' := by
  rw [← mergedRequest_gist, h, mergedRequest_gist]

/-! ## Groups -/

theorem partition_gist (ms : List Memory) : c.partition (ms.map Memory.gist) = c.partition ms := by
  unfold partition
  rw [List.map_map]
  rfl

/-- The gists of memories are grouped as the memories are. -/
theorem findGroups_gist (ms : List Memory) :
    c.findGroups (ms.map Memory.gist) = (c.findGroups ms).map (·.map Memory.gist) := by
  unfold findGroups
  rw [partition_gist, List.map_map]
  refine List.map_congr_left fun group _ => ?_
  rw [Function.comp_apply, List.map_filterMap]
  refine List.filterMap_congr fun id _ => ?_
  rw [← List.map_reverse, List.find?_map]
  rfl

theorem findGroups_congr (h : ms.map Memory.gist = ms'.map Memory.gist) :
    (c.findGroups ms).map (·.map Memory.gist) = (c.findGroups ms').map (·.map Memory.gist) := by
  rw [← findGroups_gist, h, findGroups_gist]

end ConsolidationConfig

end LongTermMemory
