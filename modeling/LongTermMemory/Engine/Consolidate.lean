import LongTermMemory.Engine.Page
import LongTermMemory.Merging

/-!
Consolidation: each group of similar active memories of an owner gives way to one new memory. Its
members are archived, and the new memory supersedes them.
-/

namespace LongTermMemory

structure ConsolidationReport where
  groupsFound : Nat := 0
  groupsMerged : Nat := 0
  memoriesArchived : Nat := 0
  mergedIds : List MemoryId := []
  skippedGroups : Nat := 0
  aborted : Bool := false
deriving DecidableEq

namespace Engine

/-- The edge from a merged memory to a memory merged into it. -/
def supersession (merged member : MemoryId) : NewRelationship :=
  { source := merged
    target := member
    type := .supersedes
    description := some "consolidated" }

/-- Archives the members of a merged group, each of which must be active and unchanged since it was
read. -/
def supersedeAll (now : Instant) (merged : MemoryId) : List Memory → Store → Except Error Store
  | [], s => .ok s
  | m :: rest, s => do
    let (done, s) := s.archiveIfVersion now m.id m.version archivedAsConsolidated
    if done then
      let (_, s) ← s.relate now (supersession merged m.id)
      supersedeAll now merged rest s
    else .error (.conflict (.changedWhileMerging m.id))

/-- Merges a group, wholly or not at all. -/
def merge (e : Engine) (now : Instant) (owner : String) (group : List Memory) (s : Store) :
    Except Error (Memory × Store) := do
  let r ← e.prepare (e.config.consolidation.mergedRequest owner group)
  let (merged, s) ← s.create now r
  let s ← supersedeAll now merged.id group s
  .ok (merged, s)

/-- What the store now keeps of a group: its members that are still active. -/
def reload (now : Instant) (owner : String) (group : List Memory) (s : Store) : List Memory :=
  group.filterMap fun m =>
    match s.get now m.id with
    | .ok m => if m.owner = owner ∧ !m.archived then some m else none
    | .error _ => none

/-- Merges a group; after a conflict once more with what is left of it, if that are at least two
memories. -/
def mergeWithRetry (e : Engine) (now : Instant) (owner : String) (group : List Memory)
    (s : Store) : Option Memory × Store :=
  match e.merge now owner group s with
  | .ok (m, s) => (some m, s)
  | .error err =>
    if !err.retryable then (none, s)
    else
      let left := reload now owner group s
      if left.length < 2 then (none, s)
      else
        match e.merge now owner left s with
        | .ok (m, s) => (some m, s)
        | .error _ => (none, s)

/-- Reads active memories page by page up to the limit of a pass, at most `fuel` pages. -/
def loadPages (c : ConsolidationConfig) (now : Instant) (owner : String) (s : Store) :
    Nat → Deadline → Option MemoryId → List Memory → Except Error (Passed (List Memory))
  | 0, deadline, _, read => .ok ⟨read, deadline, false⟩
  | fuel + 1, deadline, after, read =>
    match deadline.check with
    | (true, deadline) => .ok ⟨read, deadline, true⟩
    | (false, deadline) =>
      let size := min c.pageSize (c.maxMemoriesPerPass - read.length)
      if c.maxMemoriesPerPass ≤ read.length then .ok ⟨read, deadline, false⟩
      else do
        let page ← activePage now owner size after s
        if page.length = size then
          loadPages c now owner s fuel deadline (page.getLast?.map (·.id)) (read ++ page)
        else .ok ⟨read ++ page, deadline, false⟩

/-- Each page but the last has a memory of its own. -/
def loadActive (e : Engine) (now : Instant) (owner : String) (deadline : Deadline) (s : Store) :
    Except Error (Passed (List Memory)) :=
  loadPages e.config.consolidation now owner s (s.entries.length + 2) deadline none []

/-- Merges one group after another, looking at the clock before each. -/
def mergeAll (e : Engine) (now : Instant) (owner : String) :
    List (List Memory) → Deadline → ConsolidationReport × Store → ConsolidationReport × Store
  | [], _, state => state
  | group :: rest, deadline, (report, s) =>
    match deadline.check with
    | (true, _) => ({ report with aborted := true }, s)
    | (false, deadline) =>
      match e.mergeWithRetry now owner group s with
      | (some m, s) =>
        let report :=
          { report with
            groupsMerged := report.groupsMerged + 1
            memoriesArchived := report.memoriesArchived + m.related.length
            mergedIds := report.mergedIds ++ [m.id] }
        mergeAll e now owner rest deadline (report, s)
      | (none, s) =>
        mergeAll e now owner rest deadline
          ({ report with skippedGroups := report.skippedGroups + 1 }, s)

def consolidateBy (e : Engine) (now : Instant) (owner : String) (deadline : Deadline)
    (s : Store) : Except Error (ConsolidationReport × Store) := do
  let read ← e.loadActive now owner deadline s
  if read.aborted then .ok ({ aborted := true }, s)
  else
    let groups := e.config.consolidation.findGroups read.result
    .ok (e.mergeAll now owner groups read.deadline ({ groupsFound := groups.length }, s))

def consolidate (e : Engine) (now : Instant) (owner : String) (s : Store) :
    Except Error (ConsolidationReport × Store) := do
  Invalid.raise (Invalid.checkOwner owner)
  e.consolidateBy now owner .never s

end Engine

end LongTermMemory
