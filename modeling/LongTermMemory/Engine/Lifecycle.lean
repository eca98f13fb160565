import LongTermMemory.Engine.Page

/-!
Lifecycle: three passes over an owner's active memories. Aging takes a point of importance from
memories untouched for a while, archival archives old memories of little importance, and of
memories with one content all but one are deleted.
-/

namespace LongTermMemory

structure LifecycleReport where
  aged : Nat := 0
  archived : Nat := 0
  deduplicated : Nat := 0
  aborted : Bool := false
deriving DecidableEq

namespace Lifecycle

/-- Whether a memory is to lose a point at the instant `now`, the window being in milliseconds. -/
def dueForAging (now : Instant) (window : Int) (m : Memory) : Bool :=
  window < now.since m.lastTouched && m.lastAgedAt.all (fun t => window ≤ now.since t) &&
    1 < m.importance

def dueForArchival (now : Instant) (minAge threshold : Int) (m : Memory) : Bool :=
  minAge < now.since m.createdAt && m.importance < threshold

/-- Whether `a` is kept rather than `b`: the more important one, else the younger, else the one
with the greater id. -/
def outranks (a b : Memory) : Bool :=
  b.importance < a.importance ||
    (b.importance = a.importance &&
      (b.createdAt < a.createdAt || (b.createdAt = a.createdAt && b.id < a.id)))

/-- The one of some memories that is kept. -/
def survivor (first : Memory) (rest : List Memory) : Memory :=
  rest.foldl (fun best m => if outranks m best then m else best) first

/-- The sets of more than one memory with one content, in the order of their first members. -/
def duplicates (ms : List Memory) : List (List Memory) :=
  ((ms.map (·.content)).eraseDups.map fun content => ms.filter fun m => m.content = content).filter
    fun group => 1 < group.length

end Lifecycle

namespace Engine

open Lifecycle

/-- Ages the given memories that are still at the version read; counts them. -/
def ageAll (now : Instant) : List Memory → Nat × Store → Except Error (Nat × Store)
  | [], state => .ok state
  | m :: rest, (n, s) => do
    let (done, s) ← s.age now m.id m.version (m.importance - 1)
    ageAll now rest (if done then n + 1 else n, s)

/-- Archives the given memories that are still at the version read; counts them. -/
def archiveAll (clock : Instant) : List Memory → Nat × Store → Nat × Store
  | [], state => state
  | m :: rest, (n, s) =>
    let (done, s) := s.archiveIfVersion clock m.id m.version archivedAsAged
    archiveAll clock rest (if done then n + 1 else n, s)

/-- Deletes the given memories that still exist; counts them. -/
def deleteAll : List Memory → Nat × Store → Nat × Store
  | [], state => state
  | m :: rest, (n, s) =>
    match s.delete m.id with
    | .ok s => deleteAll rest (n + 1, s)
    | .error _ => deleteAll rest (n, s)

def window (days : Int) : Except Error Int :=
  match Instant.days? days with
  | some w => .ok w
  | none => .error (.windowOutOfRange days)

/-- The aging pass as of `now`, the clock standing at `clock`. -/
def agePass (e : Engine) (clock now : Instant) (owner : String) (deadline : Deadline)
    (s : Store) : Except Error (Passed (Nat × Store)) := do
  let c := e.config.lifecycle
  let w ← window c.agingWindowDays
  walk clock owner c.pageSize (fun page state => ageAll now (page.filter (dueForAging now w)) state)
    deadline (0, s)

def archivePass (e : Engine) (clock now : Instant) (owner : String) (deadline : Deadline)
    (s : Store) : Except Error (Passed (Nat × Store)) := do
  let c := e.config.lifecycle
  let w ← window c.archiveAgeDays
  walk clock owner c.pageSize
    (fun page state =>
      .ok (archiveAll clock (page.filter (dueForArchival now w c.archiveImportanceBelow)) state))
    deadline (0, s)

/-- Deletes from each set all members but the survivor, looking at the clock before each set. -/
def removeDuplicates : List (List Memory) → Deadline → Nat × Store → Passed (Nat × Store)
  | [], deadline, state => ⟨state, deadline, false⟩
  | [] :: rest, deadline, state => removeDuplicates rest deadline state
  | (m :: ms) :: rest, deadline, state =>
    match deadline.check with
    | (true, deadline) => ⟨state, deadline, true⟩
    | (false, deadline) =>
      let keep := survivor m ms
      removeDuplicates rest deadline (deleteAll ((m :: ms).filter fun x => x.id ≠ keep.id) state)

/-- All pages are read before anything is deleted. -/
def deduplicatePass (e : Engine) (clock : Instant) (owner : String) (deadline : Deadline)
    (s : Store) : Except Error (Passed (Nat × Store)) := do
  let read ← walk clock owner e.config.lifecycle.pageSize
    (fun page (ms, s) => .ok (ms ++ page, s)) deadline (([] : List Memory), s)
  let (ms, s) := read.result
  if read.aborted then .ok ⟨(0, s), read.deadline, true⟩
  else .ok (removeDuplicates (duplicates ms) read.deadline (0, s))

/-- The three passes as of `now`; the deadline may stop the run in any of them. -/
def lifecycleAt (e : Engine) (clock now : Instant) (owner : String) (deadline : Deadline)
    (s : Store) : Except Error (LifecycleReport × Store) := do
  let aging ← e.agePass clock now owner deadline s
  let (aged, s) := aging.result
  if aging.aborted then .ok ({ aged, aborted := true }, s)
  else
    let archival ← e.archivePass clock now owner aging.deadline s
    let (archived, s) := archival.result
    if archival.aborted then .ok ({ aged, archived, aborted := true }, s)
    else
      let removal ← e.deduplicatePass clock owner archival.deadline s
      let (deduplicated, s) := removal.result
      .ok ({ aged, archived, deduplicated, aborted := removal.aborted }, s)

def lifecycle (e : Engine) (now : Instant) (owner : String) (s : Store) :
    Except Error (LifecycleReport × Store) := do
  Invalid.raise (Invalid.checkOwner owner)
  e.lifecycleAt now now owner .never s

end Engine

end LongTermMemory
