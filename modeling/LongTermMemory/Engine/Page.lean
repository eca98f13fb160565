import LongTermMemory.Engine.Retrieve

/-!
Pages of an owner's active memories, and the deadline that may stop a pass between two of them.
-/

namespace LongTermMemory

/-- A deadline is told by the number of times that a look at the clock still finds it ahead. -/
inductive Deadline where
  | never
  | afterChecks (n : Nat)
deriving DecidableEq, Repr

/-- A look at the clock: whether the deadline has passed, and the deadline for later looks. -/
def Deadline.check : Deadline → Bool × Deadline
  | .never => (false, .never)
  | .afterChecks 0 => (true, .afterChecks 0)
  | .afterChecks (n + 1) => (false, .afterChecks n)

/-- The outcome of a pass: what it came to, the deadline left, and whether the deadline stopped
it. -/
structure Passed (α : Type) where
  result : α
  deadline : Deadline
  aborted : Bool

namespace Engine

/-- The first memories by ascending id, of those with an id after `after`. -/
def activePage (now : Instant) (owner : String) (size : Nat) (after : Option MemoryId)
    (s : Store) : Except Error (List Memory) :=
  list now owner
    { limit := some (signedCount size)
      afterId := after
      sortBy := some .id
      sortOrder := some .ascending } s

/-- Takes one page after another, at most `fuel` of them, until one is not full. The step may
change the store that the next page is read from. -/
def walkPages {α : Type} (now : Instant) (owner : String) (size : Nat)
    (step : List Memory → α × Store → Except Error (α × Store)) :
    Nat → Deadline → Option MemoryId → α × Store → Except Error (Passed (α × Store))
  | 0, deadline, _, state => .ok ⟨state, deadline, false⟩
  | fuel + 1, deadline, after, state =>
    match deadline.check with
    | (true, deadline) => .ok ⟨state, deadline, true⟩
    | (false, deadline) => do
      let page ← activePage now owner size after state.2
      if page.isEmpty then .ok ⟨state, deadline, false⟩
      else
        let state ← step page state
        if page.length = size then
          walkPages now owner size step fuel deadline (page.getLast?.map (·.id)) state
        else .ok ⟨state, deadline, false⟩

/-- All pages: there are no more of them than memories, but for an empty last one. -/
def walk {α : Type} (now : Instant) (owner : String) (size : Nat)
    (step : List Memory → α × Store → Except Error (α × Store)) (deadline : Deadline)
    (state : α × Store) : Except Error (Passed (α × Store)) :=
  walkPages now owner size step (state.2.entries.length + 1) deadline none state

end Engine

end LongTermMemory
