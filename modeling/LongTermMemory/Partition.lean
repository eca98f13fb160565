import LongTermMemory.Ascending
import LongTermMemory.Error

/-!
Partitions of memory ids as a forest. Each id points to a parent, a root to itself; two ids are in
one class when they have one root. `find` points every id it passes at the root, and `union` hangs
the root of lower rank under the other.
-/

namespace LongTermMemory

structure Partition.Node where
  id : MemoryId
  parent : MemoryId
  rank : Nat
deriving DecidableEq, Repr

/-- One node for each id known. -/
structure Partition where
  nodes : List Partition.Node
deriving DecidableEq, Repr

namespace Partition

def node? (p : Partition) (id : MemoryId) : Option Node := p.nodes.find? (·.id = id)

/-- An id not known yet is its own parent. -/
def parent (p : Partition) (id : MemoryId) : MemoryId := (p.node? id).elim id (·.parent)

def rank (p : Partition) (id : MemoryId) : Nat := (p.node? id).elim 0 (·.rank)

def ids (p : Partition) : List MemoryId := p.nodes.map (·.id)

/-- Makes an id known, in a class of its own. -/
def add (p : Partition) (id : MemoryId) : Partition :=
  match p.node? id with
  | some _ => p
  | none => ⟨p.nodes ++ [⟨id, id, 0⟩]⟩

def ofIds (ids : List MemoryId) : Partition := ids.foldl add ⟨[]⟩

def setParent (p : Partition) (id parent : MemoryId) : Partition :=
  ⟨p.nodes.map fun n => if n.id = id then { n with parent } else n⟩

def setRank (p : Partition) (id : MemoryId) (rank : Nat) : Partition :=
  ⟨p.nodes.map fun n => if n.id = id then { n with rank } else n⟩

/-- The ids from `id` up to its root, in at most `fuel` steps. -/
def pathFrom (p : Partition) : Nat → MemoryId → List MemoryId
  | 0, id => [id]
  | fuel + 1, id => if p.parent id = id then [id] else id :: pathFrom p fuel (p.parent id)

/-- No path is longer than there are nodes. -/
def path (p : Partition) (id : MemoryId) : List MemoryId := p.pathFrom p.nodes.length id

def root (p : Partition) (id : MemoryId) : MemoryId := (p.path id).getLast?.getD id

/-- The root of an id, and the forest in which all ids on the way point at it. -/
def find (p : Partition) (id : MemoryId) : MemoryId × Partition :=
  let p := p.add id
  let root := p.root id
  (root, (p.path id).foldl (fun q i => q.setParent i root) p)

/-- Hangs one root under another; of two roots of one rank the first stays and rises. -/
def link (p : Partition) (a b : MemoryId) : Partition :=
  if p.rank a < p.rank b then p.setParent a b
  else if p.rank b < p.rank a then p.setParent b a
  else (p.setParent b a).setRank a (p.rank a + 1)

def union (p : Partition) (a b : MemoryId) : Partition :=
  let (rootA, p) := p.find a
  let (rootB, p) := p.find b
  if rootA = rootB then p else p.link rootA rootB

/-- The classes as ascending lists, in the order of their smallest ids. -/
def groups (p : Partition) : List (List MemoryId) :=
  let ids := Ascending.ofList p.ids
  (ids.map p.root).eraseDups.map fun r => ids.filter fun id => p.root id = r

end Partition

end LongTermMemory
