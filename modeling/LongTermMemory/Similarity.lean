import LongTermMemory.Config
import LongTermMemory.Memory

/-!
Similarity of memories: the overlap of their tags or of the tokens of their contents lies above a
threshold.
-/

namespace LongTermMemory

/-- The part of the union of two sets that lies in both, zero for two empty sets. -/
def jaccard (a b : List String) : Single :=
  let shared := a.countP b.contains
  let union := a.length + b.length - shared
  if union = 0 then Single.zero else Single.ofQuotient false shared union

namespace Memory

def tagSet (m : Memory) : List String := Ascending.ofList m.tags

def tokenSet (m : Memory) : List String := Text.tokenSet m.content

end Memory

/-- What is compared of a memory. -/
structure Features where
  id : MemoryId
  tags : List String
  tokens : List String

def Memory.features (m : Memory) : Features := ⟨m.id, m.tagSet, m.tokenSet⟩

def Features.similar (c : ConsolidationConfig) (a b : Features) : Bool :=
  Single.lt c.tagThreshold (jaccard a.tags b.tags) ||
    Single.lt c.contentThreshold (jaccard a.tokens b.tokens)

def Memory.similar (c : ConsolidationConfig) (a b : Memory) : Bool :=
  a.features.similar c b.features

end LongTermMemory
