import LongTermMemory.Similarity

/-!
Relevance of memories to a query. The score weighs four parts in single precision, added from the
left: the share of the memory's tags among the query's tokens, the overlap of the contents' tokens,
the importance, and how recently the memory was touched. `rank` orders memories by score.
-/

namespace LongTermMemory

structure Score where
  tagOverlap : Single
  contentOverlap : Single
  importance : Single
  recency : Single
  total : Single
deriving DecidableEq

/-- Whether the query matched the memory at all. -/
def Score.relevant (s : Score) : Bool :=
  Single.lt Single.zero s.tagOverlap || Single.lt Single.zero s.contentOverlap

/-- The part of the tags that are tokens of the query. -/
def tagOverlap (tags queryTokens : List String) : Single :=
  if tags.isEmpty then Single.zero
  else Single.ofQuotient false (tags.countP queryTokens.contains) tags.length

def secondsPerDay : Int := 86400

namespace RetrievalConfig

/-- The value of the first bucket into which the time since the last touch fits. Parts of a second
do not count, and the future counts as now. -/
def recency (c : RetrievalConfig) (lastTouched now : Instant) : Single :=
  let seconds := max (Int.tdiv (now.since lastTouched) 1000) 0
  match c.recencyBuckets.find? fun b => seconds ≤ b.maxDays * secondsPerDay with
  | some b => b.value
  | none => Single.zero

def score (c : RetrievalConfig) (now : Instant) (queryTokens : List String) (m : Memory) : Score :=
  let tags := tagOverlap m.tags queryTokens
  let content := jaccard m.tokenSet queryTokens
  let importance := (Single.ofInt m.importance).divNat 10
  let recency := c.recency m.lastTouched now
  let total := c.tagWeight * tags + c.contentWeight * content + c.importanceWeight * importance +
    c.recencyWeight * recency
  { tagOverlap := tags
    contentOverlap := content
    importance
    recency
    total := total.clampUnit }

end RetrievalConfig

/-- A memory never accessed was accessed before all others. -/
def accessedBefore (a b : Option Instant) : Bool :=
  match a, b with
  | none, some _ => true
  | some s, some t => s < t
  | _, _ => false

/-- The first of two answers that decides. -/
def thenBy (less greater next : Bool) : Bool := less || (!greater && next)

/-- Whether `a` ranks at or before `b`: by total score, importance, last access and id, each time
the greater first. -/
def ranksBefore (a b : Memory × Score) : Bool :=
  let (m, s) := a
  let (n, t) := b
  thenBy (t.total.totalPlace < s.total.totalPlace) (s.total.totalPlace < t.total.totalPlace) <|
  thenBy (n.importance < m.importance) (m.importance < n.importance) <|
  thenBy (accessedBefore n.lastAccessed m.lastAccessed)
    (accessedBefore m.lastAccessed n.lastAccessed) <|
  n.id ≤ m.id

/-- The memories with their scores, the most relevant first. -/
def RetrievalConfig.rank (c : RetrievalConfig) (now : Instant) (query : String)
    (memories : List Memory) : List (Memory × Score) :=
  let queryTokens := Text.tokenSet query
  (memories.map fun m => (m, c.score now queryTokens m)).mergeSort ranksBefore

end LongTermMemory
