import LongTermMemory.Store

/-!
Reading the store: listing and searching the memories of an owner, what belongs to one memory, and
the figures about an owner.
-/

namespace LongTermMemory

/-- A time that is absent comes before all others. -/
def stampBefore (a b : Option Instant) : Bool :=
  match a.map Instant.stamp, b.map Instant.stamp with
  | none, some _ => true
  | some s, some t => s < t
  | _, _ => false

/-- Whether the field of `a` is less than that of `b`. Times compare by their written forms. -/
def SortField.less (f : SortField) (a b : Memory) : Bool :=
  match f with
  | .id => a.id < b.id
  | .createdAt => a.createdAt.stamp < b.createdAt.stamp
  | .lastModified => a.lastModified.stamp < b.lastModified.stamp
  | .lastAccessed => stampBefore a.lastAccessed b.lastAccessed
  | .importance => a.importance < b.importance
  | .accessCount => a.accessCount < b.accessCount

/-- Whether `a` is listed at or before `b`; memories alike in the field go by their ids. -/
def SortField.atOrBefore (f : SortField) (o : SortOrder) (a b : Memory) : Bool :=
  match o with
  | .ascending => f.less a b || (!f.less b a && a.id ≤ b.id)
  | .descending => f.less b a || (!f.less a b && b.id ≤ a.id)

namespace Selection

/-- How many memories are listed where no limit is given. -/
def defaultLimit : Int := 100

/-- Whether a memory carries one of some tag names. -/
def carries (m : Memory) (names : List String) : Bool :=
  m.tags.any fun t => names.any (Text.NoCase.same t)

def matchesTags (c : Selection) (m : Memory) : Bool :=
  match c.tags with
  | none => true
  | some [] => true
  | some tags => carries m (tags.map normalizeTag)

/-- Whether a memory of any owner satisfies the filters. -/
def admits (c : Selection) (m : Memory) : Bool :=
  (c.includeArchived || !m.archived) && c.matchesTags m && c.type.all (· = m.type) &&
    c.category.all (· = m.category) && c.minImportance.all (· ≤ m.importance) &&
    c.afterId.all (· < m.id)

def sorted (c : Selection) (ms : List Memory) : List Memory :=
  ms.mergeSort ((c.sortBy.getD .default).atOrBefore (c.sortOrder.getD .default))

/-- A negative limit is none, and a negative offset is zero. -/
def page (c : Selection) (ms : List Memory) : List Memory :=
  let rest := ms.drop (c.offset.getD 0).toNat
  let limit := c.limit.getD defaultLimit
  if limit < 0 then rest else rest.take limit.toNat

end Selection

namespace Store

/-- The entries of an owner. -/
def entriesOf (s : Store) (owner : String) : List Entry :=
  s.entries.filter fun e => e.memory.owner = owner

/-- The memories of an owner, archived ones included, by ascending id. -/
def memoriesOf (s : Store) (owner : String) : List Memory := (s.entriesOf owner).map (·.memory)

/-- The memories of an owner that satisfy `p` and the filters, sorted and paged. -/
def select (s : Store) (now : Instant) (owner : String) (c : Selection) (p : Entry → Bool) :
    List Memory :=
  let found := (s.entriesOf owner).filter fun e => p e && c.admits e.memory
  (c.page (c.sorted (found.map (·.memory)))).map (·.readAt now)

def list (s : Store) (now : Instant) (owner : String) (c : Selection) : List Memory :=
  s.select now owner c fun _ => true

/-- The words of a query, each once and in order. -/
def queryWords (query : String) : List String :=
  Ascending.ofList <|
    (Text.runs (fun c => Text.isAlphanumeric c || c = '_') query.toList).map fun run =>
      Text.lowercase (String.ofList run)

/-- Whether a word occurs in the indexed content or is a tag of the memory. -/
def matchesWord (word : String) (e : Entry) : Bool :=
  let phrase := Text.Index.terms word
  (!phrase.isEmpty && Text.Index.occursIn phrase e.terms) ||
    e.memory.tags.any fun t => Text.NoCase.same t word

/-- A query without words lists instead. -/
def search (s : Store) (now : Instant) (owner query : String) (f : SearchFilters) : List Memory :=
  match queryWords query with
  | [] => s.list now owner f.selection
  | words => s.select now owner f.selection fun e => words.any (matchesWord · e)

def count (s : Store) (owner : String) : Nat := (s.entriesOf owner).length

/-- The owners of memories, each once, in ascending order. -/
def owners (s : Store) : List String := Ascending.ofList (s.entries.map (·.memory.owner))

/-- The first active memory of an owner, type and category whose content has the digest of
`content`. -/
def findDuplicate? (s : Store) (owner : String) (type : MemoryType) (category content : String) :
    Option MemoryId :=
  let digest := Digest.ofContent content
  (s.entries.find? fun e =>
    e.memory.owner = owner && e.memory.type = type && e.memory.category = category &&
      e.digest = digest && !e.memory.archived).map (·.memory.id)

def contextsOf (s : Store) (id : MemoryId) : List Context :=
  s.contexts.filter fun c => c.memoryId = id

/-- The edges at either end of which a memory is, the strongest first. -/
def relationshipsOf (s : Store) (now : Instant) (id : MemoryId) : List Relationship :=
  ((s.relationships.filter (·.touches id)).mergeSort fun a b =>
    b.strength.place < a.strength.place ||
      (b.strength.place = a.strength.place && a.id ≤ b.id)).map (·.readAt now)

/-- The last accesses of a memory, the latest first. -/
def accessHistory (s : Store) (now : Instant) (id : MemoryId) (limit : Int) : List Access :=
  (((s.accesses.filter fun a => a.memoryId = id).mergeSort fun a b =>
    b.timestamp.stamp < a.timestamp.stamp ||
      (b.timestamp.stamp = a.timestamp.stamp && b.id ≤ a.id)).take limit.toNat).map (·.readAt now)

end Store

/-! ## Figures -/

structure Stats where
  owner : String
  totalMemories : Nat
  activeMemories : Nat
  archivedMemories : Nat
  byType : List (String × Nat)
  byCategory : List (String × Nat)
  averageImportance : Option Single
  totalAccesses : Int
  totalRelationships : Nat
  topTags : List (String × Nat)
  mostAccessed : List (MemoryId × Int)

/-- The values with the number of times that each occurs, in ascending order. -/
def tally (values : List String) : List (String × Nat) :=
  (Ascending.ofList values).map fun v => (v, values.count v)

/-- The mean in double and then in single precision, none for nothing. -/
def averageImportance (ms : List Memory) : Option Single :=
  let sum := total (ms.map (·.importance))
  if ms.isEmpty then none else Single.throughDouble? (sum < 0) sum.natAbs ms.length

/-- How many of the most frequent tags and of the most accessed memories are told. -/
def topCount : Nat := 5

def topTags (ms : List Memory) : List (String × Nat) :=
  ((tally (ms.flatMap (·.tags))).mergeSort fun a b =>
    b.2 < a.2 || (b.2 = a.2 && Text.NoCase.le a.1 b.1)).take topCount

def mostAccessed (ms : List Memory) : List (MemoryId × Int) :=
  (((ms.filter fun m => 0 < m.accessCount).map fun m => (m.id, m.accessCount)).mergeSort fun a b =>
    b.2 < a.2 || (b.2 = a.2 && a.1 ≤ b.1)).take topCount

/-- Types, categories, tags and importance are told of active memories, accesses of all. A
relationship counts for the owner of its source. -/
def Store.stats (s : Store) (owner : String) : Stats :=
  let all := s.memoriesOf owner
  let active := all.filter fun m => !m.archived
  { owner
    totalMemories := all.length
    activeMemories := active.length
    archivedMemories := (all.filter (·.archived)).length
    byType := tally (active.map (·.type.name))
    byCategory := tally (active.map (·.category))
    averageImportance := averageImportance active
    totalAccesses := total (all.map (·.accessCount))
    totalRelationships := s.relationships.countP fun r => all.any fun m => m.id = r.source
    topTags := topTags active
    mostAccessed := mostAccessed all }

end LongTermMemory
