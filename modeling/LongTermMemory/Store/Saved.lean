import LongTermMemory.Store

/-!
The store as a document that it is read back from. Rows are lists by place, times are their
milliseconds and numbers in single precision are their bits. Digests and index terms are not kept,
for they follow from the contents. What is written reads back as it was (`ofSaved?_saved`).
-/

namespace LongTermMemory

namespace Document

/-- The reader beside `ofOption`. -/
def asOption? {α : Type} (f : Document → Option α) (d : Document) : Option (Option α) :=
  if d.isNull then some none else (f d).map some

def ofBits (x : Single) : Document := .integer x.bits.toNat

def asBits? : Document → Option Single
  | .integer i => if 0 ≤ i ∧ i < UInt32.size then some ⟨UInt32.ofNat i.toNat⟩ else none
  | _ => none

def ofMillis (t : Instant) : Document := .integer t.millis

def asInteger? : Document → Option Int
  | .integer i => some i
  | _ => none

def asMillis? (d : Document) : Option Instant := d.asInteger?.map Instant.mk

theorem asList?_map {α : Type} {read : Document → Option α} {write : α → Document}
    (h : ∀ a, read (write a) = some a) (l : List α) :
    asList? read (.list (l.map write)) = some l := by
  unfold asList?
  induction l with
  | nil => rfl
  | cons a rest ih =>
    simp only [List.map_cons, List.mapM_cons, h]
    exact congrArg (fun o => o >>= fun l => some (a :: l)) ih

theorem asText?_text (s : String) : asText? (.text s) = some s := rfl

theorem asInteger?_integer (i : Int) : asInteger? (.integer i) = some i := rfl

theorem asList?_texts (l : List String) : asList? asText? (texts l) = some l :=
  asList?_map asText?_text l

theorem asList?_integers (l : List Int) : asList? asInteger? (integers l) = some l :=
  asList?_map asInteger?_integer l

theorem asOption?_ofOption {α : Type} {read : Document → Option α} {write : α → Document}
    (h : ∀ a, read (write a) = some a) (hn : ∀ a, (write a).isNull = false) (o : Option α) :
    asOption? read (ofOption write o) = some o := by
  cases o with
  | none => rfl
  | some a => simp [asOption?, ofOption, h, hn]

theorem asOption?_text (o : Option String) : asOption? asText? (ofOption .text o) = some o :=
  asOption?_ofOption asText?_text (fun _ => rfl) o

theorem asOption?_integer (o : Option Int) : asOption? asInteger? (ofOption .integer o) = some o :=
  asOption?_ofOption asInteger?_integer (fun _ => rfl) o

theorem asMillis?_ofMillis (t : Instant) : asMillis? (ofMillis t) = some t := rfl

theorem asOption?_millis (o : Option Instant) :
    asOption? asMillis? (ofOption ofMillis o) = some o :=
  asOption?_ofOption asMillis?_ofMillis (fun _ => rfl) o

theorem asBits?_ofBits (x : Single) : asBits? (ofBits x) = some x := by
  have h : x.bits.toNat < UInt32.size := x.bits.toNat_lt
  have hi : (0 : Int) ≤ x.bits.toNat ∧ (x.bits.toNat : Int) < UInt32.size := by omega
  simp only [asBits?, ofBits, if_pos hi, Int.toNat_natCast, UInt32.ofNat_toNat]

theorem asOption?_bits (o : Option Single) : asOption? asBits? (ofOption ofBits o) = some o :=
  asOption?_ofOption asBits?_ofBits (fun _ => rfl) o

end Document

open Document
  (ofOption asOption? asText? asBool? asList? asInteger? ofBits asBits? ofMillis asMillis?)

def Memory.saved (m : Memory) : Document :=
  .list
    [.integer m.id, .text m.owner, .text m.content, Document.texts m.tags, .text m.type.name,
     .text m.category, .integer m.importance, ofBits m.confidence, ofBits m.dynamicImportance,
     ofOption .text m.sourceType, ofOption .text m.sourceId, .text m.createdBy,
     ofMillis m.createdAt, ofMillis m.lastModified, ofOption ofMillis m.lastAccessed,
     ofOption ofMillis m.lastAgedAt, .integer m.accessCount, Document.integers m.related,
     ofOption .integer m.parent, .record m.metadata, .bool m.archived,
     ofOption .text m.archiveReason, .integer m.version]

def Memory.ofSaved? : Document → Option Memory
  | .list
    [.integer id, .text owner, .text content, tags, .text type, .text category,
     .integer importance, confidence, dynamicImportance, sourceType, sourceId, .text createdBy,
     createdAt, lastModified, lastAccessed, lastAgedAt, .integer accessCount, related, parent,
     .record metadata, .bool archived, archiveReason, .integer version] => do
    some
      { id
        owner
        content
        tags := ← asList? asText? tags
        type := ← MemoryType.ofName? type
        category
        importance
        confidence := ← asBits? confidence
        dynamicImportance := ← asBits? dynamicImportance
        sourceType := ← asOption? asText? sourceType
        sourceId := ← asOption? asText? sourceId
        createdBy
        createdAt := ← asMillis? createdAt
        lastModified := ← asMillis? lastModified
        lastAccessed := ← asOption? asMillis? lastAccessed
        lastAgedAt := ← asOption? asMillis? lastAgedAt
        accessCount
        related := ← asList? asInteger? related
        parent := ← asOption? asInteger? parent
        metadata
        archived
        archiveReason := ← asOption? asText? archiveReason
        version }
  | _ => none

theorem Memory.ofSaved?_saved (m : Memory) : Memory.ofSaved? m.saved = some m := by
  simp [saved, ofSaved?, Document.asList?_texts, Document.asList?_integers,
    Document.asOption?_text, Document.asOption?_integer, Document.asOption?_millis,
    Document.asMillis?_ofMillis, Document.asBits?_ofBits, MemoryType.ofName?_name]

def Context.saved (c : Context) : Document :=
  .list
    [.integer c.id, .integer c.memoryId, .text c.type.name, .text c.key, .text c.value,
     ofBits c.confidence]

def Context.ofSaved? : Document → Option Context
  | .list [.integer id, .integer memoryId, .text type, .text key, .text value, confidence] => do
    some
      { id, memoryId, type := ← ContextType.ofName? type, key, value
        confidence := ← asBits? confidence }
  | _ => none

theorem Context.ofSaved?_saved (c : Context) : Context.ofSaved? c.saved = some c := by
  simp [saved, ofSaved?, Document.asBits?_ofBits, ContextType.ofName?_name]

def Relationship.saved (r : Relationship) : Document :=
  .list
    [.integer r.id, .integer r.source, .integer r.target, .text r.type.name, ofBits r.strength,
     ofOption .text r.description, ofMillis r.createdAt]

def Relationship.ofSaved? : Document → Option Relationship
  | .list [.integer id, .integer source, .integer target, .text type, strength, description,
      createdAt] => do
    some
      { id, source, target, type := ← RelationshipType.ofName? type, strength := ← asBits? strength
        description := ← asOption? asText? description, createdAt := ← asMillis? createdAt }
  | _ => none

theorem Relationship.ofSaved?_saved (r : Relationship) :
    Relationship.ofSaved? r.saved = some r := by
  simp [saved, ofSaved?, Document.asBits?_ofBits, Document.asOption?_text,
    Document.asMillis?_ofMillis, RelationshipType.ofName?_name]

def Access.saved (a : Access) : Document :=
  .list
    [.integer a.id, .integer a.memoryId, ofMillis a.timestamp, ofOption .text a.context,
     .text a.method, ofOption .text a.query, .bool a.relevant, ofOption ofBits a.relevance]

def Access.ofSaved? : Document → Option Access
  | .list [.integer id, .integer memoryId, timestamp, context, .text method, query,
      .bool relevant, relevance] => do
    some
      { id, memoryId, timestamp := ← asMillis? timestamp, context := ← asOption? asText? context
        method, query := ← asOption? asText? query, relevant
        relevance := ← asOption? asBits? relevance }
  | _ => none

theorem Access.ofSaved?_saved (a : Access) : Access.ofSaved? a.saved = some a := by
  simp [saved, ofSaved?, Document.asOption?_text, Document.asOption?_bits,
    Document.asMillis?_ofMillis]

namespace Store

def saved (s : Store) : Document :=
  .list
    [.list (s.entries.map (·.memory.saved)), .list (s.contexts.map (·.saved)),
     .list (s.relationships.map (·.saved)), .list (s.accesses.map (·.saved)),
     Document.texts s.tagNames,
     Document.integers
       [s.lastMemoryId, s.lastContextId, s.lastRelationshipId, s.lastAccessId]]

def ofSaved? : Document → Option Store
  | .list [memories, contexts, relationships, accesses, tagNames,
      .list [.integer lastMemoryId, .integer lastContextId, .integer lastRelationshipId,
        .integer lastAccessId]] => do
    some
      { entries := (← asList? Memory.ofSaved? memories).map Entry.ofMemory
        contexts := ← asList? Context.ofSaved? contexts
        relationships := ← asList? Relationship.ofSaved? relationships
        accesses := ← asList? Access.ofSaved? accesses
        tagNames := ← asList? asText? tagNames
        lastMemoryId, lastContextId, lastRelationshipId, lastAccessId }
  | _ => none

/-- A store whose digests and index terms are those of the contents reads back as it was. -/
theorem ofSaved?_saved (s : Store) (h : ∀ e ∈ s.entries, Entry.ofMemory e.memory = e) :
    ofSaved? s.saved = some s := by
  have hm : (s.entries.map (·.memory)).map Entry.ofMemory = s.entries := by
    rw [List.map_map]
    exact (List.map_congr_left h).trans (List.map_id s.entries)
  have he : s.entries.map (·.memory.saved) = (s.entries.map (·.memory)).map Memory.saved := by
    rw [List.map_map]
    rfl
  simp only [saved, ofSaved?, Document.integers, List.map_cons, List.map_nil, he,
    Document.asList?_map Memory.ofSaved?_saved, Document.asList?_map Context.ofSaved?_saved,
    Document.asList?_map Relationship.ofSaved?_saved, Document.asList?_map Access.ofSaved?_saved,
    Document.asList?_texts, hm, Option.bind_eq_bind, Option.bind_some]

end Store

end LongTermMemory
