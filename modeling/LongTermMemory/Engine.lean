import LongTermMemory.Classification
import LongTermMemory.Store.Query
import LongTermMemory.Validation

/-!
The engine: a checked configuration with the vocabulary and the classifier made from it. Its
operations check a request, bring it into normal form and hand it to the store.
-/

namespace LongTermMemory

structure Engine where
  config : Config
  vocabulary : Vocabulary
  classifier : Classifier

namespace Engine

/-- The parts made from a configuration, checked or not. -/
def ofUnchecked (c : Config) : Engine :=
  { config := c
    vocabulary := .ofList c.vocabulary
    classifier := .ofConfig c.learning }

def ofConfig (c : Config) : Except Error Engine := do
  c.validate
  .ok (ofUnchecked c)

/-- An acceptable request in normal form: its owner and category trimmed, its tags in normal form,
and its type and category derived from the content where they are absent. -/
def prepare (e : Engine) (r : NewMemory) : Except Error NewMemory := do
  let tags ← Invalid.raise (r.check e.vocabulary)
  .ok
    { r with
      owner := Text.trim r.owner
      tags
      type := some (r.type.getD (e.classifier.classifyType r.content))
      category := some (r.category.elim (Classifier.classifyCategory r.content) Text.trim) }

def create (e : Engine) (now : Instant) (r : NewMemory) (s : Store) :
    Except Error (Memory × Store) := do
  let r ← e.prepare r
  s.create now r

/-- Acceptable changes in normal form. -/
def prepareChanges (e : Engine) (c : Changes) : Except Error Changes := do
  let tags ← Invalid.raise (c.check e.vocabulary)
  .ok { c with tags, category := c.category.map Text.trim }

def update (e : Engine) (now : Instant) (id : MemoryId) (c : Changes) (s : Store) :
    Except Error (Memory × Store) := do
  let c ← e.prepareChanges c
  s.update now id c

/-- Deletes for an owner; the memory of another owner is not found. -/
def deleteOwned (owner : String) (id : MemoryId) (s : Store) : Except Error Store := do
  Invalid.raise (Invalid.checkOwner owner)
  match s.kept? id with
  | none => .error (.notFound id)
  | some m => if m.owner = owner then s.delete id else .error (.notFound id)

def list (now : Instant) (owner : String) (c : Selection) (s : Store) :
    Except Error (List Memory) := do
  Invalid.raise (Invalid.checkOwner owner)
  Invalid.raise (Invalid.ifPresent Invalid.checkLimit c.limit)
  .ok (s.list now owner c)

def search (now : Instant) (owner query : String) (f : SearchFilters) (s : Store) :
    Except Error (List Memory) := do
  Invalid.raise (Invalid.checkOwner owner)
  Invalid.raise (Invalid.ifPresent Invalid.checkLimit f.limit)
  .ok (s.search now owner query f)

def accessHistory (now : Instant) (id : MemoryId) (limit : Int) (s : Store) :
    Except Error (List Access) := do
  Invalid.raise (Invalid.checkLimit limit)
  .ok (s.accessHistory now id limit)

def addContext (id : MemoryId) (c : NewContext) (s : Store) : Except Error (Context × Store) := do
  Invalid.raise c.check
  if s.exists? id then .ok (s.addContext id c) else .error (.notFound id)

def relate (now : Instant) (r : NewRelationship) (s : Store) :
    Except Error (Relationship × Store) := do
  Invalid.raise r.check
  s.relate now r

def stats (owner : String) (s : Store) : Except Error Stats := do
  Invalid.raise (Invalid.checkOwner owner)
  .ok (s.stats owner)

end Engine

end LongTermMemory
