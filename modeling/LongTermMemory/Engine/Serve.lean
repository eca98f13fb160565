import LongTermMemory.Engine
import LongTermMemory.Store.Statement

/-!
Calls to an engine. The request of a call is checked first. A write then runs its statements in a
transaction, and a question only reads.
-/

namespace LongTermMemory

/-- The calls that write. -/
inductive Edit where
  | create (r : NewMemory)
  | update (id : MemoryId) (c : Changes)
  | delete (id : MemoryId)
  | deleteOwned (owner : String) (id : MemoryId)
  | recordAccess (id : MemoryId) (n : AccessNote)
  | addContext (id : MemoryId) (c : NewContext)
  | relate (r : NewRelationship)

/-- The calls that read. -/
inductive Question where
  | get (id : MemoryId)
  | list (owner : String) (c : Selection)
  | search (owner query : String) (f : SearchFilters)
  | contextsOf (id : MemoryId)
  | relationshipsOf (id : MemoryId)
  | accessHistory (id : MemoryId) (limit : Int)
  | stats (owner : String)
  | count (owner : String)

inductive Answer where
  | done
  | memory (m : Memory)
  | memories (ms : List Memory)
  | context (c : Context)
  | contexts (cs : List Context)
  | relationship (q : Relationship)
  | relationships (qs : List Relationship)
  | accesses (as : List Access)
  | stats (s : Stats)
  | count (n : Nat)

namespace Engine

/-- The statements of a write whose request is acceptable. -/
def statements (e : Engine) (now : Instant) : Edit → Except Error (Statements Answer)
  | .create r => do
    let r ← e.prepare r
    .ok (.memory <$> Statements.create now r)
  | .update id c => do
    let c ← e.prepareChanges c
    .ok (.memory <$> Statements.update now id c)
  | .delete id => .ok ((fun _ => .done) <$> Statements.delete id)
  | .deleteOwned owner id => do
    Invalid.raise (Invalid.checkOwner owner)
    .ok ((fun _ => .done) <$> Statements.deleteOwned now owner id)
  | .recordAccess id n => .ok ((fun _ => .done) <$> Statements.recordAccess now id n)
  | .addContext id c => do
    Invalid.raise c.check
    .ok (.context <$> Statements.addContext now id c)
  | .relate r => do
    Invalid.raise r.check
    .ok (.relationship <$> Statements.relate now r)

def carryOut (e : Engine) (now : Instant) (x : Edit) (s : Store) : Except Error Answer × Store :=
  match e.statements now x with
  | .error cause => (.error cause, s)
  | .ok body => body.transaction s

/-- What a write answers and leaves when its statements are taken as one step of the store. -/
def edit (e : Engine) (now : Instant) (s : Store) : Edit → Except Error (Answer × Store)
  | .create r => (e.create now r s).map fun (m, s) => (.memory m, s)
  | .update id c => (e.update now id c s).map fun (m, s) => (.memory m, s)
  | .delete id => (s.delete id).map fun s => (.done, s)
  | .deleteOwned owner id => (deleteOwned owner id s).map fun s => (.done, s)
  | .recordAccess id n => (s.recordAccess now id n).map fun s => (.done, s)
  | .addContext id c => (addContext id c s).map fun (k, s) => (.context k, s)
  | .relate r => (relate now r s).map fun (q, s) => (.relationship q, s)

/-- What a question is answered from a store. -/
def reply (now : Instant) (s : Store) : Question → Except Error Answer
  | .get id => .memory <$> s.get now id
  | .list owner c => .memories <$> list now owner c s
  | .search owner query f => .memories <$> search now owner query f s
  | .contextsOf id => .ok (.contexts (s.contextsOf id))
  | .relationshipsOf id => .ok (.relationships (s.relationshipsOf now id))
  | .accessHistory id limit => .accesses <$> accessHistory now id limit s
  | .stats owner => .stats <$> stats owner s
  | .count owner => .ok (.count (s.count owner))

def ask (now : Instant) (q : Question) (s : Store) : Except Error Answer × Store :=
  (Statements.select (reply now · q)).outcome s

end Engine

end LongTermMemory
