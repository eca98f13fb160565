import LongTermMemory.ContextBlock
import LongTermMemory.Engine

/-!
Retrieval: the most relevant of an owner's most important memories. Every memory returned is
accessed, and the returned memories say so.
-/

namespace LongTermMemory

/-- A count as a 64-bit integer with a sign; counts beyond the greatest one come out negative. -/
def signedCount (n : Nat) : Int := IntegerRange.int64.wrap n

namespace Engine

/-- The owner's most important active memories. -/
def candidates (e : Engine) (now : Instant) (owner : String) (s : Store) :
    Except Error (List Memory) :=
  let c := e.config.retrieval
  list now owner
    { limit := some (signedCount c.candidatePoolSize)
      minImportance := some c.minImportance
      sortBy := some .importance
      sortOrder := some .descending } s

/-- Notes an access of each memory; one that is gone is left out. -/
def accessAll (now : Instant) (query : String) :
    List (Memory × Score) → Store → List (Memory × Score) × Store
  | [], s => ([], s)
  | (m, score) :: rest, s =>
    match s.recordAccess now m.id (.retrieval query score.total score.relevant) with
    | .error _ => accessAll now query rest s
    | .ok s =>
      let (found, s) := accessAll now query rest s
      ((Store.accessed now m, score) :: found, s)

def retrieveScored (e : Engine) (now : Instant) (owner query : String) (limit : Int) (s : Store) :
    Except Error (List (Memory × Score) × Store) := do
  Invalid.raise (Invalid.checkOwner owner)
  Invalid.raise (Invalid.checkLimit limit)
  let pool ← e.candidates now owner s
  .ok (accessAll now query ((e.config.retrieval.rank now query pool).take limit.toNat) s)

def retrieve (e : Engine) (now : Instant) (owner query : String) (limit : Option Int)
    (s : Store) : Except Error (List Memory × Store) := do
  let (found, s) ← e.retrieveScored now owner query
    (limit.getD e.config.retrieval.defaultLimit) s
  .ok (found.map (·.1), s)

/-- The block of text for a query, empty when nothing is found. -/
def retrieveContext (e : Engine) (now : Instant) (owner query : String) (maxLength : Option Nat)
    (s : Store) : Except Error (String × Store) := do
  let (found, s) ← e.retrieve now owner query none s
  let budget := maxLength.getD e.config.context.maxLength
  .ok (ContextBlock.format e.config.retrieval e.config.context now found query budget, s)

end Engine

end LongTermMemory
