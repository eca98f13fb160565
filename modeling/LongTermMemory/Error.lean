import LongTermMemory.Single

/-!
What can go wrong. An error is a cause; `Error.message` is its text, and `Error.fault` says how a
caller may deal with it.
-/

namespace LongTermMemory

abbrev MemoryId := Int

/-- How a caller may deal with an error. A database fault carries its result code. -/
inductive Fault where
  | database (code : Int)
  | storage
  | notFound
  | validation
  | conflict
  | config
  | internal
deriving DecidableEq

namespace Fault

def heading : Fault → String
  | .database _ => "Database error: "
  | .storage => "Storage error: "
  | .notFound => "Memory not found: "
  | .validation => "Validation error: "
  | .conflict => "Conflict: "
  | .config => "Configuration error: "
  | .internal => "Internal error: "

/-- A conflict may be gone at the next attempt, and so may a busy or locked database; the low byte
of a result code is its primary code. -/
def retryable : Fault → Bool
  | .conflict => true
  | .database code => code % 256 = 5 || code % 256 = 6
  | _ => false

def isValidation : Fault → Bool
  | .validation => true
  | _ => false

end Fault

/-- Constraints that the database itself keeps. -/
inductive Constraint where
  | parentExists
  /-- A row about a memory needs the memory. -/
  | memoryExists
  | importanceRange
  | confidenceRange
deriving DecidableEq

namespace Constraint

def code : Constraint → Int
  | .parentExists => 787
  | .memoryExists => 787
  | .importanceRange => 275
  | .confidenceRange => 275

def message : Constraint → String
  | .parentExists => "FOREIGN KEY constraint failed"
  | .memoryExists => "FOREIGN KEY constraint failed"
  | .importanceRange => "CHECK constraint failed: importance_score BETWEEN 1 AND 10"
  | .confidenceRange =>
    "CHECK constraint failed: confidence_score >= 0.0 AND confidence_score <= 1.0"

end Constraint

/-- Why a request is refused before it reaches the store. -/
inductive Invalid where
  | blankOwner
  | blankContent
  | noTags
  | unknownTags (tags : List String)
  | importance (value : Int)
  | outsideUnit (name : String) (value : Single)
  | negativeLimit (limit : Int)
  | blankCategory
  | blankContextKey
  | selfRelation
deriving DecidableEq

def outsideUnitMessage (name : String) (value : Single) : String :=
  name ++ " must be within [0, 1], got " ++ value.toText

def Invalid.message : Invalid → String
  | .blankOwner => "owner_id must not be empty"
  | .blankContent => "content must not be empty"
  | .noTags => "a memory needs at least one tag"
  | .unknownTags tags => "unknown tags: " ++ String.intercalate ", " tags
  | .importance value => "importance_score must be within [1, 10], got " ++ toString value
  | .outsideUnit name value => outsideUnitMessage name value
  | .negativeLimit limit => "limit must not be negative, got " ++ toString limit
  | .blankCategory => "category must not be empty"
  | .blankContextKey => "context key must not be empty"
  | .selfRelation => "a memory cannot relate to itself"

/-- How a memory moved on since it was read. -/
inductive Conflict where
  | version (id : MemoryId) (stored expected : Int)
  | changedWhileUpdating (id : MemoryId)
  | changedWhileMerging (id : MemoryId)
deriving DecidableEq

def Conflict.message : Conflict → String
  | .version id stored expected =>
    "memory " ++ toString id ++ " is at version " ++ toString stored ++ ", expected " ++
      toString expected
  | .changedWhileUpdating id => "memory " ++ toString id ++ " changed during update"
  | .changedWhileMerging id => "memory " ++ toString id ++ " changed during consolidation"

/-- Why no engine can work with a configuration. -/
inductive Misconfigured where
  | unreadable
  | emptyVocabulary
  | outsideUnit (name : String) (value : Single)
  | consolidationSizes
  | lifecyclePageSize
  | lifecycleWindows
  | candidatePool
  | learnedImportance
deriving DecidableEq

def Misconfigured.message : Misconfigured → String
  | .unreadable => "invalid TOML"
  | .emptyVocabulary => "vocabulary must not be empty"
  | .outsideUnit name value => outsideUnitMessage name value
  | .consolidationSizes => "consolidation.page_size and max_items_per_type must be positive"
  | .lifecyclePageSize => "lifecycle.page_size must be positive"
  | .lifecycleWindows => "lifecycle windows must be positive day counts"
  | .candidatePool => "retrieval.candidate_pool_size must be positive"
  | .learnedImportance => "learning.min_learned_importance exceeds max_learned_importance"

inductive Error where
  | database (constraint : Constraint)
  /-- A row that should be there is not. -/
  | noRow
  | notFound (id : MemoryId)
  | validation (cause : Invalid)
  | conflict (cause : Conflict)
  | config (cause : Misconfigured)
  /-- A window of this many days is longer than any span of time. -/
  | windowOutOfRange (days : Int)
deriving DecidableEq

namespace Error

/-- The result code of a statement that ends without a row. -/
def doneCode : Int := 101

def fault : Error → Fault
  | .database c => .database c.code
  | .noRow => .database doneCode
  | .notFound _ => .notFound
  | .validation _ => .validation
  | .conflict _ => .conflict
  | .config _ => .config
  | .windowOutOfRange _ => .internal

def detail : Error → String
  | .database c => c.message
  | .noRow => "Query returned no rows"
  | .notFound id => toString id
  | .validation cause => cause.message
  | .conflict cause => cause.message
  | .config cause => cause.message
  | .windowOutOfRange days => "no time span has " ++ toString days ++ " days"

def message (e : Error) : String := e.fault.heading ++ e.detail

def retryable (e : Error) : Bool := e.fault.retryable

end Error

end LongTermMemory
