import LongTermMemory.Document.Toml
import LongTermMemory.Error
import LongTermMemory.Vocabulary

/-!
The configuration of the engine. Every field has a default, so a document names only what it
changes. `Config.check` refuses what no engine can work with.
-/

namespace LongTermMemory

inductive StorageMode where
  | plain
  | cloudSafe
deriving DecidableEq, Repr

namespace StorageMode

def all : List StorageMode := [.plain, .cloudSafe]

def name : StorageMode → String
  | .plain => "local"
  | .cloudSafe => "cloud-safe"

def parse? (s : String) : Option StorageMode := all.find? (·.name == s)

def unknownMessage (s : String) : String := "Unknown storage mode: " ++ s

end StorageMode

structure StorageConfig where
  path : String := "~/.local/share/ltm/memories.db"
  mode : StorageMode := .plain

namespace StorageConfig

/-- Names of folders that a synchronisation service may be at work in. -/
def syncedFolders : List String := ["dropbox", "onedrive", "icloud", "google drive"]

def inSyncedFolder (c : StorageConfig) : Bool :=
  let path := (Text.lowercase c.path).toList
  syncedFolders.any fun name => Text.includes name.toList path

/-- What is said of a database that another program may copy while it is open. -/
def warning? (c : StorageConfig) : Option String :=
  if c.inSyncedFolder && c.mode = .plain then
    some ("Database '" ++ c.path ++ "' appears to be in a cloud-synced folder. " ++
      "WAL mode may cause corruption; use storage_mode = \"cloud-safe\" " ++
      "or move the database to a local folder.")
  else none

end StorageConfig

structure DetectorConfig where
  explicitRequest : Bool := true
  preference : Bool := true
  pattern : Bool := true
  insight : Bool := true

structure LearningConfig where
  detectors : DetectorConfig := {}
  /-- Phrases by which the user asks to remember something. -/
  explicitPhrases : List String :=
    ["remember this", "remember that", "don't forget", "save this", "note this", "keep in mind",
     "important", "preference"]
  /-- Phrases by which the user speaks of themselves. -/
  personalPatterns : List String :=
    ["i prefer", "i like", "i love", "i hate", "i always", "i never", "i usually", "i want",
     "my habit", "my favorite", "my goal", "i plan to"]
  /-- Phrases by which the agent owns to having learned something. -/
  learningPhrases : List String := ["learned", "realized", "now i know", "turns out"]
  /-- Phrases that show that a tool failed. -/
  errorMarkers : List String :=
    ["error", "failed", "failure", "exception", "traceback", "not found", "unauthorized"]
  /-- Words that make an explicit request urgent. -/
  urgencyWords : List String := ["important", "critical", "always", "never", "must"]
  explicitImportance : Int := 7
  explicitUrgentImportance : Int := 8
  explicitConfidence : Single := Single.ofQuotient false 9 10
  minLearnedImportance : Int := 4
  maxLearnedImportance : Int := 6
  /-- The longest content that is learned from one turn, in characters. -/
  maxContentChars : Nat := 500

structure ConsolidationConfig where
  tagThreshold : Single := Single.ofQuotient false 7 10
  contentThreshold : Single := Single.ofQuotient false 6 10
  maxItemsPerType : Nat := 3
  pageSize : Nat := 200
  maxMemoriesPerPass : Nat := 2000

structure LifecycleConfig where
  agingWindowDays : Int := 30
  archiveAgeDays : Int := 60
  /-- Memories of less importance than this are archived when they are old. -/
  archiveImportanceBelow : Int := 3
  pageSize : Nat := 200

/-- What a memory is worth that was touched within so many days. -/
structure RecencyBucket where
  maxDays : Int
  value : Single

structure RetrievalConfig where
  tagWeight : Single := Single.ofQuotient false 4 10
  contentWeight : Single := Single.ofQuotient false 3 10
  importanceWeight : Single := Single.ofQuotient false 2 10
  recencyWeight : Single := Single.ofQuotient false 1 10
  /-- The first bucket that fits counts. -/
  recencyBuckets : List RecencyBucket :=
    [⟨1, Single.ofQuotient false 1 10⟩, ⟨7, Single.ofQuotient false 5 100⟩,
     ⟨30, Single.ofQuotient false 2 100⟩]
  minImportance : Int := 3
  candidatePoolSize : Nat := 20
  defaultLimit : Int := 5

structure ContextConfig where
  maxLength : Nat := 800
  maxToolPreferences : Nat := 3
  maxCommunicationStyle : Nat := 2
  maxItemsPerGroup : Nat := 3

structure Config where
  storage : StorageConfig := {}
  vocabulary : List String := Vocabulary.defaultTags
  learning : LearningConfig := {}
  consolidation : ConsolidationConfig := {}
  lifecycle : LifecycleConfig := {}
  retrieval : RetrievalConfig := {}
  context : ContextConfig := {}
  /-- The time for one batch pass in milliseconds; zero is no limit. -/
  batchTimeoutMillis : Nat := 30000

namespace Config

def require (p : Bool) (cause : Misconfigured) : Except Misconfigured Unit :=
  if p then .ok () else .error cause

def requireUnit (name : String) (x : Single) : Except Misconfigured Unit :=
  require x.inUnit (.outsideUnit name x)

/-- Refuses settings that no engine can work with; of several faults the first counts. -/
def check (c : Config) : Except Misconfigured Unit := do
  require (!c.vocabulary.isEmpty) .emptyVocabulary
  requireUnit "consolidation.tag_similarity_threshold" c.consolidation.tagThreshold
  requireUnit "consolidation.content_similarity_threshold" c.consolidation.contentThreshold
  require (0 < c.consolidation.pageSize && 0 < c.consolidation.maxItemsPerType) .consolidationSizes
  require (0 < c.lifecycle.pageSize) .lifecyclePageSize
  require (0 < c.lifecycle.agingWindowDays && 0 < c.lifecycle.archiveAgeDays) .lifecycleWindows
  requireUnit "retrieval.tag_weight" c.retrieval.tagWeight
  requireUnit "retrieval.content_weight" c.retrieval.contentWeight
  requireUnit "retrieval.importance_weight" c.retrieval.importanceWeight
  requireUnit "retrieval.recency_weight" c.retrieval.recencyWeight
  require (0 < c.retrieval.candidatePoolSize) .candidatePool
  c.retrieval.recencyBuckets.forM fun b => requireUnit "retrieval.recency_buckets.value" b.value
  requireUnit "learning.explicit_confidence" c.learning.explicitConfidence
  require (c.learning.minLearnedImportance ≤ c.learning.maxLearnedImportance) .learnedImportance

/-- Checks a configuration as an error of the engine. -/
def validate (c : Config) : Except Error Unit :=
  match c.check with
  | .ok () => .ok ()
  | .error cause => .error (.config cause)

end Config

/-! ## Reading -/

open Document (asFieldsIn? asBool? asText? asList? asInt32? asInt64? asNat64? asSingle? texts)

def Document.asTexts? : Document → Option (List String) := asList? asText?

def StorageMode.ofDocument? (format : Format) (d : Document) : Option StorageMode :=
  d.asNameIn? format >>= StorageMode.parse?

def StorageConfig.ofDocument? (format : Format) (d : Document) : Option StorageConfig := do
  let f ← asFieldsIn? format 2 d
  let base : StorageConfig := {}
  some
    { path := ← f.withDefault 0 ["db_path"] base.path asText?
      mode := ← f.withDefault 1 ["storage_mode"] base.mode (StorageMode.ofDocument? format) }

def DetectorConfig.ofDocument? (format : Format) (d : Document) : Option DetectorConfig := do
  let f ← asFieldsIn? format 4 d
  let base : DetectorConfig := {}
  some
    { explicitRequest := ← f.withDefault 0 ["explicit_request"] base.explicitRequest asBool?
      preference := ← f.withDefault 1 ["preference"] base.preference asBool?
      pattern := ← f.withDefault 2 ["pattern"] base.pattern asBool?
      insight := ← f.withDefault 3 ["insight"] base.insight asBool? }

def LearningConfig.ofDocument? (format : Format) (d : Document) : Option LearningConfig := do
  let f ← asFieldsIn? format 12 d
  let base : LearningConfig := {}
  some
    { detectors := ← f.withDefault 0 ["detectors"] base.detectors
        (DetectorConfig.ofDocument? format)
      explicitPhrases := ← f.withDefault 1 ["explicit_phrases"] base.explicitPhrases
        Document.asTexts?
      personalPatterns := ← f.withDefault 2 ["personal_patterns"] base.personalPatterns
        Document.asTexts?
      learningPhrases := ← f.withDefault 3 ["learning_phrases"] base.learningPhrases
        Document.asTexts?
      errorMarkers := ← f.withDefault 4 ["error_markers"] base.errorMarkers Document.asTexts?
      urgencyWords := ← f.withDefault 5 ["urgency_words"] base.urgencyWords Document.asTexts?
      explicitImportance := ← f.withDefault 6 ["explicit_importance"] base.explicitImportance
        asInt32?
      explicitUrgentImportance := ← f.withDefault 7 ["explicit_urgent_importance"]
        base.explicitUrgentImportance asInt32?
      explicitConfidence := ← f.withDefault 8 ["explicit_confidence"] base.explicitConfidence
        asSingle?
      minLearnedImportance := ← f.withDefault 9 ["min_learned_importance"]
        base.minLearnedImportance asInt32?
      maxLearnedImportance := ← f.withDefault 10 ["max_learned_importance"]
        base.maxLearnedImportance asInt32?
      maxContentChars := ← f.withDefault 11 ["max_content_chars"] base.maxContentChars asNat64? }

def ConsolidationConfig.ofDocument? (format : Format) (d : Document) :
    Option ConsolidationConfig := do
  let f ← asFieldsIn? format 5 d
  let base : ConsolidationConfig := {}
  some
    { tagThreshold := ← f.withDefault 0 ["tag_similarity_threshold"] base.tagThreshold asSingle?
      contentThreshold := ← f.withDefault 1 ["content_similarity_threshold"]
        base.contentThreshold asSingle?
      maxItemsPerType := ← f.withDefault 2 ["max_items_per_type"] base.maxItemsPerType asNat64?
      pageSize := ← f.withDefault 3 ["page_size"] base.pageSize asNat64?
      maxMemoriesPerPass := ← f.withDefault 4 ["max_memories_per_pass"]
        base.maxMemoriesPerPass asNat64? }

def LifecycleConfig.ofDocument? (format : Format) (d : Document) : Option LifecycleConfig := do
  let f ← asFieldsIn? format 4 d
  let base : LifecycleConfig := {}
  some
    { agingWindowDays := ← f.withDefault 0 ["aging_window_days"] base.agingWindowDays asInt64?
      archiveAgeDays := ← f.withDefault 1 ["archive_age_days"] base.archiveAgeDays asInt64?
      archiveImportanceBelow := ← f.withDefault 2 ["archive_importance_below"]
        base.archiveImportanceBelow asInt32?
      pageSize := ← f.withDefault 3 ["page_size"] base.pageSize asNat64? }

def RecencyBucket.ofDocument? (format : Format) (d : Document) : Option RecencyBucket := do
  let f ← asFieldsIn? format 2 d
  some
    { maxDays := ← f.required 0 ["max_days"] asInt64?
      value := ← f.required 1 ["value"] asSingle? }

def RetrievalConfig.ofDocument? (format : Format) (d : Document) : Option RetrievalConfig := do
  let f ← asFieldsIn? format 8 d
  let base : RetrievalConfig := {}
  some
    { tagWeight := ← f.withDefault 0 ["tag_weight"] base.tagWeight asSingle?
      contentWeight := ← f.withDefault 1 ["content_weight"] base.contentWeight asSingle?
      importanceWeight := ← f.withDefault 2 ["importance_weight"] base.importanceWeight asSingle?
      recencyWeight := ← f.withDefault 3 ["recency_weight"] base.recencyWeight asSingle?
      recencyBuckets := ← f.withDefault 4 ["recency_buckets"] base.recencyBuckets
        (asList? (RecencyBucket.ofDocument? format))
      minImportance := ← f.withDefault 5 ["min_importance"] base.minImportance asInt32?
      candidatePoolSize := ← f.withDefault 6 ["candidate_pool_size"] base.candidatePoolSize asNat64?
      defaultLimit := ← f.withDefault 7 ["default_limit"] base.defaultLimit asInt64? }

def ContextConfig.ofDocument? (format : Format) (d : Document) : Option ContextConfig := do
  let f ← asFieldsIn? format 4 d
  let base : ContextConfig := {}
  some
    { maxLength := ← f.withDefault 0 ["max_length"] base.maxLength asNat64?
      maxToolPreferences := ← f.withDefault 1 ["max_tool_preferences"] base.maxToolPreferences
        asNat64?
      maxCommunicationStyle := ← f.withDefault 2 ["max_communication_style"]
        base.maxCommunicationStyle asNat64?
      maxItemsPerGroup := ← f.withDefault 3 ["max_items_per_group"] base.maxItemsPerGroup
        asNat64? }

namespace Config

def ofDocument? (format : Format) (d : Document) : Option Config := do
  let f ← asFieldsIn? format 8 d
  let base : Config := {}
  some
    { storage := ← f.withDefault 0 ["storage"] base.storage (StorageConfig.ofDocument? format)
      vocabulary := ← f.withDefault 1 ["vocabulary"] base.vocabulary Document.asTexts?
      learning := ← f.withDefault 2 ["learning"] base.learning (LearningConfig.ofDocument? format)
      consolidation := ← f.withDefault 3 ["consolidation"] base.consolidation
        (ConsolidationConfig.ofDocument? format)
      lifecycle := ← f.withDefault 4 ["lifecycle"] base.lifecycle
        (LifecycleConfig.ofDocument? format)
      retrieval := ← f.withDefault 5 ["retrieval"] base.retrieval
        (RetrievalConfig.ofDocument? format)
      context := ← f.withDefault 6 ["context"] base.context (ContextConfig.ofDocument? format)
      batchTimeoutMillis := ← f.withDefault 7 ["batch_timeout_ms"] base.batchTimeoutMillis
        asNat64? }

/-- Reads and checks a configuration file. -/
def ofToml (s : String) : Except Error Config :=
  match Toml.parse? s >>= ofDocument? .toml with
  | none => .error (.config .unreadable)
  | some c => do
    c.validate
    .ok c

end Config

end LongTermMemory
