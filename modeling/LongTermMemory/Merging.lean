import LongTermMemory.Learning
import LongTermMemory.Memory.Group
import LongTermMemory.Partition
import LongTermMemory.Similarity

/-!
Groups of similar memories, and the request for the one memory that takes the place of a group. A
group holds all memories that a chain of similar memories links.
-/

namespace LongTermMemory

/-- All pairs of an earlier and a later member. -/
def pairs {α : Type} : List α → List (α × α)
  | [] => []
  | a :: rest => rest.map (fun b => (a, b)) ++ pairs rest

namespace ConsolidationConfig

/-- The classes of the ids under chains of similarity. -/
def partition (c : ConsolidationConfig) (memories : List Memory) : Partition :=
  let features := memories.map Memory.features
  (pairs features).foldl (fun p (a, b) => if a.similar c b then p.union a.id b.id else p)
    (Partition.ofIds (features.map (·.id)))

/-- The groups of more than one memory, each by ascending id. Of memories with one id the last
counts. -/
def findGroups (c : ConsolidationConfig) (memories : List Memory) : List (List Memory) :=
  ((c.partition memories).groups.filter fun group => 1 < group.length).map fun group =>
    group.filterMap fun id => memories.reverse.find? fun m => m.id = id

end ConsolidationConfig

/-- The first of the values that are most frequent. -/
def mostFrequent {α : Type} [DecidableEq α] (values : List α) : Option α :=
  values.eraseDups.foldl
    (fun best v => if best.elim 0 (fun b => values.count b) < values.count v then some v else best)
    none

/-- The tool that a tool preference is about: the one on record, else the content. -/
def Memory.preferredTool (m : Memory) : String :=
  match Document.lookup "tool" m.metadata with
  | some (.text tool) => tool
  | _ => Text.trim m.content

/-- What is kept of the members of one display group. -/
def summarizeGroup (maxItems : Nat) (group : DisplayGroup) (members : List Memory) : String :=
  match group with
  | .toolPreference =>
    "User prefers tools: " ++
      String.intercalate ", " ((members.map Memory.preferredTool).eraseDups.take maxItems)
  | _ =>
    group.key ++ ": " ++
      String.intercalate "; " ((members.map fun m => Text.trim m.content).take maxItems)

/-- The summary of a group, display group by display group in the order in which they appear. -/
def synthesize (maxItems : Nat) (memories : List Memory) : String :=
  let groups := (memories.map DisplayGroup.ofMemory).eraseDups
  String.intercalate " | " (groups.map fun g =>
    summarizeGroup maxItems g (memories.filter fun m => DisplayGroup.ofMemory m = g))

/-- The sum by the count, a half rounded away from zero; zero for nothing. -/
def roundedMean (values : List Int) : Int :=
  let sum := total values
  let n := values.length
  if n = 0 then 0
  else
    let magnitude : Int := (2 * sum.natAbs + n) / (2 * n)
    if sum < 0 then -magnitude else magnitude

/-- One point above the mean, at most ten. -/
def mergedImportance (memories : List Memory) : Int :=
  min (wrapImportance (roundedMean (memories.map (·.importance)) + 1)) 10

/-- The request for the memory that takes the place of a group. -/
def ConsolidationConfig.mergedRequest (c : ConsolidationConfig) (owner : String)
    (memories : List Memory) : NewMemory :=
  let ids := memories.map (·.id)
  { owner
    content := synthesize c.maxItemsPerType memories
    tags := Ascending.ofList (memories.flatMap (·.tags))
    type := some ((mostFrequent (memories.map (·.type))).getD .default)
    category := some ((mostFrequent (memories.map (·.category))).getD generalCategory)
    importance := mergedImportance memories
    confidence := (memories.map (·.confidence)).foldl Single.max Single.zero
    sourceType := some "consolidation"
    createdBy := some systemActor
    related := ids
    metadata := [("consolidated_from", Document.integers ids)] }

end LongTermMemory
