import LongTermMemory.Text.Words

/-!
The closed lists of names: memory types, context types and relationship types. `name` is the exact
name, `ofName?` reads it, and `parse?` reads it in any letter case together with the short names.
-/

namespace LongTermMemory

inductive MemoryType where
  | preference
  | insight
  | pattern
  | fact
  | goal
  | habit
  | routine
  | relationship
  | skill
  | knowledge
  | explicitRequest
deriving DecidableEq, Repr, Inhabited

namespace MemoryType

def all : List MemoryType :=
  [.preference, .insight, .pattern, .fact, .goal, .habit, .routine, .relationship, .skill,
   .knowledge, .explicitRequest]

def name : MemoryType → String
  | .preference => "preference"
  | .insight => "insight"
  | .pattern => "pattern"
  | .fact => "fact"
  | .goal => "goal"
  | .habit => "habit"
  | .routine => "routine"
  | .relationship => "relationship"
  | .skill => "skill"
  | .knowledge => "knowledge"
  | .explicitRequest => "explicit_request"

def label : MemoryType → String
  | .preference => "Preference"
  | .insight => "Insight"
  | .pattern => "Pattern"
  | .fact => "Fact"
  | .goal => "Goal"
  | .habit => "Habit"
  | .routine => "Routine"
  | .relationship => "Relationship"
  | .skill => "Skill"
  | .knowledge => "Knowledge"
  | .explicitRequest => "Explicit Request"

/-- The type of a memory of which nothing else is known. -/
def default : MemoryType := .insight

def ofName? (s : String) : Option MemoryType := all.find? (·.name == s)

def parse? (s : String) : Option MemoryType :=
  let s := Text.lowercase s
  if s = "explicit" then some .explicitRequest else ofName? s

def unknownMessage (s : String) : String := "Unknown memory type: " ++ s

theorem ofName?_name (t : MemoryType) : ofName? t.name = some t := by cases t <;> rfl

theorem name_inj {t t' : MemoryType} (h : t.name = t'.name) : t = t' := by
  have hread := congrArg ofName? h
  rw [ofName?_name, ofName?_name] at hread
  exact Option.some.inj hread

theorem mem_all (t : MemoryType) : t ∈ all := by cases t <;> decide

end MemoryType

inductive ContextType where
  | temporal
  | spatial
  | social
  | environmental
  | emotional
  | technical
  | custom
deriving DecidableEq, Repr

namespace ContextType

def all : List ContextType :=
  [.temporal, .spatial, .social, .environmental, .emotional, .technical, .custom]

def name : ContextType → String
  | .temporal => "temporal"
  | .spatial => "spatial"
  | .social => "social"
  | .environmental => "environmental"
  | .emotional => "emotional"
  | .technical => "technical"
  | .custom => "custom"

def default : ContextType := .custom

def ofName? (s : String) : Option ContextType := all.find? (·.name == s)

def parse? (s : String) : Option ContextType := ofName? (Text.lowercase s)

def unknownMessage (s : String) : String := "Unknown context type: " ++ s

theorem ofName?_name (t : ContextType) : ofName? t.name = some t := by cases t <;> rfl

end ContextType

inductive RelationshipType where
  | relatedTo
  | supersedes
  | contradicts
  | supports
  | dependsOn
deriving DecidableEq, Repr

namespace RelationshipType

def all : List RelationshipType := [.relatedTo, .supersedes, .contradicts, .supports, .dependsOn]

def name : RelationshipType → String
  | .relatedTo => "related_to"
  | .supersedes => "supersedes"
  | .contradicts => "contradicts"
  | .supports => "supports"
  | .dependsOn => "depends_on"

def default : RelationshipType := .relatedTo

def ofName? (s : String) : Option RelationshipType := all.find? (·.name == s)

def parse? (s : String) : Option RelationshipType :=
  let s := Text.lowercase s
  if s = "related" then some .relatedTo else ofName? s

def unknownMessage (s : String) : String := "Unknown relationship type: " ++ s

theorem ofName?_name (t : RelationshipType) : ofName? t.name = some t := by cases t <;> rfl

end RelationshipType

end LongTermMemory
