import LongTermMemory.Memory

/-!
Display groups: how memories are gathered when they are summarised or formatted. Preferences about
tools and about communication have groups of their own; all other memories go by their type.
-/

namespace LongTermMemory

inductive DisplayGroup where
  | toolPreference
  | communicationStyle
  | type (t : MemoryType)
deriving DecidableEq

namespace DisplayGroup

def ofMemory (m : Memory) : DisplayGroup :=
  if m.type = .preference ∧ m.hasTag "tool" then .toolPreference
  else if m.type = .preference ∧ m.hasTag "communication" then .communicationStyle
  else .type m.type

def key : DisplayGroup → String
  | .toolPreference => "tool_preference"
  | .communicationStyle => "communication_style"
  | .type t => t.name

def heading : DisplayGroup → String
  | .toolPreference => "Tool Preferences"
  | .communicationStyle => "Communication Style"
  | .type t => t.label

end DisplayGroup

end LongTermMemory
