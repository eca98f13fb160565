import LongTermMemory.Error
import LongTermMemory.Text.Words

/-!
The controlled vocabulary of tags. Tags are compared in their normal form, trimmed and in lower
case. `validate` refuses unknown tags and `filter` drops them.
-/

namespace LongTermMemory

def normalizeTag (tag : String) : String := Text.lowercase (Text.trim tag)

/-- The tags are in normal form, none empty, and strictly ascending. -/
structure Vocabulary where
  tags : List String

namespace Vocabulary

/-- The normal forms of the tags that are not blank, strictly ascending. -/
def normalForms (tags : List String) : List String :=
  Ascending.ofList ((tags.map normalizeTag).filter (· ≠ ""))

def ofList (tags : List String) : Vocabulary := ⟨normalForms tags⟩

def size (v : Vocabulary) : Nat := v.tags.length

def contains (v : Vocabulary) (tag : String) : Bool := v.tags.contains (normalizeTag tag)

def validate (v : Vocabulary) (tags : List String) : Except Invalid (List String) :=
  let normal := normalForms tags
  if normal.isEmpty then .error .noTags
  else
    let unknown := normal.filter fun t => !v.tags.contains t
    if unknown.isEmpty then .ok normal else .error (.unknownTags unknown)

def filter (v : Vocabulary) (tags : List String) : List String :=
  Ascending.ofList ((tags.map normalizeTag).filter v.tags.contains)

/-- Categories, memory types and topics. -/
def defaultTags : List String :=
  ["general", "work", "health", "finance", "education", "entertainment", "travel", "personal",
   "preference", "insight", "pattern", "fact", "goal", "habit", "routine", "relationship", "skill",
   "knowledge", "explicit_request",
   "tool", "communication", "schedule", "meeting", "email", "calendar", "notes", "reminder",
   "project", "fitness", "diet", "sleep", "family", "friends", "food", "shopping", "budget",
   "learning", "technology"]

end Vocabulary

end LongTermMemory
