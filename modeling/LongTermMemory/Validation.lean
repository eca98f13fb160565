import LongTermMemory.Request

/-!
Checks of requests before they reach the store. Of several faults the first in the order of the
checks is reported. Checked tags come back in normal form.
-/

namespace LongTermMemory

namespace Invalid

def ensure (p : Bool) (cause : Invalid) : Except Invalid Unit := if p then .ok () else .error cause

def checkOwner (owner : String) : Except Invalid Unit := ensure (!Text.blank owner) .blankOwner

def checkContent (content : String) : Except Invalid Unit :=
  ensure (!Text.blank content) .blankContent

def checkImportance (i : Int) : Except Invalid Unit := ensure (1 ≤ i ∧ i ≤ 10) (.importance i)

def checkUnit (name : String) (x : Single) : Except Invalid Unit :=
  ensure x.inUnit (.outsideUnit name x)

def checkLimit (limit : Int) : Except Invalid Unit := ensure (0 ≤ limit) (.negativeLimit limit)

def checkCategory (category : String) : Except Invalid Unit :=
  ensure (!Text.blank category) .blankCategory

/-- A check of a value that may be absent. -/
def ifPresent {α : Type} (check : α → Except Invalid Unit) : Option α → Except Invalid Unit
  | none => .ok ()
  | some a => check a

end Invalid

open Invalid

def NewContext.check (c : NewContext) : Except Invalid Unit := do
  ensure (!Text.blank c.key) .blankContextKey
  checkUnit "context confidence" c.confidence

/-- The tags of an acceptable request. -/
def NewMemory.check (r : NewMemory) (v : Vocabulary) : Except Invalid (List String) := do
  checkOwner r.owner
  checkContent r.content
  let tags ← v.validate r.tags
  checkImportance r.importance
  checkUnit "confidence_score" r.confidence
  ifPresent checkCategory r.category
  r.contexts.forM NewContext.check
  pure tags

/-- The tags of acceptable changes, if they change the tags. -/
def Changes.check (c : Changes) (v : Vocabulary) : Except Invalid (Option (List String)) := do
  ifPresent checkContent c.content
  let tags ← match c.tags with
    | none => pure none
    | some tags => some <$> v.validate tags
  ifPresent checkImportance c.importance
  ifPresent (checkUnit "confidence_score") c.confidence
  ifPresent checkCategory c.category
  pure tags

def NewRelationship.check (r : NewRelationship) : Except Invalid Unit := do
  ensure (r.source ≠ r.target) .selfRelation
  checkUnit "strength" r.strength

/-- A failed check as an error of the store. -/
def Invalid.raise {α : Type} : Except Invalid α → Except Error α
  | .ok a => .ok a
  | .error cause => .error (.validation cause)

end LongTermMemory
