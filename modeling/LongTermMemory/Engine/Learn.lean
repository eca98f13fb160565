import LongTermMemory.Engine
import LongTermMemory.Learning

/-!
Learning from a turn: each draft is stored unless an active memory says the same already. Learning
never fails; a draft that the store refuses is dropped.
-/

namespace LongTermMemory.Engine

def drafts (e : Engine) (i : Interaction) : List Draft :=
  draftsOf e.config.learning e.classifier i

/-- Whether an active memory of the same owner, type and category has the content of a request. -/
def known (r : NewMemory) (s : Store) : Bool :=
  (s.findDuplicate? r.owner (r.type.getD .default) (r.category.getD "") r.content).isSome

/-- Stores the drafts of a turn one after another. -/
def learnDrafts (e : Engine) (now : Instant) (i : Interaction) :
    List Draft → Store → List Memory × Store
  | [], s => ([], s)
  | d :: rest, s =>
    let r := d.toRequest i.owner i.tags e.vocabulary
    if known r s then learnDrafts e now i rest s
    else
      match e.create now r s with
      | .error _ => learnDrafts e now i rest s
      | .ok (m, s) =>
        let (ms, s) := learnDrafts e now i rest s
        (m :: ms, s)

/-- What a turn adds to the store; a turn of nobody adds nothing. -/
def learn (e : Engine) (now : Instant) (i : Interaction) (s : Store) : List Memory × Store :=
  if Text.blank i.owner then ([], s) else e.learnDrafts now i (e.drafts i) s

end LongTermMemory.Engine
