import LongTermMemory.Engine.Maintain

/-!
Passes over a store that cannot be written. Groups are found and none is merged, and a lifecycle run
with anything to do fails.
-/

namespace LongTermMemory

/-- The report where no group could be merged. -/
def ConsolidationReport.unmerged (r : ConsolidationReport) : ConsolidationReport :=
  { groupsFound := r.groupsFound, skippedGroups := r.groupsFound }

/-- Whether nothing was to be done. -/
def LifecycleReport.idle (r : LifecycleReport) : Bool :=
  r.aged = 0 && r.archived = 0 && r.deduplicated = 0

namespace Engine

def consolidateGuarded (e : Engine) (now : Instant) (owner : String) (s : Store) :
    Except Error ConsolidationReport :=
  (e.consolidate now owner s).map fun (report, _) => report.unmerged

/-- None for a run that would write. -/
def lifecycleGuarded (e : Engine) (now : Instant) (owner : String) (s : Store) :
    Except Error (Option LifecycleReport) :=
  (e.lifecycle now owner s).map fun (report, _) => if report.idle then some report else none

def maintainOwnerGuarded (e : Engine) (now : Instant) (s : Store) (owner : String) :
    Option MaintenanceReport :=
  match e.lifecycleGuarded now owner s with
  | .ok (some lifecycle) =>
    match e.consolidateGuarded now owner s with
    | .ok consolidation => some { owner, lifecycle, consolidation }
    | .error _ => some { owner, lifecycle, consolidation := {} }
  | _ => none

/-- An owner whose lifecycle run fails is left out. -/
def maintainGuarded (e : Engine) (now : Instant) (s : Store) : List MaintenanceReport :=
  s.owners.filterMap (e.maintainOwnerGuarded now s)

end Engine

end LongTermMemory
