import LongTermMemory.Engine.Consolidate
import LongTermMemory.Engine.Lifecycle

/-!
Maintenance: lifecycle and then consolidation for every owner. An owner whose lifecycle run fails is
left out.
-/

namespace LongTermMemory

structure MaintenanceReport where
  owner : String
  lifecycle : LifecycleReport
  consolidation : ConsolidationReport

namespace Engine

/-- Maintenance for one owner, none if its lifecycle run fails. -/
def maintainOwner (e : Engine) (now : Instant) (owner : String) (s : Store) :
    Option MaintenanceReport × Store :=
  match e.lifecycle now owner s with
  | .error _ => (none, s)
  | .ok (lifecycle, s) =>
    match e.consolidate now owner s with
    | .error _ => (some { owner, lifecycle, consolidation := {} }, s)
    | .ok (consolidation, s) => (some { owner, lifecycle, consolidation }, s)

def maintainOwners (e : Engine) (now : Instant) :
    List String → Store → List MaintenanceReport × Store
  | [], s => ([], s)
  | owner :: rest, s =>
    let (report, s) := e.maintainOwner now owner s
    let (reports, s) := maintainOwners e now rest s
    (report.toList ++ reports, s)

/-- The owners are those with memories when maintenance begins. -/
def maintain (e : Engine) (now : Instant) (s : Store) : List MaintenanceReport × Store :=
  e.maintainOwners now s.owners s

end Engine

end LongTermMemory
