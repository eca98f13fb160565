import LongTermMemory.Proofs.Gist
import LongTermMemory.Proofs.Idempotence
import LongTermMemory.Proofs.Independence
import LongTermMemory.Proofs.Passes

/-!
What the passes of an owner read: the owner's memories, and nothing of their parents. The report of
a pass is told from this view alone, and so is what the pass does to the store.
-/

namespace LongTermMemory

/-! ## Views -/

/-- The memories of an owner among some memories, without their parents. -/
def seenBy (owner : String) (ms : List Memory) : List Memory :=
  (ms.filter (·.owner = owner)).map (·.withParent none)

def Store.viewOf (s : Store) (owner : String) : List Memory := seenBy owner s.memories

section

variable {owner : String} {ms : List Memory}

theorem any_seenBy {p : Memory → Bool} (hp : ∀ m parent, p (m.withParent parent) = p m)
    (howner : ∀ m, p m = true → m.owner = owner) : (seenBy owner ms).any p = ms.any p := by
  rw [seenBy, List.any_map, List.any_filter]
  congr 1
  funext m
  rw [Function.comp_apply, hp]
  cases hm : p m with
  | false => exact Bool.and_false _
  | true => simp [howner m hm]

theorem filter_seenBy {p : Memory → Bool} (hp : ∀ m parent, p (m.withParent parent) = p m)
    (howner : ∀ m, p m = true → m.owner = owner) :
    (seenBy owner ms).filter p = (ms.filter p).map (·.withParent none) := by
  rw [seenBy, List.filter_map, List.filter_filter]
  congr 1
  refine List.filter_congr fun m _ => ?_
  rw [Function.comp_apply, hp]
  cases hm : p m with
  | false => rfl
  | true => simp [howner m hm]

theorem countP_seenBy {p : Memory → Bool} (hp : ∀ m parent, p (m.withParent parent) = p m)
    (howner : ∀ m, p m = true → m.owner = owner) : (seenBy owner ms).countP p = ms.countP p := by
  rw [List.countP_eq_length_filter, filter_seenBy hp howner, List.length_map,
    List.countP_eq_length_filter]

theorem map_seenBy {f : Memory → Memory} (hf : Memory.KeepsPlace f)
    (howner : ∀ m, (f m).owner = m.owner) : (seenBy owner ms).map f = seenBy owner (ms.map f) := by
  rw [seenBy, seenBy, List.filter_map, List.map_map, List.map_map]
  simp only [Function.comp_def, howner, hf.parent]

end

/-- A view stands by ascending id. -/
theorem ById.viewOf {s : Store} (hs : s.Sound) (owner : String) : ById (s.viewOf owner) := by
  have hids : (s.viewOf owner).map (·.id) = (s.memories.filter (·.owner = owner)).map (·.id) := by
    rw [Store.viewOf, seenBy, List.map_map]
    rfl
  rw [ById, hids]
  exact hs.ascending.sublist (List.filter_sublist.map _)

namespace Store

variable {s : Store} {owner : String}

theorem mem_viewOf {m : Memory} (hm : m ∈ s.viewOf owner) :
    m.owner = owner ∧ ∃ k ∈ s.memories, k.id = m.id ∧ k.owner = owner := by
  obtain ⟨k, hk, rfl⟩ := List.mem_map.mp hm
  obtain ⟨hk, howner⟩ := List.mem_filter.mp hk
  exact ⟨of_decide_eq_true howner, k, hk, rfl, of_decide_eq_true howner⟩

theorem viewOf_mapMemories {f : Memory → Memory} (hf : Memory.KeepsPlace f)
    (howner : ∀ m, (f m).owner = m.owner) :
    (s.mapMemories f).viewOf owner = (s.viewOf owner).map f := by
  rw [viewOf, memories_mapMemories, viewOf, map_seenBy hf howner]

theorem viewOf_removeAll (gone : List MemoryId) :
    (s.removeAll gone).viewOf owner = (s.viewOf owner).filter (·.id ∉ gone) := by
  rw [viewOf, viewOf, memories_removeAll, seenBy, seenBy, List.filter_map, List.filter_map,
    List.map_map, List.filter_filter, List.filter_filter]
  refine congrArg (List.map fun m : Memory => m.withParent none) (List.filter_congr fun m _ => ?_)
  exact Bool.and_comm _ _

end Store

/-! ## Lifecycle -/

namespace Lifecycle

variable (c : LifecycleConfig) (now : Instant) (owner : String)

def aging (m : Memory) : Memory :=
  if ages now owner (c.agingWindowDays * Instant.millisPerDay) m then pointLost now m else m

def archiving (m : Memory) : Memory :=
  if archives now owner (c.archiveAgeDays * Instant.millisPerDay) c.archiveImportanceBelow m then
    laidAside now m
  else m

/-- A memory after aging and archival. -/
def settle (m : Memory) : Memory := archiving c now owner (aging c now owner m)

/-- The report of a run over some memories. -/
def reportOf (ms : List Memory) : LifecycleReport :=
  { aged := ms.countP (ages now owner (c.agingWindowDays * Instant.millisPerDay))
    archived := (ms.map (aging c now owner)).countP
      (archives now owner (c.archiveAgeDays * Instant.millisPerDay) c.archiveImportanceBelow)
    deduplicated := (ms.map (settle c now owner)).countP
      (outranked now owner (ms.map (settle c now owner))) }

/-- The ids of the memories that a run over some memories deletes. -/
def removedOf (ms : List Memory) : List MemoryId :=
  ((ms.map (settle c now owner)).filter
    (outranked now owner (ms.map (settle c now owner)))).map (·.id)

/-- A run settles each memory by itself, and removes some. -/
def tidied (s : Store) : Store :=
  (s.mapMemories (settle c now owner)).removeAll (removedOf c now owner (s.viewOf owner))

variable {c now owner}

theorem owner_of_subject {m : Memory} (h : subject owner m = true) : m.owner = owner :=
  of_decide_eq_true (Bool.and_eq_true_iff.mp h).1

theorem owner_of_ages {window : Int} {m : Memory} (h : ages now owner window m = true) :
    m.owner = owner := by
  simp only [ages, Bool.and_eq_true] at h
  exact owner_of_subject h.1.1.1

theorem owner_of_archives {minAge threshold : Int} {m : Memory}
    (h : archives now owner minAge threshold m = true) : m.owner = owner := by
  simp only [archives, Bool.and_eq_true] at h
  exact owner_of_subject h.1.1

theorem owner_of_outranked {ms : List Memory} {m : Memory}
    (h : outranked now owner ms m = true) : m.owner = owner :=
  owner_of_subject (Bool.and_eq_true_iff.mp h).1

theorem keepsPlace_aging : Memory.KeepsPlace (aging c now owner) :=
  Memory.KeepsPlace.ite (fun _ _ => rfl) ⟨fun _ => rfl, fun _ _ => rfl⟩

theorem keepsPlace_archiving : Memory.KeepsPlace (archiving c now owner) :=
  Memory.KeepsPlace.ite (fun _ _ => rfl) ⟨fun _ => rfl, fun _ _ => rfl⟩

theorem keepsPlace_settle : Memory.KeepsPlace (settle c now owner) :=
  keepsPlace_archiving.comp keepsPlace_aging

theorem owner_aging (m : Memory) : (aging c now owner m).owner = m.owner := by
  unfold aging
  split <;> rfl

theorem owner_settle (m : Memory) : (settle c now owner m).owner = m.owner := by
  have harchiving : ∀ m : Memory, (archiving c now owner m).owner = m.owner := by
    intro m
    unfold archiving
    split <;> rfl
  exact (harchiving _).trans (owner_aging m)

/-- A run leaves the memories of others alone. -/
theorem settle_of_other {m : Memory} (h : m.owner ≠ owner) : settle c now owner m = m := by
  have hnot : subject owner m = false := by simp [subject, h]
  have haging : aging c now owner m = m := if_neg (by simp [ages, hnot])
  rw [settle, haging]
  exact if_neg (by simp [archives, hnot])

theorem outranked_seenBy (ms : List Memory) :
    outranked now owner (seenBy owner ms) = outranked now owner ms := by
  funext m
  unfold outranked
  rw [any_seenBy (fun _ _ => rfl) fun k hk => ?_]
  simp only [Bool.and_eq_true] at hk
  exact owner_of_subject (by simpa using hk.1.1)

theorem reportOf_seenBy (ms : List Memory) :
    reportOf c now owner (seenBy owner ms) = reportOf c now owner ms := by
  unfold reportOf
  rw [map_seenBy keepsPlace_aging owner_aging, map_seenBy keepsPlace_settle owner_settle,
    outranked_seenBy, countP_seenBy (fun _ _ => rfl) fun _ => owner_of_ages,
    countP_seenBy (fun _ _ => rfl) fun _ => owner_of_archives,
    countP_seenBy (fun _ _ => rfl) fun _ => owner_of_outranked]

theorem removedOf_seenBy (ms : List Memory) :
    removedOf c now owner (seenBy owner ms) = removedOf c now owner ms := by
  unfold removedOf
  rw [map_seenBy keepsPlace_settle owner_settle, outranked_seenBy,
    filter_seenBy (fun _ _ => rfl) fun _ => owner_of_outranked, List.map_map]
  rfl

theorem unpaged_eq (s : Store) : unpaged c now owner s =
    (reportOf c now owner (s.viewOf owner), tidied c now owner s) := by
  have haged : agedStore c now owner s = s.mapMemories (aging c now owner) :=
    Store.modifyWhere_eq_mapMemories s _ _
  have harchived : archivedStore c now owner (agedStore c now owner s) =
      s.mapMemories (settle c now owner) := by
    rw [haged, archivedStore, Store.modifyWhere_eq_mapMemories, Store.mapMemories_mapMemories]
    rfl
  unfold unpaged
  dsimp only
  rw [harchived, haged, Store.memories_mapMemories, Store.memories_mapMemories, tidied,
    Store.viewOf, reportOf_seenBy, removedOf_seenBy, deduplicatedStore, Store.memories_mapMemories]
  rfl

end Lifecycle

/-! ## Consolidation -/

theorem gists_activeAt (s : Store) (now : Instant) (owner : String) :
    (s.activeAt now owner).map Memory.gist =
      ((s.viewOf owner).filter fun m => !m.archived).map Memory.gist := by
  rw [Store.activeAt_eq, Store.viewOf, seenBy, List.filter_map, List.filter_filter, List.map_map,
    List.map_map]
  refine congrArg (List.map Memory.gist) (List.filter_congr fun m _ => ?_)
  exact Bool.and_comm _ _

/-- The report with its ids moved on. -/
def ConsolidationReport.renumbered (report : ConsolidationReport) (given : Nat) :
    ConsolidationReport :=
  { report with mergedIds := report.mergedIds.map (· + given) }

theorem Store.newIds_add (last given : Int) (n : Nat) :
    newIds (last + given) n = (newIds last n).map (· + given) := by
  induction n generalizing last with
  | zero => rfl
  | succ n ih =>
    rw [newIds, newIds, List.map_cons, ← ih, Int.add_right_comm]

namespace Engine

variable {e : Engine} {now : Instant} {owner : String} {s s' : Store}

/-- The groups among an owner's memories. -/
def groupsIn (e : Engine) (ms : List Memory) : List (List Memory) :=
  e.config.consolidation.findGroups
    ((ms.filter fun m => !m.archived).take e.config.consolidation.maxMemoriesPerPass)

/-- What is read of the groups to replace them is their gist. -/
theorem replacements_gist (owner : String) (groups : List (List Memory)) :
    e.replacements owner (groups.map (·.map Memory.gist)) = e.replacements owner groups := by
  unfold replacements
  rw [List.filterMap_map]
  refine List.filterMap_congr fun group _ => ?_
  rw [Function.comp_apply, ConsolidationConfig.mergedRequest_gist, List.map_map]
  rfl

/-- The groups that a pass finds are those of the view. -/
theorem gists_findGroups (e : Engine) (s : Store) (now : Instant) (owner : String) :
    (e.config.consolidation.findGroups
      ((s.activeAt now owner).take e.config.consolidation.maxMemoriesPerPass)).map
        (·.map Memory.gist) = (e.groupsIn (s.viewOf owner)).map (·.map Memory.gist) := by
  refine ConsolidationConfig.findGroups_congr _ ?_
  rw [List.map_take, List.map_take, gists_activeAt]

/-- The replacements that a pass over an owner's memories makes. -/
def replacementsIn (e : Engine) (owner : String) (ms : List Memory) : List Replacement :=
  e.replacements owner (e.groupsIn ms)

/-- The report of a pass that finds some groups, the id `last` having been given out last. -/
def mergeReport (e : Engine) (owner : String) (last : MemoryId) (groups : List (List Memory)) :
    ConsolidationReport :=
  let rs := e.replacements owner groups
  { groupsFound := groups.length
    groupsMerged := rs.length
    memoriesArchived := (rs.map (·.ids.length)).sum
    mergedIds := Store.newIds last rs.length
    skippedGroups := groups.length - rs.length }

/-- The report of a pass over an owner's memories. -/
def mergeReportOf (e : Engine) (owner : String) (last : MemoryId) (ms : List Memory) :
    ConsolidationReport :=
  e.mergeReport owner last (e.groupsIn ms)

/-- Where more ids have been given out before, the report is the same but for its ids. -/
theorem mergeReportOf_add (owner : String) (last : MemoryId) (given : Nat) (ms : List Memory) :
    e.mergeReportOf owner (last + given) ms = (e.mergeReportOf owner last ms).renumbered given := by
  simp [mergeReportOf, mergeReport, ConsolidationReport.renumbered, Store.newIds_add]

theorem mergeReport_gist (owner : String) (last : MemoryId) (groups : List (List Memory)) :
    e.mergeReport owner last (groups.map (·.map Memory.gist)) = e.mergeReport owner last groups := by
  unfold mergeReport
  rw [replacements_gist, List.length_map]

theorem lengths_replacements (owner : String) (groups : List (List Memory)) :
    (e.replacements owner groups).map (·.ids.length) =
      (groups.filter (e.mergeable owner)).map List.length := by
  induction groups with
  | nil => rfl
  | cons group groups ih =>
    cases hmergeable : e.mergeable owner group with
    | false =>
      rw [replacements_cons_of_not_mergeable hmergeable, List.filter_cons, hmergeable]
      exact ih
    | true =>
      obtain ⟨r, hr⟩ := exists_prepared hmergeable
      rw [replacements_cons_of_prepare hr, List.filter_cons, hmergeable, List.map_cons, ih]
      simp

/-- What the mergers of the groups found come to in the report. -/
theorem reported_eq {groups : List (List Memory)} {mergers : List Merger} {last : MemoryId}
    (hmergers : mergers.map (·.group) = groups.filter (e.mergeable owner))
    (hnew : mergers.map (·.result.id) = Store.newIds last mergers.length) :
    reported { groupsFound := groups.length } mergers
      (groups.countP fun group => !e.mergeable owner group) = e.mergeReport owner last groups := by
  have hlengths : (e.replacements owner groups).map (·.ids.length) =
      mergers.map (·.group.length) := by
    rw [lengths_replacements, ← hmergers, List.map_map]
    rfl
  have hcount : (e.replacements owner groups).length = mergers.length := by
    simpa using congrArg List.length hlengths
  have hskipped : (groups.countP fun group => !e.mergeable owner group) =
      groups.length - mergers.length := by
    have hsplit := List.length_eq_countP_add_countP (e.mergeable owner) (l := groups)
    have hmerged := congrArg List.length hmergers
    rw [List.length_map, ← List.countP_eq_length_filter] at hmerged
    simp only [Bool.not_eq_true, Bool.decide_eq_false] at hsplit
    omega
  simp [reported, mergeReport, hcount, hlengths, hnew, hskipped]

/-- A pass makes just the replacements that its owner's memories call for. -/
theorem mergeFound_eq (hs : s.Sound) (now : Instant) (owner : String) :
    e.mergeFound now owner s = (e.mergeReportOf owner s.lastMemoryId (s.viewOf owner),
      s.replacing now (e.replacementsIn owner (s.viewOf owner))) := by
  obtain ⟨-, hseparate⟩ := separate_findGroups (c := e.config.consolidation) hs
    (List.take_sublist e.config.consolidation.maxMemoriesPerPass (s.activeAt now owner))
  have hgists := gists_findGroups e s now owner
  unfold mergeFound
  dsimp only
  generalize e.config.consolidation.findGroups
    ((s.activeAt now owner).take e.config.consolidation.maxMemoriesPerPass) = groups
    at hseparate hgists
  cases hresult : e.mergeAll now owner groups .never ({ groupsFound := groups.length }, s) with
  | mk report s' =>
    have hgoes : report.aborted = false := by
      rw [← congrArg (fun r => r.1.aborted) hresult]
      exact aborted_mergeAll_never _ _ _
    obtain ⟨mergers, hmergers, -, rfl, rfl, hnew⟩ := mergeAll_eq hs hseparate hresult hgoes
    rw [reported_eq hmergers hnew, mergeReportOf, replacementsIn, ← mergeReport_gist,
      ← replacements_gist, hgists, mergeReport_gist, replacements_gist]

/-! ## Passes that give a report -/

theorem not_blank_of_ok {α : Type} {f : Unit → Except Error α} {a : α}
    (h : Invalid.raise (Invalid.checkOwner owner) >>= f = .ok a) : Text.blank owner = false := by
  obtain ⟨_, hcheck, -⟩ := bind_eq_ok.mp h
  simpa using Invalid.ensure_eq_ok.mp (Invalid.raise_eq_ok.mp hcheck)

theorem lifecycle_eq_ok (hc : e.config.Checked) (hsize : e.config.Sized) (hs : s.Sound)
    {report : LifecycleReport} : e.lifecycle now owner s = .ok (report, s') ↔
      (Text.blank owner = false ∧ e.config.lifecycle.Runnable) ∧
        report = Lifecycle.reportOf e.config.lifecycle now owner (s.viewOf owner) ∧
        s' = Lifecycle.tidied e.config.lifecycle now owner s := by
  constructor
  · intro h
    have howner := not_blank_of_ok h
    have hrunnable := (worksWhen_lifecycle e hs howner hc.lifecyclePageSize hsize.lifecyclePage
      hc.lifecycleWindows.1 hc.lifecycleWindows.2 now).holds h
    rw [lifecycle_of_runnable hs howner hrunnable, Lifecycle.unpaged_eq] at h
    cases h
    exact ⟨⟨howner, hrunnable⟩, rfl, rfl⟩
  · rintro ⟨⟨howner, hrunnable⟩, rfl, rfl⟩
    rw [lifecycle_of_runnable hs howner hrunnable, Lifecycle.unpaged_eq]

theorem consolidate_eq_ok (hc : e.config.Checked) (hsize : e.config.Sized) (hs : s.Sound)
    {report : ConsolidationReport} : e.consolidate now owner s = .ok (report, s') ↔
      (Text.blank owner = false ∧ min e.config.consolidation.pageSize
        e.config.consolidation.maxMemoriesPerPass < 2 ^ 63) ∧
        report = e.mergeReportOf owner s.lastMemoryId (s.viewOf owner) ∧
        s' = s.replacing now (e.replacementsIn owner (s.viewOf owner)) := by
  have hgives : ∀ {report s'}, e.consolidate now owner s = .ok (report, s') →
      (e.mergeReportOf owner s.lastMemoryId (s.viewOf owner),
        s.replacing now (e.replacementsIn owner (s.viewOf owner))) = (report, s') := by
    intro report s' h
    rw [← mergeFound_eq hs]
    exact consolidate_eq_mergeFound hs hc.consolidationSizes.1 hsize.consolidationPage h
  constructor
  · intro h
    have howner := not_blank_of_ok h
    have hworks := worksWhen_consolidate e howner hsize.consolidationPage now s
    obtain ⟨rfl, rfl⟩ := Prod.mk.inj (hgives h)
    exact ⟨⟨howner, hworks.holds h⟩, rfl, rfl⟩
  · rintro ⟨⟨howner, hsmall⟩, rfl, rfl⟩
    have hworks := worksWhen_consolidate e howner hsize.consolidationPage now s
    obtain ⟨r, h⟩ := hworks.works hsmall
    rw [h, hgives h]

end Engine

end LongTermMemory
