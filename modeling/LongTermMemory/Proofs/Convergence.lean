import LongTermMemory.Proofs.Merging
import LongTermMemory.Proofs.Passes
import Mathlib.Algebra.Order.BigOperators.Group.List
import Mathlib.Algebra.Order.Ring.Nat

/-!
Repeated consolidation: under one configuration a pass merges every group that it finds, so that
each pass that finds a group leaves fewer active memories than there were, and one of the first
passes finds none.
-/

namespace LongTermMemory

/-! ## Counting -/

theorem Store.activeMemories_eq (s : Store) (now : Instant) (owner : String) :
    (s.stats owner).activeMemories = (s.activeAt now owner).length := by
  simp [Store.stats, activeAt, memoriesOf_eq, List.filter_filter, Bool.and_comm]

/-- What is superseded is no longer active. -/
theorem Store.activeAt_superseding (s : Store) (t now : Instant) (owner : String)
    (ids : List MemoryId) : (s.superseding t ids).activeAt now owner =
      (s.activeAt now owner).filter fun m => m.id ∉ ids := by
  have hsubject : ∀ m : Memory, Lifecycle.subject owner (if m.id ∈ ids then m.superseded t else m) =
      (decide (m.id ∉ ids) && Lifecycle.subject owner m) := by
    intro m
    by_cases hin : m.id ∈ ids
    · rw [if_pos hin]
      simp [hin, Lifecycle.subject, Memory.superseded]
    · rw [if_neg hin]
      simp [hin]
  rw [activeAt_eq, activeAt_eq, superseding, memories_modifyWhere, List.filter_map,
    List.filter_map, List.filter_filter, List.map_map]
  simp only [Function.comp_def, decide_eq_true_eq, hsubject, Memory.readAt_id]
  refine List.map_congr_left fun m hm => ?_
  have hout : m.id ∉ ids := by
    simpa using (Bool.and_eq_true_iff.mp (List.mem_filter.mp hm).2).1
  rw [if_neg hout]

namespace Merged

variable {now : Instant} {owner : String} {mergers : List Merger} {s s' : Store}

/-- What is active after some mergers is what was and is not merged, and the new memories. -/
theorem activeAt_eq (h : Merged now owner mergers s s') : s'.activeAt now owner =
    (s.activeAt now owner).filter (fun m => m.id ∉ mergers.flatMap (·.ids)) ++
      mergers.map (·.result.readAt now) := by
  have hmemories : s'.memories = (s.superseding now (mergers.flatMap (·.ids))).memories ++
      mergers.map (·.result) := by
    rw [Store.memories, h.entries, List.map_append, List.map_map]
    rfl
  have hnew : (mergers.map (·.result)).filter (Lifecycle.subject owner) =
      mergers.map (·.result) := by
    refine List.filter_eq_self.mpr fun m hm => ?_
    obtain ⟨g, hg, rfl⟩ := List.mem_map.mp hm
    simp [Lifecycle.subject, (h.proper g hg).owner, (h.proper g hg).active]
  rw [Store.activeAt_eq, hmemories, List.filter_append, List.map_append, hnew, List.map_map,
    ← Store.activeAt_eq, Store.activeAt_superseding]
  rfl

/-- The members of separate groups are the active memories of their ids, in some order. -/
theorem perm_members (hs : s.Sound)
    (hgroups : Engine.Separate now owner s (mergers.map (·.group))) :
    (mergers.flatMap (·.group)).Perm
      ((s.activeAt now owner).filter fun m => m.id ∈ mergers.flatMap (·.ids)) := by
  have hbyId := ById.activeAt hs now owner
  have hreadable : ∀ g ∈ mergers, Readable now owner s g.group := fun g hg =>
    hgroups.readable _ (List.mem_map_of_mem hg)
  refine (List.perm_ext_iff_of_nodup ?_ ?_).mpr fun m => ?_
  · refine List.nodup_flatMap.mpr ⟨fun g hg => ?_, ?_⟩
    · exact (hreadable g hg).ascending.nodup_ids.of_map
    · refine (List.pairwise_map.mp hgroups.apart).imp fun happart m hm hm' => ?_
      exact happart m hm m hm' rfl
  · exact hbyId.nodup_ids.of_map.filter _
  · simp only [List.mem_flatMap, List.mem_filter, decide_eq_true_eq]
    constructor
    · rintro ⟨g, hg, hm⟩
      exact ⟨(hreadable g hg).active m hm, g, hg, List.mem_map_of_mem hm⟩
    · rintro ⟨hm, g, hg, hid⟩
      obtain ⟨k, hk, hid⟩ := List.mem_map.mp hid
      have hkm : k = m := hbyId.inj ((hreadable g hg).active k hk) hm hid
      exact ⟨g, hg, hkm ▸ hk⟩

/-- A merger takes its members from the active memories and adds one. -/
theorem length_activeAt (hs : s.Sound) (h : Merged now owner mergers s s')
    (hgroups : Engine.Separate now owner s (mergers.map (·.group))) :
    ∃ others, (s.activeAt now owner).length = others + (mergers.map (·.group.length)).sum ∧
      (s'.activeAt now owner).length = others + mergers.length := by
  have hsplit := List.length_eq_length_filter_add (l := s.activeAt now owner)
    fun m => decide (m.id ∈ mergers.flatMap (·.ids))
  refine ⟨((s.activeAt now owner).filter fun m => m.id ∉ mergers.flatMap (·.ids)).length, ?_, ?_⟩
  · simp only [decide_not]
    rw [hsplit, ← (perm_members hs hgroups).length_eq, List.length_flatMap, Nat.add_comm]
  · rw [h.activeAt_eq, List.length_append, List.length_map]

end Merged

/-! ## One pass -/

theorem Memory.Sound.readAt {m : Memory} (h : m.Sound) (now : Instant) : (m.readAt now).Sound :=
  { h with }

theorem Store.Tagged.writes {v : Vocabulary} {s s' : Store} (h : s.Tagged v)
    (hw : Writes v s s') : s'.Tagged v := by
  induction hw with
  | refl => exact h
  | tail _ hstep ih => exact ih.write hstep

namespace Engine

variable {e : Engine} {l : List String} {now : Instant} {owner : String} {s s' : Store}

/-- The request for a group found among active memories is acceptable as it is. -/
theorem prepare_found (hv : e.vocabulary = .ofList l) (hs : s.Sound) (ht : s.Tagged e.vocabulary)
    {memories : List Memory} (hactive : memories.Sublist (s.activeAt now owner))
    {group : List Memory} (hgroup : group ∈ e.config.consolidation.findGroups memories) :
    e.prepare (e.config.consolidation.mergedRequest owner group) =
      .ok (e.config.consolidation.mergedRequest owner group) := by
  obtain ⟨hgroups, -⟩ := separate_findGroups (c := e.config.consolidation) hs hactive
  have hkept : ∀ m ∈ group, ∃ k ∈ s.memories, k.owner = owner ∧ k.archived = false ∧
      k.readAt now = m := fun m hm => Store.mem_activeAt_iff.mp
    (hactive.subset ((hgroups.sublist group hgroup).subset hm))
  refine prepare_mergedRequest hv (hgroups.nonempty hgroup) (fun m hm => ?_) (fun m hm => ?_)
    fun m hm => ?_
  · obtain ⟨k, -, howner, -, rfl⟩ := hkept m hm
    exact howner
  · obtain ⟨k, hk, -, -, rfl⟩ := hkept m hm
    exact (hs.memories k hk).readAt now
  · obtain ⟨k, hk, -, -, rfl⟩ := hkept m hm
    exact ht.memories k hk

/-- A pass merges all that it finds, and takes from the active memories those it archives. -/
theorem mergeFound_spec (hv : e.vocabulary = .ofList l) (hs : s.Sound)
    (ht : s.Tagged e.vocabulary) {report : ConsolidationReport}
    (h : e.mergeFound now owner s = (report, s')) :
    report.skippedGroups = 0 ∧ report.groupsMerged = report.groupsFound ∧
      2 * report.groupsFound ≤ report.memoriesArchived ∧
      ∃ others, (s.stats owner).activeMemories = others + report.memoriesArchived ∧
        (s'.stats owner).activeMemories = others + report.groupsMerged := by
  unfold mergeFound at h
  have hactive := List.take_sublist e.config.consolidation.maxMemoriesPerPass
    (s.activeAt now owner)
  generalize (s.activeAt now owner).take e.config.consolidation.maxMemoriesPerPass = memories
    at h hactive
  obtain ⟨hgroups, hseparate⟩ := separate_findGroups (c := e.config.consolidation) hs hactive
  have hmergeable : ∀ group ∈ e.config.consolidation.findGroups memories,
      e.mergeable owner group = true := by
    intro group hgroup
    rw [mergeable, prepare_found hv hs ht hactive hgroup]
    rfl
  have hgoes : report.aborted = false := by
    rw [← congrArg (fun r => r.1.aborted) h]
    exact aborted_mergeAll_never _ _ _
  obtain ⟨mergers, hmergers, hmerged, rfl⟩ := mergeAll_spec hs hseparate h hgoes
  rw [List.filter_eq_self.mpr hmergeable] at hmergers
  have hskipped : ((e.config.consolidation.findGroups memories).countP fun group =>
      !e.mergeable owner group) = 0 :=
    List.countP_eq_zero.mpr fun group hgroup => by simp [hmergeable group hgroup]
  have hcount : (e.config.consolidation.findGroups memories).length = mergers.length := by
    rw [← hmergers, List.length_map]
  have hseveral : 2 * mergers.length ≤ (mergers.map (·.group.length)).sum := by
    have hall : ∀ n ∈ mergers.map (·.group.length), 2 ≤ n := by
      intro n hn
      obtain ⟨g, hg, rfl⟩ := List.mem_map.mp hn
      exact hgroups.several g.group (hmergers ▸ List.mem_map_of_mem hg)
    simpa [Nat.mul_comm] using List.card_nsmul_le_sum _ 2 hall
  obtain ⟨others, hbefore, hafter⟩ := hmerged.length_activeAt hs (hmergers ▸ hseparate)
  refine ⟨?_, ?_, ?_, others, ?_, ?_⟩
  · simp [reported, hskipped]
  · simp [reported, hcount]
  · simpa [reported, hcount] using hseveral
  · rw [Store.activeMemories_eq s now, hbefore]
    simp [reported]
  · rw [Store.activeMemories_eq s' now, hafter]
    simp [reported]

/-! ## Pass after pass -/

/-- The reports of consolidations for one owner, one after another, each at an instant of its
own. -/
def consolidations (e : Engine) (owner : String) :
    List Instant → Store → Except Error (List ConsolidationReport × Store)
  | [], s => .ok ([], s)
  | now :: later, s => do
    let (report, s) ← e.consolidate now owner s
    let (reports, s) ← consolidations e owner later s
    .ok (report :: reports, s)

theorem consolidations_works (howner : Text.blank owner = false)
    (hsize : min e.config.consolidation.pageSize e.config.consolidation.maxMemoriesPerPass < 2 ^ 63)
    (instants : List Instant) (s : Store) :
    ∃ r, e.consolidations owner instants s = .ok r := by
  induction instants generalizing s with
  | nil => exact ⟨_, rfl⟩
  | cons now later ih =>
    obtain ⟨⟨report, s₁⟩, hpass⟩ := consolidateBy_works e howner hsize now .never s
    obtain ⟨⟨reports, s₂⟩, hlater⟩ := ih s₁
    refine ⟨(report :: reports, s₂), ?_⟩
    have hfirst : e.consolidate now owner s = .ok (report, s₁) := by
      rw [consolidate, Invalid.raise_checkOwner howner]
      exact hpass
    exact bind_eq_ok.mpr ⟨_, hfirst, bind_eq_ok.mpr ⟨_, hlater, rfl⟩⟩

/-- Each pass that finds a group leaves fewer active memories, so that as many passes as there are
active memories come to one that finds none. -/
theorem exists_groupsFound_eq_zero (hv : e.vocabulary = .ofList l) (hs : s.Sound)
    (ht : s.Tagged e.vocabulary) (hpos : 0 < e.config.consolidation.pageSize)
    (hsize : e.config.consolidation.pageSize < 2 ^ 64) {instants : List Instant}
    (henough : max (s.stats owner).activeMemories 1 ≤ instants.length)
    {reports : List ConsolidationReport}
    (h : e.consolidations owner instants s = .ok (reports, s')) :
    ∃ report ∈ reports, report.groupsFound = 0 := by
  induction instants generalizing s reports with
  | nil =>
    rw [List.length_nil] at henough
    omega
  | cons now later ih =>
    obtain ⟨⟨report, s₁⟩, hpass, h⟩ := bind_eq_ok.mp h
    obtain ⟨⟨reports, s₂⟩, hlater, h⟩ := bind_eq_ok.mp h
    cases h
    by_cases hfound : report.groupsFound = 0
    · exact ⟨report, by simp, hfound⟩
    · obtain ⟨-, hmerged, hseveral, others, hbefore, hafter⟩ :=
        mergeFound_spec hv hs ht (consolidate_eq_mergeFound hs hpos hsize hpass)
      have hwrites : Writes e.vocabulary s s₁ := writes_consolidate hs trivial hpass
      have hfewer : max (s₁.stats owner).activeMemories 1 ≤ later.length := by
        rw [List.length_cons] at henough
        omega
      obtain ⟨report', hreport', hnone⟩ :=
        ih (hs.writes hwrites) (ht.writes hwrites) hfewer hlater
      exact ⟨report', List.mem_cons_of_mem _ hreport', hnone⟩

end Engine

namespace World

/-- Consolidation succeeds on what it finds and comes to an end. The request for each group found
among the active memories of an owner is acceptable as it stands, so that a pass that was not
stopped skips none. Such a pass takes from the active memories as many as it archives beyond those
it makes, at least one for each group; of as many passes as there are active memories one finds no
group, and no pass fails where one page can be read. -/
theorem consolidation_converges {c : Config} {e : Engine} {w : World}
    (he : Engine.ofConfig c = .ok e) (hw : w.Reached (· = e))
    (hsize : c.consolidation.pageSize < 2 ^ 64) (owner : String) :
    (∀ now memories, memories.Sublist (w.store.activeAt now owner) →
      ∀ group ∈ c.consolidation.findGroups memories,
        e.prepare (c.consolidation.mergedRequest owner group) =
          .ok (c.consolidation.mergedRequest owner group)) ∧
    (∀ now deadline report s',
      e.consolidateBy now owner deadline w.store = .ok (report, s') → report.aborted = false →
        report.skippedGroups = 0 ∧ report.groupsMerged = report.groupsFound ∧
        report.groupsFound ≤ report.memoriesArchived - report.groupsMerged ∧
        (s'.stats owner).activeMemories + (report.memoriesArchived - report.groupsMerged) =
          (w.store.stats owner).activeMemories) ∧
    (∀ instants reports s',
      instants.length = max (w.store.stats owner).activeMemories 1 →
      e.consolidations owner instants w.store = .ok (reports, s') →
        ∃ report ∈ reports, report.groupsFound = 0) ∧
    (Text.blank owner = false →
      min c.consolidation.pageSize c.consolidation.maxMemoriesPerPass < 2 ^ 63 →
        ∀ instants, ∃ r, e.consolidations owner instants w.store = .ok r) := by
  have hs := hw.sound
  obtain ⟨clock, hr⟩ := hw
  have ht : w.store.Tagged e.vocabulary := tagged_of_runs Store.tagged_empty hr
  obtain ⟨hchecked, rfl⟩ := Engine.ofConfig_eq_ok.mp he
  have hpos := hchecked.consolidationSizes.1
  refine ⟨fun now memories hactive group hgroup => Engine.prepare_found rfl hs ht hactive hgroup,
    fun now deadline report s' hpass hgoes => ?_, fun instants reports s' hlength hpasses => ?_,
    fun howner hsmall instants => Engine.consolidations_works howner hsmall instants w.store⟩
  · obtain ⟨hskipped, hmerged, hseveral, others, hbefore, hafter⟩ := Engine.mergeFound_spec rfl hs
      ht (Engine.consolidateBy_eq_mergeFound hs hpos hsize hpass hgoes)
    refine ⟨hskipped, hmerged, ?_, ?_⟩ <;> omega
  · exact Engine.exists_groupsFound_eq_zero rfl hs ht hpos hsize (Nat.le_of_eq hlength.symm) hpasses

/-- Of two memories that are alike one pass makes one, and a second pass finds nothing. -/
theorem consolidation_converges_teas : ∃ s' reports s'',
    Engine.oneTag.consolidateBy ⟨0⟩ "ann" .never withTwoTeas.store = .ok
      ({ groupsFound := 1, groupsMerged := 1, memoriesArchived := 2, mergedIds := [3] }, s') ∧
    (s'.stats "ann").activeMemories = 1 ∧
    Engine.oneTag.consolidations "ann" [⟨0⟩, ⟨0⟩] withTwoTeas.store = .ok (reports, s'') ∧
    ∃ report ∈ reports, report.groupsFound = 0 := by
  obtain ⟨-, hpass, hpasses, hworks⟩ :=
    consolidation_converges Engine.ofConfig_oneTag reached_withTwoTeas (by decide) "ann"
  obtain ⟨s', hrun⟩ := consolidateBy_withTwoTeas
  obtain ⟨-, -, -, hactive⟩ := hpass _ _ _ _ hrun rfl
  have htwo : (withTwoTeas.store.stats "ann").activeMemories = 2 := rfl
  obtain ⟨⟨reports, s''⟩, hreports⟩ := hworks (by decide) (by decide) [⟨0⟩, ⟨0⟩]
  refine ⟨s', reports, s'', hrun, ?_, hreports, hpasses _ _ _ ?_ hreports⟩
  · rw [htwo] at hactive
    exact Nat.succ.inj hactive
  · rw [htwo]
    rfl

end World

end LongTermMemory
