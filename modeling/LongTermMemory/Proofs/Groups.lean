import LongTermMemory.Proofs.Components
import LongTermMemory.Proofs.Run

/-!
The groups of a list of memories in any order: they are those of the list by ascending id, and so
its connected components.
-/

namespace LongTermMemory

namespace ConsolidationConfig

variable {c : ConsolidationConfig} {memories memories' : List Memory}

/-! ## The order of the list -/

/-- The classes of the ids do not depend on the order in which the memories were joined. -/
theorem groups_perm (h : (memories.map (·.id)).Nodup) (hperm : memories'.Perm memories) :
    (c.partition memories').groups = (c.partition memories).groups := by
  obtain ⟨hids, hroot⟩ := partition_spec (c := c) h
  obtain ⟨hids', hroot'⟩ := partition_spec (c := c) ((hperm.map (·.id)).nodup_iff.mpr h)
  have hsorted : Ascending.ofList (memories'.map (·.id)) =
      Ascending.ofList (memories.map (·.id)) :=
    Ascending.ofList_congr fun id => (hperm.map (·.id)).mem_iff
  rw [Partition.groups_eq_fibers, Partition.groups_eq_fibers, Ascending.ofList_congr hids,
    Ascending.ofList_congr hids', hsorted]
  refine fibers_congr fun x hx y hy => ?_
  rw [Ascending.mem_ofList] at hx hy
  obtain ⟨a, ha, rfl⟩ := List.mem_map.mp hx
  obtain ⟨b, hb, rfl⟩ := List.mem_map.mp hy
  rw [hroot a ha b hb, hroot' a (hperm.mem_iff.mpr ha) b (hperm.mem_iff.mpr hb)]
  exact ⟨.mono hperm.subset, .mono hperm.symm.subset⟩

theorem findGroups_perm (h : (memories.map (·.id)).Nodup) (hperm : memories'.Perm memories) :
    c.findGroups memories' = c.findGroups memories := by
  have hfind : ∀ id : MemoryId, memories'.reverse.find? (fun m => m.id = id) =
      memories.reverse.find? fun m => m.id = id := fun id => Option.ext fun m => by
    rw [find?_reverse_iff h, find?_reverse_iff ((hperm.map (·.id)).nodup_iff.mpr h),
      hperm.mem_iff]
  unfold findGroups
  simp only [groups_perm h hperm, hfind]

/-- The same memories by ascending id. -/
theorem exists_byId (h : (memories.map (·.id)).Nodup) :
    ∃ sorted, ById sorted ∧ sorted.Perm memories := by
  have htrans (a b c : Memory) : decide (a.id ≤ b.id) = true → decide (b.id ≤ c.id) = true →
      decide (a.id ≤ c.id) = true := by
    simpa using Int.le_trans
  have htotal (a b : Memory) : (decide (a.id ≤ b.id) || decide (b.id ≤ a.id)) = true := by
    simpa using Int.le_total a.id b.id
  have hperm := List.mergeSort_perm memories fun a b => decide (a.id ≤ b.id)
  have hsorted := List.pairwise_mergeSort htrans htotal memories
  refine ⟨_, ?_, hperm⟩
  have hnodup := List.pairwise_map.mp ((hperm.map (·.id)).nodup_iff.mpr h)
  refine ById.iff_pairwise.mpr ((hsorted.and hnodup).imp fun {a b} hab => ?_)
  exact Int.lt_iff_le_and_ne.mpr ⟨of_decide_eq_true hab.1, hab.2⟩

/-! ## Components -/

/-- The groups of memories with different ids are the connected components of more than one memory:
two memories are in one group just when a chain of similar ones links them. The groups share no
member, each stands by ascending id and they stand by their smallest ids, whatever the order of the
list. -/
theorem groups_are_components (h : (memories.map (·.id)).Nodup) :
    (∀ group ∈ c.findGroups memories, 1 < group.length ∧ ById group ∧ group ⊆ memories) ∧
    (∀ group ∈ c.findGroups memories, ∀ a ∈ group, ∀ b, b ∈ group ↔ Linked c memories a b) ∧
    (∀ a ∈ memories, ∀ b ∈ memories, a ≠ b →
      ((∃ group ∈ c.findGroups memories, a ∈ group ∧ b ∈ group) ↔ Linked c memories a b)) ∧
    (c.findGroups memories).Pairwise (fun g g' => (∀ m ∈ g, m ∉ g') ∧
      ∃ a ∈ g, (∀ b ∈ g, a.id ≤ b.id) ∧ ∀ b ∈ g', a.id < b.id) ∧
    ∀ memories' : List Memory, memories'.Perm memories →
      c.findGroups memories' = c.findGroups memories := by
  obtain ⟨sorted, hbyId, hperm⟩ := exists_byId h
  have hgroups := areComponents_findGroups (c := c) hbyId
  rw [findGroups_perm h hperm] at hgroups
  have hlinked (a b : Memory) : Linked c sorted a b ↔ Linked c memories a b :=
    ⟨.mono hperm.subset, .mono hperm.symm.subset⟩
  have hascending : ∀ group ∈ c.findGroups memories, ById group := fun group hgroup =>
    hbyId.sublist ((hgroups.sublist group hgroup).map _)
  have hmember : ∀ group ∈ c.findGroups memories, ∀ a ∈ group, ∀ b,
      b ∈ group ↔ Linked c memories a b := fun group hgroup a ha b =>
    (hgroups.linked group hgroup a ha b).trans (hlinked a b)
  refine ⟨fun group hgroup => ⟨hgroups.several group hgroup, hascending group hgroup, ?_⟩,
    hmember, fun a ha b hb hne => ⟨?_, fun hab => ?_⟩, ?_, fun _ hperm' => findGroups_perm h hperm'⟩
  · exact List.Subset.trans (hgroups.sublist group hgroup).subset hperm.subset
  · rintro ⟨group, hgroup, hag, hbg⟩
    exact (hmember group hgroup a hag b).mp hbg
  · obtain ⟨group, hgroup, hag⟩ :=
      hgroups.complete a (hperm.mem_iff.mpr ha) b ((hlinked a b).mpr hab) hne
    exact ⟨group, hgroup, hag, (hmember group hgroup a hag b).mpr hab⟩
  · refine (hgroups.disjoint.and hgroups.ordered).imp_of_mem fun {g g'} hg hg' hboth => ?_
    obtain ⟨hdisjoint, a, ha, hless⟩ := hboth
    -- The first of a group by ascending id is its smallest.
    cases g with
    | nil => cases ha
    | cons first rest =>
      have hfirst := (List.pairwise_cons.mp (ById.iff_pairwise.mp (hascending _ hg))).1
      have hsmallest : ∀ b ∈ first :: rest, first.id ≤ b.id := by
        intro b hb
        rcases List.mem_cons.mp hb with rfl | hb
        · exact Int.le_refl _
        · exact Int.le_of_lt (hfirst b hb)
      exact ⟨hdisjoint, first, by simp, hsmallest,
        fun b hb => Int.lt_of_le_of_lt (hsmallest a ha) (hless b hb)⟩

/-- Three memories of which each has a tag in common with the next. -/
def chain (id : MemoryId) : Memory :=
  Store.newMemory ⟨0⟩ id [toString id, toString (id + 1)]
    { World.tea 5 with content := toString id }

/-- Memories with any tag in common are similar. -/
def anyShared : ConsolidationConfig := { tagThreshold := Single.zero }

/-- The first and the last of a chain have nothing in common, and yet are in one group. -/
theorem groups_are_components_chain :
    (chain 1).similar anyShared (chain 3) = false ∧
      Linked anyShared [chain 3, chain 1, chain 2] (chain 1) (chain 3) ∧
      anyShared.findGroups [chain 3, chain 1, chain 2] = [[chain 1, chain 2, chain 3]] := by
  have hfound : anyShared.findGroups [chain 3, chain 1, chain 2] =
      [[chain 1, chain 2, chain 3]] := rfl
  have hids : ([chain 3, chain 1, chain 2].map (·.id)).Nodup := by decide
  obtain ⟨-, -, hlinked, -⟩ := groups_are_components (c := anyShared) hids
  refine ⟨by decide, ?_, hfound⟩
  have hne : chain 1 ≠ chain 3 := fun heq => absurd (congrArg Memory.id heq) (by decide)
  refine (hlinked _ (by simp) _ (by simp) hne).mp
    ⟨[chain 1, chain 2, chain 3], ?_, by simp, by simp⟩
  rw [hfound]
  exact List.mem_singleton_self _

end ConsolidationConfig

end LongTermMemory
