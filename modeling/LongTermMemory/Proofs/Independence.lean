import LongTermMemory.Proofs.Consolidation
import LongTermMemory.Proofs.Store.Commuting

/-!
Replacements of one owner's memories leave alone what others have: they commute with changes and
removals of others' memories.
-/

namespace LongTermMemory

theorem Memory.keepsPlace_superseded (now : Instant) (ids : List MemoryId) :
    KeepsPlace fun m => if m.id ∈ ids then m.superseded now else m := by
  have hsuperseded : KeepsPlace (·.superseded now) := ⟨fun _ => rfl, fun _ _ => rfl⟩
  simpa only [decide_eq_true_eq] using
    hsuperseded.ite (p := fun m => decide (m.id ∈ ids)) fun _ _ => rfl

/-- The replacement takes memories of an owner and gives one back. -/
structure Replacement.Of (owner : String) (s : Store) (r : Replacement) : Prop where
  given : r.request.owner = owner
  orphan : r.request.parent = none
  bounded : ∀ id ∈ r.ids, id ≤ s.lastMemoryId
  members : ∀ m ∈ s.memories, m.id ∈ r.ids → m.owner = owner

theorem mem_supersessions {now : Instant} {merged : MemoryId} {last : Int}
    {members : List MemoryId} {q : Relationship}
    (hq : q ∈ supersessions now merged last members) : q.source = merged ∧ q.target ∈ members := by
  have hends : q.ends ∈ (supersessions now merged last members).map (·.ends) :=
    List.mem_map_of_mem hq
  rw [ends_supersessions] at hends
  obtain ⟨member, hmember, heq⟩ := List.mem_map.mp hends
  simp only [supersedes, Relationship.ends, Prod.mk.injEq] at heq
  exact ⟨heq.1.symm, heq.2.1 ▸ hmember⟩

namespace Store

theorem superseding_eq_mapMemories (s : Store) (now : Instant) (ids : List MemoryId) :
    s.superseding now ids = s.mapMemories fun m => if m.id ∈ ids then m.superseded now else m := by
  rw [superseding, modifyWhere_eq_mapMemories]
  simp only [decide_eq_true_eq]

theorem memories_merging_eq (s : Store) (now : Instant) (r : NewMemory) (ids : List MemoryId) :
    (s.merging now r ids).memories =
      (s.memories.map fun m => if m.id ∈ ids then m.superseded now else m) ++
        [s.newcomer now r] := by
  rw [memories_merging, superseding_eq_mapMemories, memories_mapMemories]

end Store

namespace Replacement.Of

variable {s : Store} {now : Instant} {owner other : String} {f : Memory → Memory}
  {gone : List MemoryId} {r : Replacement}

/-- After a replacement another one still is one. -/
theorem merging {r' : Replacement} (h' : r'.Of owner s) (now : Instant) (r : NewMemory)
    (ids : List MemoryId) : r'.Of owner (s.merging now r ids) := by
  refine { h' with bounded := fun id hid => ?_, members := fun m hm hid => ?_ }
  · exact Int.le_trans (h'.bounded id hid) (Int.le_of_lt (Int.lt_succ _))
  · rw [Store.memories_merging_eq] at hm
    rcases List.mem_append.mp hm with hm | hm
    · obtain ⟨k, hk, rfl⟩ := List.mem_map.mp hm
      split at hid <;> split <;> exact h'.members k hk hid
    · rw [List.mem_singleton.mp hm] at hid
      exact absurd (h'.bounded _ hid) (Int.not_le.mpr (Int.lt_succ _))

/-- What an owner has is the same after a replacement of another's memories. -/
theorem memoriesOf_merging (h : r.Of owner s) (hne : owner ≠ other) (now : Instant) :
    (s.merging now r.request r.ids).memoriesOf other = s.memoriesOf other := by
  have hnew : (s.newcomer now r.request).owner ≠ other := by
    change r.request.owner ≠ other
    rwa [h.given]
  have howner : ∀ m : Memory, (if m.id ∈ r.ids then m.superseded now else m).owner = m.owner := by
    intro m
    split <;> rfl
  rw [Store.memoriesOf_eq, Store.memoriesOf_eq, Store.memories_merging_eq, List.filter_append,
    List.filter_map]
  simp only [Function.comp_def, howner]
  rw [List.filter_singleton, decide_eq_false hnew, cond_false, List.append_nil]
  refine (List.map_congr_left fun m hm => if_neg fun hin => ?_).trans (List.map_id' _)
  obtain ⟨hm, hother⟩ := List.mem_filter.mp hm
  exact hne ((h.members m hm hin).symm.trans (of_decide_eq_true hother))

/-- A replacement commutes with a change that leaves the memories of its owner alone. -/
theorem mapMemories_merging (h : r.Of owner s) (hf : Memory.KeepsPlace f)
    (hleaves : ∀ m, m.owner = owner → f m = m) :
    (s.merging now r.request r.ids).mapMemories f =
      (s.mapMemories f).merging now r.request r.ids := by
  have hmembers : (s.superseding now r.ids).mapMemories f =
      (s.mapMemories f).superseding now r.ids := by
    rw [Store.superseding_eq_mapMemories, Store.superseding_eq_mapMemories,
      Store.mapMemories_mapMemories, Store.mapMemories_mapMemories]
    refine Store.mapMemories_congr fun m hm => ?_
    rw [hf.id]
    split
    · next hin =>
      have howner := h.members m hm hin
      rw [hleaves m howner]
      exact hleaves _ howner
    · rfl
  have hlast : ({ Entry.ofMemory (s.newcomer now r.request) with
      memory := f (s.newcomer now r.request) } : Entry) =
        Entry.ofMemory (s.newcomer now r.request) := by
    rw [hleaves _ h.given]
    rfl
  have hentries : ((s.merging now r.request r.ids).mapMemories f).entries =
      ((s.mapMemories f).merging now r.request r.ids).entries := by
    change ((s.superseding now r.ids).entries ++ [Entry.ofMemory _]).map _ =
      ((s.mapMemories f).superseding now r.ids).entries ++ [Entry.ofMemory _]
    rw [← hmembers, List.map_append, List.map_singleton]
    exact congrArg (fun e => _ ++ [e]) hlast
  exact congrArg (fun entries => { s.merging now r.request r.ids with entries }) hentries

/-- A replacement commutes with a removal of others' memories. -/
theorem removeAll_merging (h : r.Of owner s) (hgone : ∀ id ∈ gone, id ≤ s.lastMemoryId)
    (hleaves : ∀ id ∈ gone, id ∉ r.ids) :
    (s.merging now r.request r.ids).removeAll gone =
      (s.removeAll gone).merging now r.request r.ids := by
  have hnew : s.lastMemoryId + 1 ∉ gone := fun hin =>
    absurd (hgone _ hin) (Int.not_le.mpr (Int.lt_succ _))
  have hmembers : (s.superseding now r.ids).removeAll gone =
      (s.removeAll gone).superseding now r.ids := by
    rw [Store.superseding_eq_mapMemories, Store.superseding_eq_mapMemories,
      Store.removeAll_mapMemories (Memory.keepsPlace_superseded now r.ids)]
  have hentries : ((s.merging now r.request r.ids).removeAll gone).entries =
      ((s.removeAll gone).merging now r.request r.ids).entries := by
    change (((s.superseding now r.ids).entries ++ [Entry.ofMemory _]).filter _).map _ =
      ((s.removeAll gone).superseding now r.ids).entries ++ [Entry.ofMemory _]
    rw [← hmembers, List.filter_append, List.map_append]
    refine congrArg _ ?_
    have hkept : [Entry.ofMemory (s.newcomer now r.request)].filter (·.memory.id ∉ gone) =
        [Entry.ofMemory (s.newcomer now r.request)] := by
      refine List.filter_eq_self.mpr fun e he => ?_
      rw [List.mem_singleton.mp he]
      exact decide_eq_true hnew
    rw [hkept, List.map_singleton]
    refine congrArg (fun e => [e]) (if_neg ?_)
    change ¬ r.request.parent.any _ = true
    simp [h.orphan]
  have hedges : ((s.merging now r.request r.ids).removeAll gone).relationships =
      ((s.removeAll gone).merging now r.request r.ids).relationships := by
    change (s.relationships ++ supersessions now (s.lastMemoryId + 1) s.lastRelationshipId
      r.ids).filter _ = s.relationships.filter _ ++ _
    rw [List.filter_append]
    refine congrArg _ (List.filter_eq_self.mpr fun q hq => ?_)
    obtain ⟨hsource, htarget⟩ := mem_supersessions hq
    have htarget' : q.target ∉ gone := fun hin => hleaves _ hin htarget
    simp [hsource, hnew, htarget']
  exact congrArg₂ (fun entries relationships =>
    { (s.removeAll gone).merging now r.request r.ids with entries, relationships }) hentries hedges

theorem mapMemories (h : r.Of owner s) (hid : ∀ m, (f m).id = m.id)
    (howner : ∀ m, (f m).owner = m.owner) : r.Of owner (s.mapMemories f) := by
  refine { h with members := fun m hm hin => ?_ }
  rw [Store.memories_mapMemories] at hm
  obtain ⟨k, hk, rfl⟩ := List.mem_map.mp hm
  rw [howner]
  exact h.members k hk (hid k ▸ hin)

end Replacement.Of

/-! ## Replacements one after another -/

namespace Store

variable {s : Store} {owner other : String} {f : Memory → Memory} {gone : List MemoryId}
  {rs : List Replacement}

theorem lastMemoryId_replacing (s : Store) (now : Instant) (rs : List Replacement) :
    (s.replacing now rs).lastMemoryId = s.lastMemoryId + rs.length := by
  induction rs generalizing s with
  | nil => exact (Int.add_zero _).symm
  | cons r rest ih =>
    have hrest : ((s.merging now r.request r.ids).replacing now rest).lastMemoryId =
        s.lastMemoryId + 1 + rest.length := ih (s.merging now r.request r.ids)
    change ((s.merging now r.request r.ids).replacing now rest).lastMemoryId = _
    rw [hrest, List.length_cons, Int.natCast_succ, Int.add_assoc, Int.add_comm 1]

theorem memoriesOf_replacing (hrs : ∀ r ∈ rs, r.Of owner s) (hne : owner ≠ other)
    (now : Instant) : (s.replacing now rs).memoriesOf other = s.memoriesOf other := by
  induction rs generalizing s with
  | nil => rfl
  | cons r rest ih =>
    have hrest : ∀ r' ∈ rest, r'.Of owner (s.merging now r.request r.ids) := fun r' hr' =>
      (hrs r' (by simp [hr'])).merging now r.request r.ids
    exact (ih hrest).trans ((hrs r (by simp)).memoriesOf_merging hne now)

theorem mapMemories_replacing (hrs : ∀ r ∈ rs, r.Of owner s) (hf : Memory.KeepsPlace f)
    (hleaves : ∀ m, m.owner = owner → f m = m) (now : Instant) :
    (s.replacing now rs).mapMemories f = (s.mapMemories f).replacing now rs := by
  induction rs generalizing s with
  | nil => rfl
  | cons r rest ih =>
    have hrest : ∀ r' ∈ rest, r'.Of owner (s.merging now r.request r.ids) := fun r' hr' =>
      (hrs r' (by simp [hr'])).merging now r.request r.ids
    refine (ih hrest).trans ?_
    rw [(hrs r (by simp)).mapMemories_merging hf hleaves]
    rfl

theorem removeAll_replacing (hrs : ∀ r ∈ rs, r.Of owner s)
    (hgone : ∀ id ∈ gone, id ≤ s.lastMemoryId) (hleaves : ∀ r ∈ rs, ∀ id ∈ gone, id ∉ r.ids)
    (now : Instant) :
    (s.replacing now rs).removeAll gone = (s.removeAll gone).replacing now rs := by
  induction rs generalizing s with
  | nil => rfl
  | cons r rest ih =>
    have hrest : ∀ r' ∈ rest, r'.Of owner (s.merging now r.request r.ids) := fun r' hr' =>
      (hrs r' (by simp [hr'])).merging now r.request r.ids
    have hlater : ∀ id ∈ gone, id ≤ (s.merging now r.request r.ids).lastMemoryId := fun id hid =>
      Int.le_trans (hgone id hid) (Int.le_of_lt (Int.lt_succ _))
    refine (ih hrest hlater fun r' hr' => hleaves r' (by simp [hr'])).trans ?_
    rw [(hrs r (by simp)).removeAll_merging hgone (hleaves r (by simp))]
    rfl

end Store

end LongTermMemory
