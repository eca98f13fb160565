import LongTermMemory.Proofs.Store.Referential

/-!
The access log and the figures that memories keep of it: how often and when last a memory was
accessed. Only an access writes to either, and it writes to both.
-/

namespace LongTermMemory

/-- The figures of a memory are those of some accesses, the latest of which stands last. -/
structure Memory.Tells (log : List Access) (m : Memory) : Prop where
  count : m.accessCount = log.length
  last : m.lastAccessed = log.getLast?.map (·.timestamp)

namespace Memory.Tells

variable {log : List Access} {m m' : Memory}

theorem congr (h : m.Tells log) (hcount : m'.accessCount = m.accessCount)
    (hlast : m'.lastAccessed = m.lastAccessed) : m'.Tells log :=
  ⟨hcount.trans h.count, hlast.trans h.last⟩

theorem accessed (h : m.Tells log) {a : Access} :
    (Store.accessed a.timestamp m).Tells (log ++ [a]) := by
  refine ⟨?_, by simp [Store.accessed]⟩
  simp only [Store.accessed, h.count, List.length_append, List.length_singleton]
  rfl

end Memory.Tells

namespace Store

/-- The accesses of a memory as they stand in the log. -/
def accessesOf (s : Store) (id : MemoryId) : List Access :=
  s.accesses.filter fun a => a.memoryId = id

/-- The log stands in the order in which it was written, and each memory tells its part of it. -/
structure Logged (s : Store) : Prop where
  ascending : (s.accesses.map (·.id)).Pairwise (· < ·)
  bounded : ∀ a ∈ s.accesses, a.id ≤ s.lastAccessId
  told : ∀ m ∈ s.memories, m.Tells (s.accessesOf m.id)

variable {s s' : Store}

theorem logged_empty : empty.Logged := by
  constructor <;> simp [empty, memories]

/-! ## Accesses of one memory -/

theorem accessesOf_congr (h : s'.accesses = s.accesses) (id : MemoryId) :
    s'.accessesOf id = s.accessesOf id := by
  rw [accessesOf, accessesOf, h]

theorem accessesOf_of_gone (h : s.Referential) {id : MemoryId} (hid : s.exists? id = false) :
    s.accessesOf id = [] := by
  refine List.filter_eq_nil_iff.mpr fun a ha heq => ?_
  have hex := h.accesses a ha
  rw [of_decide_eq_true heq, hid] at hex
  cases hex

theorem accessesOf_withAccess (s : Store) (now : Instant) (id k : MemoryId) (n : AccessNote) :
    (s.withAccess now id n).accessesOf k =
      if k = id then s.accessesOf k ++ [newAccess now (s.lastAccessId + 1) id n]
      else s.accessesOf k := by
  simp only [accessesOf, withAccess, List.filter_append, newAccess, eq_comm (a := k)]
  split
  · next heq => simp [heq]
  · next hne => simp [hne]

theorem accessesOf_remove {id k : MemoryId} (h : k ≠ id) :
    (s.remove id).accessesOf k = s.accessesOf k := by
  simp only [accessesOf, remove, List.filter_filter]
  refine List.filter_congr fun a _ => ?_
  by_cases heq : a.memoryId = k
  · simp [heq, h]
  · simp [heq]

/-! ## Writes -/

namespace Logged

variable (h : s.Logged)
include h

/-- A change of one memory that leaves its figures. -/
theorem edit {id : MemoryId} {f : Memory → Memory}
    (hm : s'.memories = s.memories.map (·.editAt id f)) (hid : ∀ m, (f m).id = m.id)
    (hcount : ∀ m, (f m).accessCount = m.accessCount)
    (hlast : ∀ m, (f m).lastAccessed = m.lastAccessed)
    (ha : s'.accesses = s.accesses) (hl : s'.lastAccessId = s.lastAccessId) : s'.Logged := by
  refine ⟨ha ▸ h.ascending, fun a hmem => hl ▸ h.bounded a (ha ▸ hmem), fun m' hm' => ?_⟩
  obtain ⟨m, hmem, rfl⟩ := List.mem_map.mp (hm ▸ hm')
  rw [Memory.editAt_id hid, accessesOf_congr ha]
  unfold Memory.editAt
  split
  · exact (h.told m hmem).congr (hcount m) (hlast m)
  · exact h.told m hmem

/-- A new memory has no accesses, since the log tells only of memories kept. -/
theorem withNewcomer (hs : s.Sound) (hr : s.Referential) (now : Instant) (r : NewMemory) :
    (s.withNewcomer now r).Logged := by
  obtain ⟨kept, last, heq, -⟩ := withNewcomer_eq s now r
  have ha : (s.withNewcomer now r).accesses = s.accesses := by rw [heq]
  have hl : (s.withNewcomer now r).lastAccessId = s.lastAccessId := by rw [heq]
  refine ⟨ha ▸ h.ascending, fun a hmem => hl ▸ h.bounded a (ha ▸ hmem), fun m hm => ?_⟩
  rw [memories_withNewcomer] at hm
  rw [accessesOf_congr ha]
  rcases List.mem_append.mp hm with hm | hm
  · exact h.told m hm
  · have hnone : s.accessesOf (s.newcomer now r).id = [] := by
      refine accessesOf_of_gone hr (Bool.eq_false_iff.mpr fun hex => ?_)
      exact absurd (Int.lt_succ s.lastMemoryId) (Int.not_lt.mpr (hs.exists?_le hex))
    rw [List.mem_singleton.mp hm, hnone]
    exact ⟨rfl, rfl⟩

theorem withAccess (now : Instant) (id : MemoryId) (n : AccessNote) :
    (s.withAccess now id n).Logged := by
  have haccesses : (s.withAccess now id n).accesses =
      s.accesses ++ [newAccess now (s.lastAccessId + 1) id n] := rfl
  refine ⟨?_, ?_, ?_⟩
  · rw [haccesses, List.map_append, List.pairwise_append]
    refine ⟨h.ascending, List.pairwise_singleton _ _, fun i hi j hj => ?_⟩
    obtain ⟨a, ha, rfl⟩ := List.mem_map.mp hi
    rw [List.mem_singleton.mp hj]
    exact Int.lt_add_one_of_le (h.bounded a ha)
  · intro a ha
    rcases List.mem_append.mp (haccesses ▸ ha) with ha | ha
    · exact Int.le_trans (h.bounded a ha) (Int.le_of_lt (Int.lt_succ _))
    · rw [List.mem_singleton.mp ha]
      exact Int.le_refl _
  · intro m' hm'
    obtain ⟨m, hm, rfl⟩ := List.mem_map.mp (memories_withAccess s now id n ▸ hm')
    rw [Memory.editAt_id (f := accessed now) (fun _ => rfl), accessesOf_withAccess, Memory.editAt]
    split
    · exact (h.told m hm).accessed
    · exact h.told m hm

theorem remove (id : MemoryId) : (s.remove id).Logged := by
  refine ⟨h.ascending.sublist (List.filter_sublist.map _),
    fun a ha => h.bounded a (List.mem_filter.mp ha).1, fun m' hm' => ?_⟩
  rw [memories_remove] at hm'
  obtain ⟨m, hm, rfl⟩ := List.mem_map.mp hm'
  obtain ⟨hm, hne⟩ := List.mem_filter.mp hm
  rw [Memory.orphanedBy_id, accessesOf_remove (of_decide_eq_true hne)]
  unfold Memory.orphanedBy
  split
  · exact (h.told m hm).congr rfl rfl
  · exact h.told m hm

theorem write {v : Vocabulary} (hs : s.Sound) (hr : s.Referential) (hw : Write v s s') :
    s'.Logged := by
  cases hw with
  | create => exact h.withNewcomer hs hr _ _
  | update =>
    exact h.edit (memories_withChanges ..) (fun _ => rfl) (fun _ => rfl) (fun _ => rfl) rfl rfl
  | remove => exact h.remove _
  | access => exact h.withAccess _ _ _
  | context => exact ⟨h.ascending, h.bounded, h.told⟩
  | relate => exact ⟨h.ascending, h.bounded, h.told⟩
  | archive =>
    exact h.edit (memories_modifyMemory ..) (fun _ => rfl) (fun _ => rfl) (fun _ => rfl) rfl rfl
  | age =>
    exact h.edit (memories_modifyMemory ..) (fun _ => rfl) (fun _ => rfl) (fun _ => rfl) rfl rfl

end Logged

end Store

end LongTermMemory
