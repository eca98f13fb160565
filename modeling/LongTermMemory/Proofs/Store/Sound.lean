import LongTermMemory.Proofs.Write

/-!
The invariant of stores: memories stand by ascending id, none beyond the last id given out, their
parents and the ends of all edges exist, and each field of a memory that a request is checked for
is as the check wants it. Every write keeps it.
-/

namespace LongTermMemory

/-- What holds of every memory kept, whatever the vocabulary. -/
structure Memory.Sound (m : Memory) : Prop where
  owner : Text.Neat m.owner
  content : Text.blank m.content = false
  category : Text.Neat m.category
  importance : 1 ≤ m.importance ∧ m.importance ≤ 10
  dynamicImportance : m.dynamicImportance = Single.ofInt m.importance
  confidence : m.confidence.inUnit = true
  related : m.related.Pairwise (· < ·)
  version : 1 ≤ m.version

/-- What holds of every store that engines have written. -/
structure Store.Sound (s : Store) : Prop where
  memories : ∀ m ∈ s.memories, m.Sound
  ascending : (s.memories.map (·.id)).Pairwise (· < ·)
  bounded : ∀ m ∈ s.memories, m.id ≤ s.lastMemoryId
  parents : ∀ m ∈ s.memories, ∀ p, m.parent = some p → s.exists? p = true
  ends : ∀ q ∈ s.relationships, s.exists? q.source = true ∧ s.exists? q.target = true
  strengths : ∀ q ∈ s.relationships, q.strength.inUnit = true
  confidences : ∀ c ∈ s.contexts, c.confidence.inUnit = true

namespace Memory.Sound

variable {m : Memory} (h : m.Sound)
include h

theorem edited {v : Vocabulary} {now : Instant} {c : Changes} {tags : Option (List String)}
    (hc : c.Normal v) : (Store.edited now c tags m).Sound := by
  have hv := h.version
  refine
    { owner := h.owner
      content := ?_
      category := ?_
      importance := ?_
      dynamicImportance := ?_
      confidence := ?_
      related := ?_
      version := by simp only [Store.edited, Store.changed]; omega }
  · cases hx : c.content with
    | none => simpa [Store.edited, Store.changed, hx] using h.content
    | some x => simpa [Store.edited, Store.changed, hx] using hc.content x hx
  · cases hx : c.category with
    | none => simpa [Store.edited, Store.changed, hx] using h.category
    | some x => simpa [Store.edited, Store.changed, hx] using hc.category x hx
  · cases hi : c.importance with
    | none => simpa [Store.edited, Store.changed, hi] using h.importance
    | some i => simpa [Store.edited, Store.changed, hi] using hc.importance i hi
  · cases hi : c.importance with
    | none => simpa [Store.edited, Store.changed, hi] using h.dynamicImportance
    | some i => simp [Store.edited, Store.changed, hi]
  · cases hx : c.confidence with
    | none => simpa [Store.edited, Store.changed, hx] using h.confidence
    | some x =>
      simpa [Store.edited, Store.changed, hx] using Single.inUnit_stored (hc.confidence x hx)
  · cases hl : c.related with
    | none => simpa [Store.edited, Store.changed, hl] using h.related
    | some l => simpa [Store.edited, Store.changed, hl] using Ascending.pairwise_ofList l

theorem accessed (now : Instant) : (Store.accessed now m).Sound :=
  { h with dynamicImportance := rfl }

theorem archived (now : Instant) (reason : String) : (Store.archivedMemory now reason m).Sound := by
  have hv := h.version
  exact { h with version := by simp only [Store.archivedMemory]; omega }

theorem aged {t : Instant} {importance : Int} (hi : Store.importanceInRange importance = true) :
    (Store.agedMemory t importance m).Sound := by
  have hv := h.version
  exact
    { h with
      importance := by simpa [Store.importanceInRange, Store.agedMemory] using hi
      dynamicImportance := rfl
      version := by simp only [Store.agedMemory]; omega }

theorem orphanedBy (id : MemoryId) : (m.orphanedBy id).Sound := by
  unfold Memory.orphanedBy
  split
  · exact { h with }
  · exact h

end Memory.Sound

theorem NewMemory.Normal.sound {v : Vocabulary} {r : NewMemory} (hr : r.Normal v) (s : Store)
    (now : Instant) : (s.newcomer now r).Sound := by
  obtain ⟨c, hc, hneat⟩ := hr.category
  exact
    { owner := hr.owner
      content := hr.content
      category := by simpa [Store.newcomer, Store.newMemory, hc] using hneat
      importance := hr.importance
      dynamicImportance := rfl
      confidence := Single.inUnit_stored hr.confidence
      related := Ascending.pairwise_ofList r.related
      version := Int.le_refl 1 }

namespace Store

theorem exists?_iff_mem_ids {s : Store} {id : MemoryId} :
    s.exists? id = true ↔ id ∈ s.memories.map (·.id) := by
  rw [exists?_iff, List.mem_map]

theorem exists?_congr {s s' : Store} (h : s'.memories.map (·.id) = s.memories.map (·.id))
    (id : MemoryId) : s'.exists? id = s.exists? id := by
  rw [Bool.eq_iff_iff, exists?_iff_mem_ids, exists?_iff_mem_ids, h]

theorem map_id_editAt {id : MemoryId} {f : Memory → Memory} (hf : ∀ m, (f m).id = m.id)
    (ms : List Memory) : (ms.map (·.editAt id f)).map (·.id) = ms.map (·.id) := by
  rw [List.map_map]
  exact List.map_congr_left fun m _ => Memory.editAt_id hf m

theorem exists?_edit {s s' : Store} {id : MemoryId} {f : Memory → Memory}
    (hm : s'.memories = s.memories.map (·.editAt id f)) (hid : ∀ m, (f m).id = m.id)
    (k : MemoryId) : s'.exists? k = s.exists? k :=
  exists?_congr (by rw [hm, map_id_editAt hid]) k

theorem exists?_modifyMemory {f : Memory → Memory} (hid : ∀ m, (f m).id = m.id) (s : Store)
    (id k : MemoryId) : (s.modifyMemory id f).exists? k = s.exists? k :=
  exists?_edit (memories_modifyMemory s id f) hid k

theorem kept?_edit {s s' : Store} {id : MemoryId} {f : Memory → Memory}
    (hm : s'.memories = s.memories.map (·.editAt id f)) (hid : ∀ m, (f m).id = m.id)
    (k : MemoryId) : s'.kept? k = (s.kept? k).map (·.editAt id f) := by
  rw [kept?_eq, kept?_eq, hm, List.find?_map]
  congr 2
  funext m
  simp only [Function.comp_apply, Memory.editAt_id hid]

theorem exists?_withNewcomer {s : Store} {now : Instant} {r : NewMemory} {id : MemoryId} :
    (s.withNewcomer now r).exists? id = true ↔
      s.exists? id = true ∨ id = s.lastMemoryId + 1 := by
  rw [exists?_iff_mem_ids, exists?_iff_mem_ids, memories_withNewcomer, List.map_append,
    List.mem_append, List.map_singleton, List.mem_singleton]
  rfl

/-- A new memory is no other one. -/
theorem kept?_withNewcomer_of_ne (s : Store) (now : Instant) (r : NewMemory) {id : MemoryId}
    (h : id ≠ s.lastMemoryId + 1) : (s.withNewcomer now r).kept? id = s.kept? id := by
  have hnew : [s.newcomer now r].find? (·.id = id) = none := by
    simpa [newcomer, newMemory] using Ne.symm h
  rw [kept?_eq, kept?_eq, memories_withNewcomer, List.find?_append, hnew, Option.or_none]

theorem ids_remove (s : Store) (id : MemoryId) :
    (s.remove id).memories.map (·.id) = (s.memories.map (·.id)).filter (· ≠ id) := by
  rw [memories_remove, List.map_map, List.filter_map]
  exact List.map_congr_left fun m _ => Memory.orphanedBy_id id m

theorem exists?_remove {s : Store} {id p : MemoryId} :
    (s.remove id).exists? p = true ↔ s.exists? p = true ∧ p ≠ id := by
  rw [exists?_iff_mem_ids, exists?_iff_mem_ids, ids_remove, List.mem_filter, decide_eq_true_eq]

theorem sound_empty : empty.Sound := by
  constructor <;> simp [empty, memories]

namespace Sound

variable {s : Store} (h : s.Sound)
include h

theorem nodup_ids : (s.memories.map (·.id)).Nodup := h.ascending.imp Int.ne_of_lt

theorem nodup_ids_of (owner : String) : ((s.memoriesOf owner).map (·.id)).Nodup := by
  rw [memoriesOf_eq]
  exact h.nodup_ids.sublist (List.filter_sublist.map _)

/-- With ascending ids a memory is the only one of its id. -/
theorem kept?_of_mem {m : Memory} (hm : m ∈ s.memories) : s.kept? m.id = some m := by
  rw [kept?_eq]
  have hnodup := h.nodup_ids
  generalize s.memories = ms at hm hnodup
  induction ms with
  | nil => cases hm
  | cons a rest ih =>
    rw [List.map_cons, List.nodup_cons] at hnodup
    rcases List.mem_cons.mp hm with rfl | hm
    · simp
    · have hne : a.id ≠ m.id := fun heq => hnodup.1 (heq ▸ List.mem_map_of_mem hm)
      simpa [hne] using ih hm hnodup.2

theorem kept?_iff {id : MemoryId} {m : Memory} :
    s.kept? id = some m ↔ m ∈ s.memories ∧ m.id = id := by
  constructor
  · exact mem_of_kept?
  · rintro ⟨hm, rfl⟩
    exact h.kept?_of_mem hm

theorem exists?_le {id : MemoryId} (hid : s.exists? id = true) : id ≤ s.lastMemoryId := by
  obtain ⟨m, hm, rfl⟩ := exists?_iff.mp hid
  exact h.bounded m hm

/-- No memory has the id that is next given out. -/
theorem id_ne_next {m : Memory} (hm : m ∈ s.memories) : m.id ≠ s.lastMemoryId + 1 :=
  Int.ne_of_lt (Int.lt_add_one_of_le (h.bounded m hm))

theorem kept?_next : s.kept? (s.lastMemoryId + 1) = none :=
  kept?_eq_none.mpr fun _ hm => h.id_ne_next hm

theorem kept?_withNewcomer (now : Instant) (r : NewMemory) :
    (s.withNewcomer now r).kept? (s.lastMemoryId + 1) = some (s.newcomer now r) := by
  rw [kept?_eq, memories_withNewcomer, List.find?_append, ← kept?_eq, h.kept?_next]
  simp [newcomer, newMemory]

/-- A change of one memory that keeps its id and its parent. -/
theorem edit {s' : Store} {id : MemoryId} {f : Memory → Memory}
    (hm : s'.memories = s.memories.map (·.editAt id f)) (hid : ∀ m, (f m).id = m.id)
    (hparent : ∀ m, (f m).parent = m.parent) (hsound : ∀ m, m.Sound → (f m).Sound)
    (hr : s'.relationships = s.relationships) (hc : s'.contexts = s.contexts)
    (hl : s'.lastMemoryId = s.lastMemoryId) : s'.Sound := by
  have hids : s'.memories.map (·.id) = s.memories.map (·.id) := by
    rw [hm, map_id_editAt hid]
  have hedit : ∀ m : Memory, (m.editAt id f).parent = m.parent := by
    intro m
    unfold Memory.editAt
    split
    · exact hparent m
    · rfl
  constructor
  · intro m' hm'
    obtain ⟨m, hmem, rfl⟩ := List.mem_map.mp (hm ▸ hm')
    unfold Memory.editAt
    split
    · exact hsound m (h.memories m hmem)
    · exact h.memories m hmem
  · exact hids ▸ h.ascending
  · intro m' hm'
    obtain ⟨m, hmem, rfl⟩ := List.mem_map.mp (hm ▸ hm')
    rw [hl, Memory.editAt_id hid]
    exact h.bounded m hmem
  · intro m' hm' p hp
    obtain ⟨m, hmem, rfl⟩ := List.mem_map.mp (hm ▸ hm')
    rw [exists?_edit hm hid]
    exact h.parents m hmem p (hedit m ▸ hp)
  · intro q hq
    rw [exists?_edit hm hid, exists?_edit hm hid]
    exact h.ends q (hr ▸ hq)
  · exact hr ▸ h.strengths
  · exact hc ▸ h.confidences

theorem withNewcomer {v : Vocabulary} {now : Instant} {r : NewMemory} (hr : r.Normal v)
    (hp : ∀ p, r.parent = some p → p = s.lastMemoryId + 1 ∨ s.exists? p = true) :
    (s.withNewcomer now r).Sound := by
  have hmem := memories_withNewcomer s now r
  obtain ⟨kept, last, heq, hkept⟩ := withNewcomer_eq s now r
  have hedges : (s.withNewcomer now r).relationships = s.relationships := by rw [heq]
  have hcontexts : (s.withNewcomer now r).contexts = s.contexts ++ kept := by rw [heq]
  constructor
  · intro m hm
    rw [hmem] at hm
    rcases List.mem_append.mp hm with hm | hm
    · exact h.memories m hm
    · rw [List.mem_singleton.mp hm]
      exact hr.sound s now
  · rw [hmem, List.map_append, List.pairwise_append]
    refine ⟨h.ascending, List.pairwise_singleton _ _, ?_⟩
    intro a ha b hb
    obtain ⟨m, hm, rfl⟩ := List.mem_map.mp ha
    have hb : b = s.lastMemoryId + 1 := by simpa [newcomer, newMemory] using hb
    exact hb ▸ Int.lt_add_one_of_le (h.bounded m hm)
  · intro m hm
    rw [hmem] at hm
    rw [lastMemoryId_withNewcomer]
    rcases List.mem_append.mp hm with hm | hm
    · exact Int.le_of_lt (Int.lt_add_one_of_le (h.bounded m hm))
    · rw [List.mem_singleton.mp hm]
      exact Int.le_refl _
  · intro m hm p hmp
    rw [hmem] at hm
    rw [exists?_withNewcomer]
    rcases List.mem_append.mp hm with hm | hm
    · exact Or.inl (h.parents m hm p hmp)
    · rw [List.mem_singleton.mp hm] at hmp
      exact (hp p hmp).symm
  · intro q hq
    rw [exists?_withNewcomer, exists?_withNewcomer]
    exact (h.ends q (hedges ▸ hq)).imp Or.inl Or.inl
  · exact hedges ▸ h.strengths
  · intro c hc
    rw [hcontexts] at hc
    rcases List.mem_append.mp hc with hc | hc
    · exact h.confidences c hc
    · obtain ⟨-, d, hd, hconf⟩ := hkept c hc
      rw [hconf]
      exact Single.inUnit_stored (hr.contexts d hd)

theorem remove (id : MemoryId) : (s.remove id).Sound := by
  have hmem : ∀ m' ∈ (s.remove id).memories, ∃ m ∈ s.memories, m.orphanedBy id = m' := by
    intro m' hm'
    rw [memories_remove] at hm'
    obtain ⟨m, hm, rfl⟩ := List.mem_map.mp hm'
    exact ⟨m, (List.mem_filter.mp hm).1, rfl⟩
  constructor
  · intro m' hm'
    obtain ⟨m, hm, rfl⟩ := hmem m' hm'
    exact (h.memories m hm).orphanedBy id
  · rw [ids_remove]
    exact h.ascending.sublist List.filter_sublist
  · intro m' hm'
    obtain ⟨m, hm, rfl⟩ := hmem m' hm'
    rw [Memory.orphanedBy_id]
    exact h.bounded m hm
  · intro m' hm' p hp
    obtain ⟨m, hm, rfl⟩ := hmem m' hm'
    unfold Memory.orphanedBy at hp
    split at hp
    · cases hp
    · next hne => exact exists?_remove.mpr ⟨h.parents m hm p hp, fun heq => hne (heq ▸ hp)⟩
  · intro q hq
    obtain ⟨hq, htouch⟩ := List.mem_filter.mp hq
    have hends := h.ends q hq
    simp only [Relationship.touches, Bool.not_eq_true', Bool.or_eq_false_iff,
      decide_eq_false_iff_not] at htouch
    exact ⟨exists?_remove.mpr ⟨hends.1, htouch.1⟩, exists?_remove.mpr ⟨hends.2, htouch.2⟩⟩
  · intro q hq
    exact h.strengths q (List.mem_filter.mp hq).1
  · intro c hc
    exact h.confidences c (List.mem_filter.mp hc).1

/-- Every write keeps a store sound. -/
theorem write {v : Vocabulary} {s' : Store} (hw : Write v s s') : s'.Sound := by
  cases hw with
  | create hr hp => exact h.withNewcomer hr hp
  | update hc =>
    exact h.edit (memories_withChanges ..) (fun _ => rfl) (fun _ => rfl)
      (fun _ hm => hm.edited hc) rfl rfl rfl
  | remove => exact h.remove _
  | access =>
    exact h.edit (memories_withAccess ..) (fun _ => rfl) (fun _ => rfl)
      (fun _ hm => hm.accessed _) rfl rfl rfl
  | context hid hc =>
    refine { h with confidences := ?_ }
    intro k hk
    rcases List.mem_append.mp hk with hk | hk
    · exact h.confidences k hk
    · rw [List.mem_singleton.mp hk]
      exact Single.inUnit_stored hc
  | relate hs ht hne hr =>
    refine { h with ends := ?_, strengths := ?_ }
    · intro q hq
      rcases mem_relationships_withEdge hq with hold | ⟨hsource, htarget, -⟩
      · exact h.ends q hold
      · rw [hsource, htarget]
        exact ⟨hs, ht⟩
    · intro q hq
      rcases mem_relationships_withEdge hq with hold | ⟨-, -, hstrength⟩
      · exact h.strengths q hold
      · rw [hstrength]
        exact Single.inUnit_stored hr
  | archive =>
    exact h.edit (memories_modifyMemory ..) (fun _ => rfl) (fun _ => rfl)
      (fun _ hm => hm.archived _ _) rfl rfl rfl
  | age hi =>
    exact h.edit (memories_modifyMemory ..) (fun _ => rfl) (fun _ => rfl)
      (fun _ hm => hm.aged hi) rfl rfl rfl

theorem writes {v : Vocabulary} {s' : Store} (hw : Writes v s s') : s'.Sound := by
  induction hw with
  | refl => exact h
  | tail _ hstep ih => exact ih.write hstep

/-- What every write of a sound store keeps, a sequence of them keeps. -/
theorem holds_writes {v : Vocabulary} {I : Store → Prop}
    (hwrite : ∀ {s s'}, s.Sound → I s → Write v s s' → I s') {s' : Store} (hI : I s)
    (hw : Writes v s s') : I s' := by
  induction hw with
  | refl => exact hI
  | tail hsteps hstep ih => exact hwrite (h.writes hsteps) ih hstep

end Sound

end Store

end LongTermMemory
