import LongTermMemory.Proofs.Operations
import LongTermMemory.Proofs.Store.AccessLog
import LongTermMemory.Proofs.Store.Altering

/-!
Integrity: whatever operations led to a store, its references lead to memories that are kept and
its memories tell the access log. A memory that is deleted, by a client or as a duplicate, leaves
nothing behind that refers to it.
-/

namespace LongTermMemory

namespace Store

/-- Something in the store refers to an id. -/
def Mentions (s : Store) (id : MemoryId) : Prop :=
  s.exists? id = true ∨ (∃ m ∈ s.memories, m.parent = some id) ∨
    (∃ c ∈ s.contexts, c.memoryId = id) ∨ (∃ q ∈ s.relationships, q.touches id = true) ∨
      ∃ a ∈ s.accesses, a.memoryId = id

/-- The store `s'` is `s` without the memories of some ids. Nothing refers to them, their children
have no parent, and all else is as it was. -/
structure Without (s : Store) (ids : List MemoryId) (s' : Store) : Prop where
  existed : ∀ id ∈ ids, s.exists? id = true
  unmentioned : ∀ id ∈ ids, ¬ s'.Mentions id
  memories : s'.memories = (s.memories.filter fun m => m.id ∉ ids).map fun m =>
    { m with parent := m.parent.filter (· ∉ ids) }
  contexts : s'.contexts = s.contexts.filter fun c => c.memoryId ∉ ids
  relationships : s'.relationships =
    s.relationships.filter fun q => q.source ∉ ids ∧ q.target ∉ ids
  accesses : s'.accesses = s.accesses.filter fun a => a.memoryId ∉ ids
  tagNames : s'.tagNames = s.tagNames

variable {s s' : Store}

/-- Nothing refers to an id that is not in use. -/
theorem Referential.unmentioned (h : s.Referential) {id : MemoryId} (hid : s.exists? id = false) :
    ¬ s.Mentions id := by
  have hgone {k : MemoryId} (hk : s.exists? k = true) : k ≠ id := by
    rintro rfl
    rw [hid] at hk
    cases hk
  rintro (hex | ⟨m, hm, hparent⟩ | ⟨c, hc, rfl⟩ | ⟨q, hq, htouch⟩ | ⟨a, ha, rfl⟩)
  · exact hgone hex rfl
  · exact hgone (h.parents m hm id hparent) rfl
  · exact hgone (h.contexts c hc) rfl
  · obtain ⟨hsource, htarget⟩ := h.ends q hq
    simp [Relationship.touches, hgone hsource, hgone htarget] at htouch
  · exact hgone (h.accesses a ha) rfl

/-! ## Deleting -/

theorem without_removeAll {ids : List MemoryId} (hex : ∀ id ∈ ids, s.exists? id = true) :
    s.Without ids (s.removeAll ids) := by
  refine ⟨hex, fun id hid => ?_, memories_removeAll s ids, rfl, ?_, rfl, rfl⟩
  · rintro (hex | ⟨m', hm', hparent⟩ | ⟨c, hc, rfl⟩ | ⟨q, hq, htouch⟩ | ⟨a, ha, rfl⟩)
    · exact (exists?_removeAll.mp hex).2 hid
    · rw [memories_removeAll] at hm'
      obtain ⟨m, -, rfl⟩ := List.mem_map.mp hm'
      obtain ⟨-, hnot⟩ := Option.filter_eq_some_iff.mp hparent
      exact of_decide_eq_true hnot hid
    · exact of_decide_eq_true (List.mem_filter.mp hc).2 hid
    · obtain ⟨-, hends⟩ := List.mem_filter.mp hq
      simp only [Bool.and_eq_true, decide_eq_true_eq] at hends
      simp only [Relationship.touches, Bool.or_eq_true, decide_eq_true_eq] at htouch
      rcases htouch with rfl | rfl
      · exact hends.1 hid
      · exact hends.2 hid
    · exact of_decide_eq_true (List.mem_filter.mp ha).2 hid
  · exact List.filter_congr fun q _ => (Bool.decide_and _ _).symm

theorem without_of_delete {id : MemoryId} (h : s.delete id = .ok s') : s.Without [id] s' := by
  obtain ⟨hex, rfl⟩ := delete_eq_ok.mp h
  rw [remove_eq_removeAll]
  exact without_removeAll (by simpa using hex)

/-- Some memories that existed have been removed, and counted. -/
def Removed (s : Store) (state : Nat × Store) : Prop :=
  ∃ ids, ids.Nodup ∧ (∀ id ∈ ids, s.exists? id = true) ∧ state = (ids.length, s.removeAll ids)

end Store

namespace Engine

variable {s s' : Store}

theorem without_of_deleteOwned {owner : String} {id : MemoryId}
    (h : deleteOwned owner id s = .ok s') : s.Without [id] s' :=
  Store.without_of_delete (deleteOwned_eq_ok h).1

theorem removed_deleteAll (ms : List Memory) {state : Nat × Store} (h : s.Removed state) :
    s.Removed (deleteAll ms state) := by
  induction ms generalizing state with
  | nil => exact h
  | cons m ms ih =>
    obtain ⟨ids, hnodup, hex, rfl⟩ := h
    unfold deleteAll
    split
    · next t hdelete =>
      obtain ⟨hm, rfl⟩ := Store.delete_eq_ok.mp hdelete
      obtain ⟨hm, hnot⟩ := Store.exists?_removeAll.mp hm
      refine ih ⟨ids ++ [m.id], ?_, ?_, by simp [Store.removeAll_remove]⟩
      · refine List.nodup_append.mpr ⟨hnodup, List.pairwise_singleton _ _, ?_⟩
        rintro a ha b hb rfl
        exact hnot (List.mem_singleton.mp hb ▸ ha)
      · intro id hid
        rcases List.mem_append.mp hid with hid | hid
        · exact hex id hid
        · exact List.mem_singleton.mp hid ▸ hm
    · exact ih ⟨ids, hnodup, hex, rfl⟩

theorem removed_removeDuplicates (groups : List (List Memory)) (deadline : Deadline)
    {state : Nat × Store} (h : s.Removed state) :
    s.Removed (removeDuplicates groups deadline state).result := by
  induction groups generalizing deadline state with
  | nil => exact h
  | cons group rest ih =>
    cases group with
    | nil => exact ih deadline h
    | cons m ms =>
      unfold removeDuplicates
      split
      · exact h
      · exact ih _ (removed_deleteAll _ h)

/-- The pass over duplicates removes memories, as many as it tells. -/
theorem removed_deduplicatePass {e : Engine} {now : Instant} {owner : String} {deadline : Deadline}
    {passed : Passed (Nat × Store)} (h : e.deduplicatePass now owner deadline s = .ok passed) :
    s.Removed passed.result := by
  have hnone : s.Removed (0, s) := ⟨[], List.nodup_nil, by simp, by simp [Store.removeAll_nil]⟩
  obtain ⟨read, hread, h⟩ := bind_eq_ok.mp h
  have hsame : read.result.2 = s := by
    refine walkPages_keeps (P := fun state => state.2 = s)
      (fun page state state' _ hs hstep => ?_) rfl hread
    cases hstep
    exact hs
  dsimp only at h
  rw [hsame] at h
  split at h
  · cases h
    exact hnone
  · cases h
    exact removed_removeDuplicates _ _ hnone

end Engine

namespace World

theorem Reached.referential {p : Engine → Prop} {w : World} (hw : w.Reached p) :
    w.store.Referential :=
  hw.holds Store.referential_empty fun _ hs h hwrite => h.write hs hwrite

theorem Reached.logged {p : Engine → Prop} {w : World} (hw : w.Reached p) : w.store.Logged := by
  have hboth : w.store.Referential ∧ w.store.Logged :=
    hw.holds (I := fun s => s.Referential ∧ s.Logged)
      ⟨Store.referential_empty, Store.logged_empty⟩
      fun _ hs h hwrite => ⟨h.1.write hs hwrite, h.2.write hs h.1 hwrite⟩
  exact hboth.2

/-- In every store that a run reaches, references lead to what is kept, memories tell the access
log, and nothing refers to an id that is not in use. What is deleted, by a client or as a duplicate,
takes along all that refers to it and nothing else. -/
theorem reached_store_coherent {p : Engine → Prop} {w : World} (hw : w.Reached p) :
    w.store.Referential ∧ w.store.Logged ∧
    (∀ id, w.store.exists? id = false → ¬ w.store.Mentions id) ∧
    (∀ id s', w.store.delete id = .ok s' → w.store.Without [id] s') ∧
    (∀ owner id s', Engine.deleteOwned owner id w.store = .ok s' → w.store.Without [id] s') ∧
    ∀ (e : Engine) now owner deadline s passed,
      e.deduplicatePass now owner deadline s = .ok passed →
        ∃ ids, ids.Nodup ∧ passed.result.1 = ids.length ∧ s.Without ids passed.result.2 := by
  refine ⟨hw.referential, hw.logged, fun id => hw.referential.unmentioned,
    fun id s' => Store.without_of_delete, fun owner id s' => Engine.without_of_deleteOwned,
    fun e now owner deadline s passed h => ?_⟩
  obtain ⟨ids, hnodup, hex, heq⟩ := Engine.removed_deduplicatePass h
  rw [heq]
  exact ⟨ids, hnodup, rfl, Store.without_removeAll hex⟩

/-- Two memories, both accessed. The second has the first as its parent and an edge to it. -/
def linkedTeas : World :=
  [.create { tea 5 with parent := some 1 }, .relate { source := 2, target := 1 },
    .recordAccess 1 { method := "api" }, .recordAccess 2 { method := "api" }].foldl
      (fun w op => Engine.oneTag.perform op w) (withTea ⟨0⟩ 5)

theorem reached_linkedTeas : linkedTeas.Reached (· = .oneTag) := by
  obtain ⟨clock, hrun⟩ := reached_withTea ⟨0⟩ 5
  exact ⟨clock, hrun.trans (runs_foldl (p := (· = .oneTag)) rfl _ _)⟩

theorem reached_store_coherent_linkedTeas :
    linkedTeas.store.memories.map (fun m => (m.parent, m.accessCount)) =
      [(none, 1), (some 1, 1)] ∧
    linkedTeas.store.relationships.map (·.key) = [(2, 1, .relatedTo)] ∧
    linkedTeas.store.Referential ∧ linkedTeas.store.Logged ∧
    ∃ s', linkedTeas.store.delete 1 = .ok s' ∧ linkedTeas.store.Without [1] s' ∧
      s'.memories.map (fun m => (m.id, m.parent)) = [(2, none)] ∧ s'.relationships = [] := by
  obtain ⟨hreferential, hlogged, -, hdelete, -⟩ := reached_store_coherent reached_linkedTeas
  exact ⟨rfl, rfl, hreferential, hlogged, _, rfl, hdelete 1 _ rfl, rfl, rfl⟩

end World

end LongTermMemory
