import LongTermMemory.Proofs.Store.Sound
import LongTermMemory.Proofs.Store.Tags

/-!
References between the collections of a store: contexts, accesses, edges and parents lead to
memories that are kept, and the tags of memories to kept names. Every write of a sound store keeps
it so: a memory that is removed takes with it whatever refers to it.
-/

namespace LongTermMemory

/-- What no two relationships have in common. -/
def Relationship.key (q : Relationship) : MemoryId × MemoryId × RelationshipType :=
  (q.source, q.target, q.type)

/-- No reference of a store dangles, and its edges are no loops and all different. -/
structure Store.Referential (s : Store) : Prop where
  contexts : ∀ c ∈ s.contexts, s.exists? c.memoryId = true
  accesses : ∀ a ∈ s.accesses, s.exists? a.memoryId = true
  tags : ∀ m ∈ s.memories, ∀ t ∈ m.tags, t ∈ s.tagNames
  ends : ∀ q ∈ s.relationships, s.exists? q.source = true ∧ s.exists? q.target = true
  parents : ∀ m ∈ s.memories, ∀ p, m.parent = some p → s.exists? p = true
  loopless : ∀ q ∈ s.relationships, q.source ≠ q.target
  unique : (s.relationships.map (·.key)).Nodup

namespace Store

variable {s s' : Store}

/-! ## Edges -/

theorem key_eq_of_sameEdge {r : NewRelationship} {q : Relationship} (h : sameEdge r q = true) :
    q.key = (r.source, r.target, r.type) := by
  obtain ⟨hsource, htarget, htype⟩ := sameEdge_iff.mp h
  rw [Relationship.key, hsource, htarget, htype]

theorem sameEdge_of_key_eq {r : NewRelationship} {q : Relationship}
    (h : q.key = (r.source, r.target, r.type)) : sameEdge r q = true := by
  simp only [Relationship.key, Prod.mk.injEq] at h
  exact sameEdge_iff.mpr h

/-- An edge is refreshed in its place, or added with a key of its own. -/
theorem nodup_keys_withEdge {now : Instant} {r : NewRelationship}
    (h : (s.relationships.map (·.key)).Nodup) :
    ((s.withEdge now r).relationships.map (·.key)).Nodup := by
  simp only [withEdge]
  split
  · next e hfind =>
    have hkey : e.key = (r.source, r.target, r.type) :=
      key_eq_of_sameEdge (List.find?_some hfind)
    have hkeys : (s.relationships.map fun q => if sameEdge r q then
        { e with strength := r.strength.stored, description := r.description } else q).map (·.key) =
          s.relationships.map (·.key) := by
      rw [List.map_map]
      refine List.map_congr_left fun q _ => ?_
      simp only [Function.comp_apply]
      split
      · next hsame => exact hkey.trans (key_eq_of_sameEdge hsame).symm
      · rfl
    rw [hkeys]
    exact h
  · next hfind =>
    rw [List.map_append, List.nodup_append]
    refine ⟨h, List.pairwise_singleton _ _, fun k hk k' hk' heq => ?_⟩
    obtain ⟨q, hq, rfl⟩ := List.mem_map.mp hk
    have hkey : q.key = (r.source, r.target, r.type) := heq.trans (List.mem_singleton.mp hk')
    exact List.find?_eq_none.mp hfind q hq (sameEdge_of_key_eq hkey)

/-! ## Writes -/

theorem referential_empty : empty.Referential := by
  constructor <;> simp [empty, memories]

namespace Referential

variable (h : s.Referential)
include h

/-- A write that removes nothing and leaves the edges alone. -/
theorem grow (hs' : s'.Sound) (hex : ∀ id, s.exists? id = true → s'.exists? id = true)
    (hc : ∀ c ∈ s'.contexts, c ∈ s.contexts ∨ s'.exists? c.memoryId = true)
    (ha : ∀ a ∈ s'.accesses, a ∈ s.accesses ∨ s'.exists? a.memoryId = true)
    (ht : ∀ m ∈ s'.memories, ∀ t ∈ m.tags, t ∈ s'.tagNames)
    (hr : s'.relationships = s.relationships) : s'.Referential :=
  { contexts := fun c hmem => (hc c hmem).elim (fun hold => hex _ (h.contexts c hold)) id
    accesses := fun a hmem => (ha a hmem).elim (fun hold => hex _ (h.accesses a hold)) id
    tags := ht
    ends := hs'.ends
    parents := hs'.parents
    loopless := hr ▸ h.loopless
    unique := hr ▸ h.unique }

/-- A change of one memory that keeps its id. -/
theorem edit (hs' : s'.Sound) {id : MemoryId} {f : Memory → Memory}
    (hm : s'.memories = s.memories.map (·.editAt id f)) (hid : ∀ m, (f m).id = m.id)
    (htags : ∀ m, (∀ t ∈ m.tags, t ∈ s.tagNames) → ∀ t ∈ (f m).tags, t ∈ s'.tagNames)
    (hn : ∀ t ∈ s.tagNames, t ∈ s'.tagNames) (hc : s'.contexts = s.contexts)
    (ha : ∀ a ∈ s'.accesses, a ∈ s.accesses ∨ s'.exists? a.memoryId = true)
    (hr : s'.relationships = s.relationships) : s'.Referential := by
  refine h.grow hs' (fun k hk => (exists?_edit hm hid k).trans hk)
    (fun c hmem => Or.inl (hc ▸ hmem)) ha ?_ hr
  intro m' hm' t ht
  obtain ⟨m, hmem, rfl⟩ := List.mem_map.mp (hm ▸ hm')
  unfold Memory.editAt at ht
  split at ht
  · exact htags m (h.tags m hmem) t ht
  · exact hn t (h.tags m hmem t ht)

theorem withNewcomer {now : Instant} {r : NewMemory} (hs' : (s.withNewcomer now r).Sound) :
    (s.withNewcomer now r).Referential := by
  have hmem := memories_withNewcomer s now r
  obtain ⟨kept, last, heq, hkept⟩ := withNewcomer_eq s now r
  have hnames : (s.withNewcomer now r).tagNames = (keepTags s.tagNames r.tags).2 := by rw [heq]
  refine h.grow hs' (fun _ hold => exists?_withNewcomer.mpr (Or.inl hold)) ?_ ?_ ?_ (by rw [heq])
  · intro c hc
    have hcontexts : (s.withNewcomer now r).contexts = s.contexts ++ kept := by rw [heq]
    rw [hcontexts] at hc
    refine (List.mem_append.mp hc).imp_right fun hnew => exists?_withNewcomer.mpr ?_
    exact Or.inr (hkept c hnew).1
  · intro a ha
    rw [heq] at ha
    exact Or.inl ha
  · intro m hm t ht
    rw [hnames]
    rw [hmem] at hm
    rcases List.mem_append.mp hm with hm | hm
    · exact mem_keepTags_of_mem (h.tags m hm t ht)
    · rw [List.mem_singleton.mp hm] at ht
      exact mem_names_of_mem_keepTags ht

theorem withChanges {now : Instant} {id : MemoryId} {c : Changes}
    (hs' : (s.withChanges now id c).Sound) : (s.withChanges now id c).Referential := by
  refine h.edit hs' (memories_withChanges ..) (fun _ => rfl) ?_ ?_ rfl (fun _ => Or.inl) rfl
  · intro m hm t ht
    simp only [edited, Store.withChanges, changedTags] at ht ⊢
    cases htags : c.tags with
    | none => simp_all
    | some ts =>
      simp only [htags, Option.getD_some] at ht ⊢
      exact mem_names_of_mem_keepTags ht
  · intro t ht
    simp only [Store.withChanges, changedTags]
    cases c.tags with
    | none => exact ht
    | some ts => exact mem_keepTags_of_mem ht

theorem remove {id : MemoryId} (hs' : (s.remove id).Sound) : (s.remove id).Referential :=
  { contexts := fun c hc => by
      obtain ⟨hc, hne⟩ := List.mem_filter.mp hc
      exact exists?_remove.mpr ⟨h.contexts c hc, of_decide_eq_true hne⟩
    accesses := fun a ha => by
      obtain ⟨ha, hne⟩ := List.mem_filter.mp ha
      exact exists?_remove.mpr ⟨h.accesses a ha, of_decide_eq_true hne⟩
    tags := by
      intro m' hm' t ht
      rw [memories_remove] at hm'
      obtain ⟨m, hm, rfl⟩ := List.mem_map.mp hm'
      refine h.tags m (List.mem_filter.mp hm).1 t ?_
      unfold Memory.orphanedBy at ht
      split at ht <;> exact ht
    ends := hs'.ends
    parents := hs'.parents
    loopless := fun q hq => h.loopless q (List.mem_filter.mp hq).1
    unique := h.unique.sublist (List.filter_sublist.map _) }

theorem write {v : Vocabulary} (hs : s.Sound) (hw : Write v s s') : s'.Referential := by
  have hs' := hs.write hw
  cases hw with
  | create => exact h.withNewcomer hs'
  | update => exact h.withChanges hs'
  | remove => exact h.remove hs'
  | @access now id n hid =>
    refine h.edit hs' (memories_withAccess ..) (fun _ => rfl) (fun _ hm => hm) (fun _ ht => ht) rfl
      (fun a ha => ?_) rfl
    refine (List.mem_append.mp ha).imp_right fun hnew => ?_
    rw [List.mem_singleton.mp hnew]
    exact (exists?_edit (memories_withAccess ..) (fun _ => rfl) id).trans hid
  | context hid hc =>
    refine { h with contexts := fun k hk => ?_ }
    rcases List.mem_append.mp hk with hk | hk
    · exact h.contexts k hk
    · rw [List.mem_singleton.mp hk]
      exact hid
  | relate hsource htarget hne hr =>
    refine { h with ends := hs'.ends, loopless := ?_, unique := nodup_keys_withEdge h.unique }
    intro q hq
    rcases mem_relationships_withEdge hq with hold | ⟨hqs, hqt, -⟩
    · exact h.loopless q hold
    · rw [hqs, hqt]
      exact hne
  | archive =>
    exact h.edit hs' (memories_modifyMemory ..) (fun _ => rfl) (fun _ hm => hm) (fun _ ht => ht)
      rfl (fun _ => Or.inl) rfl
  | age =>
    exact h.edit hs' (memories_modifyMemory ..) (fun _ => rfl) (fun _ hm => hm) (fun _ ht => ht)
      rfl (fun _ => Or.inl) rfl

end Referential

end Store

end LongTermMemory
