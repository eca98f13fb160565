import LongTermMemory.Proofs.Store.Altering

/-!
What an owner has in a store, and what writes about the memories of others do to it. A memory may
have a parent or an edge that is not its owner's, so that a removal, alone of all writes, reaches
what others have: it cuts their links to the memory removed.
-/

namespace LongTermMemory

/-- The memories of an owner and the rows about them. An edge is about both its ends. -/
structure Holdings where
  memories : List Memory
  contexts : List Context
  relationships : List Relationship
  accesses : List Access

namespace Holdings

/-- The id is the parent of a memory held, or an end of its edges. -/
def LinksTo (h : Holdings) (id : MemoryId) : Prop :=
  (∃ m ∈ h.memories, m.parent = some id) ∨ ∃ q ∈ h.relationships, q.touches id = true

/-- What is left when the links to memories that are not kept are cut. -/
def pruned (h : Holdings) (kept : MemoryId → Bool) : Holdings :=
  { h with
    memories := h.memories.map fun m => { m with parent := m.parent.filter kept }
    relationships := h.relationships.filter fun q => kept q.source && kept q.target }

variable {h : Holdings} {kept kept' : MemoryId → Bool}

theorem LinksTo.ends {q : Relationship} (hq : q ∈ h.relationships) :
    h.LinksTo q.source ∧ h.LinksTo q.target :=
  ⟨.inr ⟨q, hq, by simp [Relationship.touches]⟩, .inr ⟨q, hq, by simp [Relationship.touches]⟩⟩

theorem pruned_congr (hlink : ∀ id, h.LinksTo id → kept id = kept' id) :
    h.pruned kept = h.pruned kept' := by
  have hmemories : (h.memories.map fun m => { m with parent := m.parent.filter kept }) =
      h.memories.map fun m => { m with parent := m.parent.filter kept' } := by
    refine List.map_congr_left fun m hm => ?_
    cases hparent : m.parent with
    | none => rfl
    | some id =>
      have heq := hlink id (.inl ⟨m, hm, hparent⟩)
      simp only [Option.filter, heq]
  have hedges : (h.relationships.filter fun q => kept q.source && kept q.target) =
      h.relationships.filter fun q => kept' q.source && kept' q.target := by
    refine List.filter_congr fun q hq => ?_
    obtain ⟨hsource, htarget⟩ := LinksTo.ends hq
    rw [hlink _ hsource, hlink _ htarget]
  rw [pruned, pruned, hmemories, hedges]

theorem pruned_true (h : Holdings) : h.pruned (fun _ => true) = h := by
  have hparent : ∀ o : Option MemoryId, o.filter (fun _ => true) = o := by
    intro o
    cases o <;> rfl
  simp [pruned, hparent]

/-- What is held is left as it is just when all it links to is kept. -/
theorem pruned_eq_self_iff : h.pruned kept = h ↔ ∀ id, h.LinksTo id → kept id = true := by
  constructor
  · rintro heq id (⟨m, hm, hparent⟩ | ⟨q, hq, htouch⟩)
    · have hmap : (h.pruned kept).memories = h.memories.map fun m => m := by simp [heq]
      have hm' : m.parent.filter kept = m.parent :=
        congrArg Memory.parent (List.map_inj_left.mp hmap m hm)
      rw [hparent] at hm'
      exact (Option.filter_eq_some_iff.mp hm').2
    · have hfilter : (h.pruned kept).relationships = h.relationships := by rw [heq]
      have hends := List.filter_eq_self.mp hfilter q hq
      simp only [Bool.and_eq_true] at hends
      simp only [Relationship.touches, Bool.or_eq_true, decide_eq_true_eq] at htouch
      rcases htouch with rfl | rfl
      · exact hends.1
      · exact hends.2
  · intro hkept
    exact (pruned_congr hkept).trans (pruned_true h)

theorem pruned_pruned (h : Holdings) (kept kept' : MemoryId → Bool) :
    (h.pruned kept).pruned kept' = h.pruned fun id => kept id && kept' id := by
  simp only [pruned, List.map_map, List.filter_filter]
  congr 1
  · refine List.map_congr_left fun m _ => ?_
    simp [Option.filter_filter]
  · refine List.filter_congr fun q _ => ?_
    ac_rfl

end Holdings

namespace Store

/-- Whether a memory of the owner has the id. -/
def owns (s : Store) (owner : String) (id : MemoryId) : Bool :=
  (s.memoriesOf owner).any (·.id = id)

def holdingsOf (s : Store) (owner : String) : Holdings :=
  { memories := s.memoriesOf owner
    contexts := s.contexts.filter fun c => s.owns owner c.memoryId
    relationships := s.relationships.filter fun q =>
      s.owns owner q.source || s.owns owner q.target
    accesses := s.accesses.filter fun a => s.owns owner a.memoryId }

variable {s s' : Store} {owner : String} {id : MemoryId}

theorem owns_eq_false :
    s.owns owner id = false ↔ ∀ m ∈ s.memories, m.owner = owner → m.id ≠ id := by
  simp only [owns, List.any_eq_false, mem_memoriesOf, decide_eq_true_eq, and_imp, ne_eq]

theorem owns_congr (h : s'.holdingsOf owner = s.holdingsOf owner) (id : MemoryId) :
    s'.owns owner id = s.owns owner id := by
  have hm : s'.memoriesOf owner = s.memoriesOf owner := congrArg Holdings.memories h
  rw [owns, owns, hm]

/-- None of some memories is the owner's. -/
def OfOthers (s : Store) (owner : String) (ms : List Memory) : Prop :=
  ∀ m ∈ ms, s.owns owner m.id = false

namespace OfOthers

variable {m : Memory} {ms : List Memory}

theorem head (h : s.OfOthers owner (m :: ms)) : s.owns owner m.id = false :=
  h m List.mem_cons_self

theorem tail (h : s.OfOthers owner (m :: ms)) : s.OfOthers owner ms :=
  fun k hk => h k (List.mem_cons_of_mem m hk)

theorem congr (h : s.OfOthers owner ms) (heq : s'.holdingsOf owner = s.holdingsOf owner) :
    s'.OfOthers owner ms := fun m hm => (owns_congr heq m.id).trans (h m hm)

end OfOthers

namespace Sound

variable (hs : s.Sound)
include hs

/-- No id is of two owners. -/
theorem not_owns {m : Memory} (hm : m ∈ s.memories) (hne : m.owner ≠ owner) :
    s.owns owner m.id = false := by
  refine owns_eq_false.mpr fun k hk howner heq => hne ?_
  have hkept := hs.kept?_of_mem hk
  rw [heq, hs.kept?_of_mem hm] at hkept
  cases hkept
  exact howner

theorem not_owns_of_lt (hlt : s.lastMemoryId < id) : s.owns owner id = false := by
  refine owns_eq_false.mpr fun k hk _ heq => ?_
  exact absurd hlt (Int.not_lt.mpr (heq ▸ hs.bounded k hk))

theorem exists?_of_linksTo (h : (s.holdingsOf owner).LinksTo id) : s.exists? id = true := by
  rcases h with ⟨m, hm, hparent⟩ | ⟨q, hq, htouch⟩
  · exact hs.parents m (mem_memoriesOf.mp hm).1 id hparent
  · have hends := hs.ends q (List.mem_filter.mp hq).1
    simp only [Relationship.touches, Bool.or_eq_true, decide_eq_true_eq] at htouch
    rcases htouch with rfl | rfl
    · exact hends.1
    · exact hends.2

theorem pruned_holdingsOf : (s.holdingsOf owner).pruned s.exists? = s.holdingsOf owner :=
  Holdings.pruned_eq_self_iff.mpr fun _ => hs.exists?_of_linksTo

theorem holdingsOf_eq_pruned (h : s.holdingsOf owner = s'.holdingsOf owner) :
    s.holdingsOf owner = (s'.holdingsOf owner).pruned s.exists? := by
  rw [← h, hs.pruned_holdingsOf]

end Sound

/-! ## Writes about the memories of others -/

theorem holdingsOf_congr (hm : s'.memoriesOf owner = s.memoriesOf owner)
    (hc : (s'.contexts.filter fun c => s.owns owner c.memoryId) =
      s.contexts.filter fun c => s.owns owner c.memoryId)
    (hr : (s'.relationships.filter fun q => s.owns owner q.source || s.owns owner q.target) =
      s.relationships.filter fun q => s.owns owner q.source || s.owns owner q.target)
    (ha : (s'.accesses.filter fun a => s.owns owner a.memoryId) =
      s.accesses.filter fun a => s.owns owner a.memoryId) :
    s'.holdingsOf owner = s.holdingsOf owner := by
  have howns : s'.owns owner = s.owns owner := by
    funext id
    rw [owns, owns, hm]
  simp only [holdingsOf, hm, howns, hc, hr, ha]

theorem memoriesOf_edit {f : Memory → Memory} (hm : s'.memories = s.memories.map (·.editAt id f))
    (howner : ∀ m, (f m).owner = m.owner) (hid : s.owns owner id = false) :
    s'.memoriesOf owner = s.memoriesOf owner := by
  have hsame : ∀ m : Memory, (m.editAt id f).owner = m.owner := by
    intro m
    unfold Memory.editAt
    split
    · exact howner m
    · rfl
  rw [memoriesOf_eq, memoriesOf_eq, hm, List.filter_map]
  simp only [Function.comp_def, hsame]
  refine (List.map_congr_left fun m hmem => ?_).trans (List.map_id _)
  obtain ⟨hmem, howned⟩ := List.mem_filter.mp hmem
  exact if_neg (owns_eq_false.mp hid m hmem (of_decide_eq_true howned))

theorem holdingsOf_modifyMemory {f : Memory → Memory} (howner : ∀ m, (f m).owner = m.owner)
    (hid : s.owns owner id = false) :
    (s.modifyMemory id f).holdingsOf owner = s.holdingsOf owner :=
  holdingsOf_congr (memoriesOf_edit (memories_modifyMemory ..) howner hid) rfl rfl rfl

theorem holdingsOf_withAccess (now : Instant) (n : AccessNote) (hid : s.owns owner id = false) :
    (s.withAccess now id n).holdingsOf owner = s.holdingsOf owner := by
  refine holdingsOf_congr (memoriesOf_edit (memories_withAccess ..) (fun _ => rfl) hid) rfl rfl ?_
  simp [withAccess, newAccess, List.filter_append, hid]

theorem holdingsOf_withNewcomer (hs : s.Sound) (now : Instant) {r : NewMemory}
    (hne : r.owner ≠ owner) : (s.withNewcomer now r).holdingsOf owner = s.holdingsOf owner := by
  have hnew : s.owns owner (s.lastMemoryId + 1) = false := hs.not_owns_of_lt (Int.lt_succ _)
  have hm : (s.withNewcomer now r).memoriesOf owner = s.memoriesOf owner := by
    have hother : (s.newcomer now r).owner ≠ owner := hne
    simp [memoriesOf_eq, List.filter_append, hother]
  obtain ⟨kept, last, heq, hkept⟩ := withNewcomer_eq s now r
  refine holdingsOf_congr hm ?_ ?_ ?_
  · have hnone : (kept.filter fun c => s.owns owner c.memoryId) = [] := by
      refine List.filter_eq_nil_iff.mpr fun c hc => ?_
      simp [(hkept c hc).1, hnew]
    simp [heq, List.filter_append, hnone]
  · rw [heq]
  · rw [heq]

theorem holdingsOf_withEdge (now : Instant) {r : NewRelationship}
    (hsource : s.owns owner r.source = false) (htarget : s.owns owner r.target = false) :
    (s.withEdge now r).holdingsOf owner = s.holdingsOf owner := by
  refine holdingsOf_congr rfl rfl ?_ rfl
  simp only [withEdge]
  split
  · next e hfind =>
    obtain ⟨hs, ht, -⟩ := sameEdge_iff.mp (List.find?_some hfind)
    -- both the edge that is refreshed and the refreshed one are about others
    generalize s.relationships = qs
    induction qs with
    | nil => rfl
    | cons q qs ih =>
      rw [List.map_cons, List.filter_cons, List.filter_cons, ih]
      by_cases hq : sameEdge r q = true
      · obtain ⟨hqs, hqt, -⟩ := sameEdge_iff.mp hq
        simp [hq, hs, ht, hqs, hqt, hsource, htarget]
      · simp [hq]
  · simp [List.filter_append, newEdge, hsource, htarget]

/-- A removal cuts the links to what is removed. -/
theorem holdingsOf_removeAll (hs : s.Sound) {ids : List MemoryId}
    (hids : ∀ id ∈ ids, s.owns owner id = false) :
    (s.removeAll ids).holdingsOf owner =
      (s.holdingsOf owner).pruned (s.removeAll ids).exists? := by
  have hkept : ∀ id, s.owns owner id = true → id ∉ ids := by
    intro id howned hid
    rw [hids id hid] at howned
    cases howned
  have hm : (s.removeAll ids).memoriesOf owner =
      (s.memoriesOf owner).map fun m => { m with parent := m.parent.filter (· ∉ ids) } := by
    rw [memoriesOf_eq, memoriesOf_eq, memories_removeAll, List.filter_map, List.filter_filter]
    refine congrArg _ (List.filter_congr fun m hm => ?_)
    by_cases howner : m.owner = owner
    · have hnot : m.id ∉ ids := by
        intro hid
        exact owns_eq_false.mp (hids _ hid) m hm howner rfl
      simp [howner, hnot]
    · simp [howner]
  have howns : (s.removeAll ids).owns owner = s.owns owner := by
    funext id
    simp [owns, hm, List.any_map, Function.comp_def]
  have hrows : ∀ id, (s.owns owner id && decide (id ∉ ids)) = s.owns owner id := by
    intro id
    cases howned : s.owns owner id with
    | false => rfl
    | true => simp [hkept id howned]
  have hgone : (s.removeAll ids).holdingsOf owner =
      (s.holdingsOf owner).pruned (· ∉ ids) := by
    have hcontexts : (s.removeAll ids).contexts = s.contexts.filter fun c => c.memoryId ∉ ids := rfl
    have haccesses : (s.removeAll ids).accesses = s.accesses.filter fun a => a.memoryId ∉ ids := rfl
    have hedges : (s.removeAll ids).relationships =
        s.relationships.filter fun q => q.source ∉ ids && q.target ∉ ids := rfl
    simp only [holdingsOf, Holdings.pruned, hm, howns, hcontexts, haccesses, hedges,
      List.filter_filter, hrows, Bool.and_comm]
  rw [hgone]
  refine Holdings.pruned_congr fun id hlink => ?_
  rw [Bool.eq_iff_iff, exists?_removeAll, decide_eq_true_eq]
  exact (and_iff_right (hs.exists?_of_linksTo hlink)).symm

end Store

end LongTermMemory
