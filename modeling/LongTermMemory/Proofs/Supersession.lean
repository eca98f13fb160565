import LongTermMemory.Proofs.Store.Altering
import LongTermMemory.Proofs.Store.Tags

/-!
Merging a group: one new memory stands for the members, supersedes each of them, and nothing else
changes. Two such changes of a store make one.
-/

namespace LongTermMemory

/-- A memory after its group was merged. -/
def Memory.superseded (now : Instant) (m : Memory) : Memory :=
  { m with
    archived := true
    archiveReason := some "consolidated"
    lastModified := now
    version := m.version + 1 }

theorem Memory.superseded_id (now : Instant) (m : Memory) : (m.superseded now).id = m.id := rfl

/-! ## Superseding -/

namespace Store

/-- A memory is kept, active and at the version at which it was read. -/
def Current (s : Store) (m : Memory) : Prop :=
  ∃ k, s.kept? m.id = some k ∧ k.version = m.version ∧ k.archived = false

/-- A store in which the memories of some ids are superseded. -/
def superseding (s : Store) (now : Instant) (ids : List MemoryId) : Store :=
  s.modifyWhere (·.id ∈ ids) (·.superseded now)

variable {s : Store} {now : Instant} {ids ids' : List MemoryId}

@[simp] theorem superseding_nil (s : Store) (now : Instant) : s.superseding now [] = s :=
  modifyWhere_none s _

theorem entries_superseding (s : Store) (now : Instant) (ids : List MemoryId) :
    (s.superseding now ids).entries = s.entries.map fun e =>
      if e.memory.id ∈ ids then { e with memory := e.memory.superseded now } else e := by
  simp [superseding, modifyWhere]

theorem superseding_superseding (h : ∀ id ∈ ids, id ∉ ids') :
    (s.superseding now ids).superseding now ids' = s.superseding now (ids ++ ids') := by
  have hothers : ∀ m : Memory, decide (m.id ∈ ids) = true →
      decide ((m.superseded now).id ∈ ids') = false :=
    fun m hm => decide_eq_false (h m.id (of_decide_eq_true hm))
  unfold superseding
  rw [modifyWhere_modifyWhere hothers]
  simp only [List.mem_append, Bool.decide_or]

theorem kept?_superseding (now : Instant) {id : MemoryId} (hid : id ∉ ids) :
    (s.superseding now ids).kept? id = s.kept? id := by
  unfold superseding
  rw [kept?_modifyWhere (Memory.superseded_id now)]
  cases hk : s.kept? id with
  | none => rfl
  | some m =>
    have hout : m.id ∉ ids := (mem_of_kept? hk).2 ▸ hid
    simp [hout]

/-- Superseding leaves the other memories as current as they were. -/
theorem current_superseding {m : Memory} (hm : m.id ∉ ids) :
    (s.superseding now ids).Current m ↔ s.Current m := by
  unfold Current
  rw [kept?_superseding now hm]

theorem exists?_superseding (id : MemoryId) :
    (s.superseding now ids).exists? id = s.exists? id :=
  exists?_modifyWhere (Memory.superseded_id now) id

theorem archiveIfVersion_eq {m : Memory} (hm : s.Current m) :
    s.archiveIfVersion now m.id m.version archivedAsConsolidated =
      (true, s.superseding now [m.id]) := by
  obtain ⟨k, hk, hversion, hactive⟩ := hm
  have hone : s.modifyMemory m.id (archivedMemory now archivedAsConsolidated) =
      s.superseding now [m.id] := by
    rw [modifyMemory_eq_modifyWhere]
    simp only [superseding, List.mem_singleton]
    rfl
  rw [← hversion, ← hone]
  exact archiveIfVersion_of_kept hk hactive

theorem archiveIfVersion_of_not_current {m : Memory} {reason : String} (hm : ¬ s.Current m) :
    s.archiveIfVersion now m.id m.version reason = (false, s) := by
  unfold archiveIfVersion
  split
  · next k hk =>
    refine if_neg fun h => hm ⟨k, hk, h.1, ?_⟩
    simpa using h.2
  · rfl

theorem current_withNewcomer {m : Memory} (hm : m.id ≤ s.lastMemoryId) (now : Instant)
    (r : NewMemory) : (s.withNewcomer now r).Current m ↔ s.Current m := by
  have hkept : (s.withNewcomer now r).kept? m.id = s.kept? m.id :=
    s.kept?_withNewcomer_of_ne now r (Int.ne_of_lt (Int.lt_add_one_of_le hm))
  unfold Current
  rw [hkept]

theorem Sound.le_of_current (hs : s.Sound) {m : Memory} (hm : s.Current m) :
    m.id ≤ s.lastMemoryId := by
  obtain ⟨k, hk, -⟩ := hm
  obtain ⟨hmem, hid⟩ := mem_of_kept? hk
  exact hid ▸ hs.bounded k hmem

end Store

def Relationship.ends (q : Relationship) : MemoryId × MemoryId × RelationshipType × Single :=
  (q.source, q.target, q.type, q.strength)

/-- What the edge from a new memory to a member of its group is. -/
def supersedes (merged member : MemoryId) : MemoryId × MemoryId × RelationshipType × Single :=
  (merged, member, .supersedes, Single.one)

/-- The edges from a new memory to the members of its group, of the ids after `last`. -/
def supersessions (now : Instant) (merged : MemoryId) : Int → List MemoryId → List Relationship
  | _, [] => []
  | last, member :: rest =>
    { id := last + 1
      source := merged
      target := member
      type := .supersedes
      strength := Single.one
      description := some "consolidated"
      createdAt := now } :: supersessions now merged (last + 1) rest

theorem ends_supersessions (now : Instant) (merged : MemoryId) (last : Int)
    (members : List MemoryId) :
    (supersessions now merged last members).map (·.ends) = members.map (supersedes merged) := by
  induction members generalizing last with
  | nil => rfl
  | cons member rest ih =>
    rw [supersessions, List.map_cons, List.map_cons, ih]
    rfl

namespace Engine

variable {now : Instant} {owner : String} {s : Store}

theorem sameEdge_supersession {merged member : MemoryId} {q : Relationship}
    (h : q.source = merged → q.target ≠ member) :
    Store.sameEdge (supersession merged member) q = false := by
  by_cases hsource : q.source = merged
  · simp [Store.sameEdge, supersession, h hsource]
  · simp [Store.sameEdge, supersession, hsource]

/-- The store after one memory, of the id `member`, is superseded. -/
def afterSuperseding (now : Instant) (merged member : MemoryId) (s : Store) : Store :=
  { s.superseding now [member] with
    relationships := s.relationships ++ supersessions now merged s.lastRelationshipId [member]
    lastRelationshipId := s.lastRelationshipId + 1 }

/-- A memory may supersede those of a group: it is kept, they are different memories, and it does
not supersede any of them yet. -/
structure Supersedable (s : Store) (merged : MemoryId) (group : List Memory) : Prop where
  source : s.exists? merged = true
  nodup : (group.map (·.id)).Nodup
  new : ∀ q ∈ s.relationships, q.source = merged → q.target ∉ group.map (·.id)

section

variable {merged : MemoryId} {m : Memory} {group rest : List Memory}

theorem Supersedable.tail (h : Supersedable s merged (m :: rest)) (now : Instant) :
    Supersedable (afterSuperseding now merged m.id s) merged rest := by
  obtain ⟨hm, hrest⟩ := List.nodup_cons.mp h.nodup
  refine ⟨(Store.exists?_superseding merged).trans h.source, hrest, fun q hq hsource => ?_⟩
  rcases List.mem_append.mp hq with hq | hq
  · intro hin
    exact h.new q hq hsource (List.mem_cons_of_mem _ hin)
  · rw [List.mem_singleton.mp hq]
    exact hm

/-- Superseding the first memory of a group leaves the others as current as they were. -/
theorem Supersedable.current_tail (h : Supersedable s merged (m :: rest)) (now : Instant)
    {n : Memory} (hn : n ∈ rest) :
    (afterSuperseding now merged m.id s).Current n ↔ s.Current n := by
  have hm : m.id ∉ rest.map (·.id) := (List.nodup_cons.mp h.nodup).1
  refine Store.current_superseding fun hin => hm ?_
  rw [← List.mem_singleton.mp hin]
  exact List.mem_map_of_mem hn

/-- A current memory is superseded. -/
theorem supersedeAll_cons (h : Supersedable s merged (m :: rest)) (hm : s.Current m) :
    supersedeAll now merged (m :: rest) s =
      supersedeAll now merged rest (afterSuperseding now merged m.id s) := by
  have htarget : s.exists? m.id = true := by
    obtain ⟨k, hk, -⟩ := hm
    exact Store.exists?_iff.mpr ⟨k, Store.mem_of_kept? hk⟩
  have hexists : ∀ id, (s.superseding now [m.id]).exists? id = s.exists? id :=
    Store.exists?_superseding
  have hrelate : (s.superseding now [m.id]).relate now (supersession merged m.id) = _ :=
    Store.relate_of_new ((hexists merged).trans h.source) ((hexists m.id).trans htarget)
    fun q hq => sameEdge_supersession fun hs heq => h.new q hq hs (by simp [heq])
  have hedge : (s.superseding now [m.id]).newEdge now (supersession merged m.id) ::
      supersessions now merged (s.lastRelationshipId + 1) [] =
        supersessions now merged s.lastRelationshipId [m.id] := by
    simp only [Store.newEdge, supersession, supersessions, Single.stored_one]
    rfl
  rw [supersedeAll, Store.archiveIfVersion_eq hm, afterSuperseding]
  dsimp only
  rw [if_pos rfl, hrelate, ← hedge]
  rfl

/-- Current memories are all superseded. -/
theorem supersedeAll_eq (h : Supersedable s merged group) (hgroup : ∀ m ∈ group, s.Current m) :
    supersedeAll now merged group s =
      .ok { s.superseding now (group.map (·.id)) with
        relationships := s.relationships ++
          supersessions now merged s.lastRelationshipId (group.map (·.id))
        lastRelationshipId := s.lastRelationshipId + group.length } := by
  induction group generalizing s with
  | nil => simp [supersedeAll, supersessions]
  | cons m rest ih =>
    have hrest : ∀ n ∈ rest, (afterSuperseding now merged m.id s).Current n := fun n hn =>
      (h.current_tail now hn).mpr (hgroup n (by simp [hn]))
    have hboth : (s.superseding now [m.id]).superseding now (rest.map (·.id)) =
        s.superseding now ((m :: rest).map (·.id)) :=
      Store.superseding_superseding fun id hid =>
        List.mem_singleton.mp hid ▸ (List.nodup_cons.mp h.nodup).1
    rw [supersedeAll_cons h (hgroup m (by simp)), ih (h.tail now) hrest, ← hboth]
    simp [afterSuperseding, Store.superseding, Store.modifyWhere, supersessions, Int.add_assoc,
      Int.add_comm 1]

/-- A memory that is not current stops the whole. -/
theorem supersedeAll_of_not_current (now : Instant) (h : Supersedable s merged group)
    (hgroup : ∃ m ∈ group, ¬ s.Current m) :
    ∃ id, supersedeAll now merged group s = .error (.conflict (.changedWhileMerging id)) := by
  induction group generalizing s with
  | nil => simp at hgroup
  | cons m rest ih =>
    by_cases hm : s.Current m
    · have hrest : ∃ n ∈ rest, ¬ (afterSuperseding now merged m.id s).Current n := by
        obtain ⟨n, hn, hbad⟩ := hgroup
        rcases List.mem_cons.mp hn with rfl | hn
        · exact absurd hm hbad
        · exact ⟨n, hn, fun hcurrent => hbad ((h.current_tail now hn).mp hcurrent)⟩
      rw [supersedeAll_cons h hm]
      exact ih (h.tail now) hrest
    · refine ⟨m.id, ?_⟩
      rw [supersedeAll, Store.archiveIfVersion_of_not_current hm]
      rfl

end

end Engine

/-! ## Mergers -/

/-- A group and the memory that takes its place. -/
structure Merger where
  group : List Memory
  result : Memory

namespace Merger

def ids (g : Merger) : List MemoryId := g.group.map (·.id)

/-- The new memory is an active one of the owner and tells the members of the group. -/
structure Proper (owner : String) (g : Merger) : Prop where
  owner : g.result.owner = owner
  active : g.result.archived = false
  related : g.result.related = g.ids
  parent : g.result.parent = none
  sourceType : g.result.sourceType = some "consolidation"

end Merger

/-- Active memories of an owner by ascending id, as they are read. -/
structure Readable (now : Instant) (owner : String) (s : Store) (group : List Memory) : Prop where
  active : ∀ m ∈ group, m ∈ s.activeAt now owner
  ascending : ById group

/-- All that some mergers change: the members are superseded, and new memories, of ids not given out
before, come with the edges to them. -/
structure Merged (now : Instant) (owner : String) (mergers : List Merger) (s s' : Store) :
    Prop where
  entries : s'.entries = (s.superseding now (mergers.flatMap (·.ids))).entries ++
    mergers.map fun g => Entry.ofMemory g.result
  relationships : ∃ edges, s'.relationships = s.relationships ++ edges ∧
    edges.map (·.ends) = mergers.flatMap fun g => g.ids.map (supersedes g.result.id)
  contexts : s'.contexts = s.contexts
  accesses : s'.accesses = s.accesses
  tagNames : ∃ added, s'.tagNames = s.tagNames ++ added
  proper : ∀ g ∈ mergers, g.Proper owner
  ascending : mergers.Pairwise fun g g' => g.result.id < g'.result.id
  fresh : ∀ g ∈ mergers, s.lastMemoryId < g.result.id ∧ g.result.id ≤ s'.lastMemoryId
  last : s.lastMemoryId ≤ s'.lastMemoryId

namespace Merged

variable {now : Instant} {owner : String} {mergers mergers' : List Merger} {s s₁ s' : Store}

theorem refl (now : Instant) (owner : String) (s : Store) : Merged now owner [] s s := by
  constructor <;> simp

/-- Mergers of other memories may follow. -/
theorem trans (h : Merged now owner mergers s s₁) (h' : Merged now owner mergers' s₁ s')
    (hknown : ∀ id ∈ mergers'.flatMap (·.ids), id ≤ s.lastMemoryId)
    (hothers : ∀ id ∈ mergers.flatMap (·.ids), id ∉ mergers'.flatMap (·.ids)) :
    Merged now owner (mergers ++ mergers') s s' := by
  constructor
  case entries =>
    have hnew : (mergers.map fun g => Entry.ofMemory g.result).map (fun e =>
        if e.memory.id ∈ mergers'.flatMap (·.ids) then
          { e with memory := e.memory.superseded now } else e) =
            mergers.map fun g => Entry.ofMemory g.result := by
      rw [List.map_map]
      refine List.map_congr_left fun g hg => if_neg fun hin => ?_
      exact absurd (hknown _ hin) (Int.not_le.mpr (h.fresh g hg).1)
    have hold : ((s.superseding now _).superseding now _).entries = _ :=
      congrArg Store.entries (Store.superseding_superseding hothers)
    rw [Store.entries_superseding, ← List.flatMap_append] at hold
    rw [h'.entries, Store.entries_superseding, h.entries, List.map_append, hold, hnew,
      List.map_append, List.append_assoc]
  case relationships =>
    obtain ⟨edges, heq, hends⟩ := h.relationships
    obtain ⟨edges', heq', hends'⟩ := h'.relationships
    refine ⟨edges ++ edges', by rw [heq', heq, List.append_assoc], ?_⟩
    rw [List.map_append, hends, hends', List.flatMap_append]
  case contexts => exact h'.contexts.trans h.contexts
  case accesses => exact h'.accesses.trans h.accesses
  case tagNames =>
    obtain ⟨added, hadded⟩ := h.tagNames
    obtain ⟨more, hmore⟩ := h'.tagNames
    exact ⟨added ++ more, by rw [hmore, hadded, List.append_assoc]⟩
  case proper =>
    intro g hg
    exact (List.mem_append.mp hg).elim (h.proper g) (h'.proper g)
  case ascending =>
    refine List.pairwise_append.mpr ⟨h.ascending, h'.ascending, fun g hg g' hg' => ?_⟩
    exact Int.lt_of_le_of_lt (h.fresh g hg).2 (h'.fresh g' hg').1
  case fresh =>
    intro g hg
    rcases List.mem_append.mp hg with hg | hg
    · exact ⟨(h.fresh g hg).1, Int.le_trans (h.fresh g hg).2 h'.last⟩
    · exact ⟨Int.lt_of_le_of_lt h.last (h'.fresh g hg).1, (h'.fresh g hg).2⟩
  case last => exact Int.le_trans h.last h'.last

/-- Mergers leave the active memories that they do not merge as they were. -/
theorem readable (h : Merged now owner mergers s s') {group : List Memory}
    (hgroup : Readable now owner s group)
    (hothers : ∀ m ∈ group, m.id ∉ mergers.flatMap (·.ids)) : Readable now owner s' group := by
  refine ⟨fun m hm => ?_, hgroup.ascending⟩
  obtain ⟨k, hk, howner, hactive, rfl⟩ := Store.mem_activeAt_iff.mp (hgroup.active m hm)
  refine Store.mem_activeAt_iff.mpr ⟨k, ?_, howner, hactive, rfl⟩
  obtain ⟨entry, hentry, rfl⟩ := List.mem_map.mp hk
  refine List.mem_map.mpr ⟨entry, ?_, rfl⟩
  rw [h.entries, Store.entries_superseding]
  exact List.mem_append_left _ (List.mem_map.mpr ⟨entry, hentry, if_neg (hothers _ hm)⟩)

/-- The edges from the memory of one merger among those of all. -/
theorem filter_edges {g : Merger} (hg : g ∈ mergers)
    (hids : mergers.Pairwise fun g g' => g.result.id < g'.result.id) :
    (mergers.flatMap fun g => g.ids.map (supersedes g.result.id)).filter
      (fun ends => ends.1 = g.result.id) = g.ids.map (supersedes g.result.id) := by
  have hself : ∀ g : Merger, (g.ids.map (supersedes g.result.id)).filter
      (fun ends => ends.1 = g.result.id) = g.ids.map (supersedes g.result.id) := by
    intro g
    refine List.filter_eq_self.mpr fun ends hends => ?_
    obtain ⟨id, -, rfl⟩ := List.mem_map.mp hends
    exact decide_eq_true rfl
  have hother : ∀ g g' : Merger, g.result.id ≠ g'.result.id →
      (g.ids.map (supersedes g.result.id)).filter (fun ends => ends.1 = g'.result.id) = [] := by
    intro g g' hne
    refine List.filter_eq_nil_iff.mpr fun ends hends => ?_
    obtain ⟨id, -, rfl⟩ := List.mem_map.mp hends
    exact fun heq => hne (of_decide_eq_true heq)
  induction mergers with
  | nil => cases hg
  | cons a rest ih =>
    obtain ⟨hfirst, hrest⟩ := List.pairwise_cons.mp hids
    rw [List.flatMap_cons, List.filter_append]
    rcases List.mem_cons.mp hg with rfl | hg
    · have hnone : (rest.flatMap fun g => g.ids.map (supersedes g.result.id)).filter
          (fun ends => ends.1 = g.result.id) = [] := by
        rw [List.filter_flatMap]
        refine List.flatMap_eq_nil_iff.mpr fun b hb => ?_
        exact hother b g (Int.ne_of_gt (hfirst b hb))
      rw [hself, hnone, List.append_nil]
    · rw [hother a g (Int.ne_of_lt (hfirst g hg)), ih hg hrest]
      rfl

/-- From each new memory leads one edge to each member of its group, and no other edge. -/
theorem edges_from (hs : s.Sound) (h : Merged now owner mergers s s') {g : Merger}
    (hg : g ∈ mergers) :
    (s'.relationships.filter fun q => q.source = g.result.id).map (·.ends) =
      g.ids.map (supersedes g.result.id) := by
  obtain ⟨edges, heq, hends⟩ := h.relationships
  have hold : (s.relationships.filter fun q => q.source = g.result.id) = [] := by
    refine List.filter_eq_nil_iff.mpr fun q hq hsource => ?_
    have hle := hs.exists?_le (hs.ends q hq).1
    rw [of_decide_eq_true hsource] at hle
    exact absurd (h.fresh g hg).1 (Int.not_lt.mpr hle)
  have hfilter : (edges.filter fun q => q.source = g.result.id).map (·.ends) =
      (edges.map (·.ends)).filter fun ends => ends.1 = g.result.id := by
    rw [List.filter_map]
    rfl
  rw [heq, List.filter_append, hold, List.nil_append, hfilter, hends]
  exact filter_edges hg h.ascending

end Merged

namespace Engine

variable {e : Engine} {now : Instant} {owner : String} {s : Store} {group : List Memory}

/-- An acceptable request for the memory of a group is carried out, and adds just that memory. -/
theorem create_of_prepared (s : Store) (now : Instant) {r : NewMemory}
    (hr : e.prepare (e.config.consolidation.mergedRequest owner group) = .ok r) :
    s.create now r = .ok ((s.newcomer now r).readAt now, s.withNewcomer now r) ∧
      s.withNewcomer now r =
        { s with
          entries := s.entries ++ [Entry.ofMemory (s.newcomer now r)]
          tagNames := (Store.keepTags s.tagNames r.tags).2
          lastMemoryId := s.lastMemoryId + 1 } := by
  have hcreate := create_of_prepare hr now (s := s) fun _ h => nomatch h
  obtain ⟨tags, -, rfl⟩ := prepare_eq_ok hr
  exact ⟨hcreate, rfl⟩

end Engine

namespace Readable

variable {e : Engine} {now : Instant} {owner : String} {s : Store} {group : List Memory}
  (hgroup : Readable now owner s group) (hs : s.Sound)
include hgroup hs

theorem kept {m : Memory} (hm : m ∈ group) : ∃ k, s.kept? m.id = some k ∧
    k.version = m.version ∧ k.archived = false ∧ k.owner = owner := by
  obtain ⟨k, hk, howner, hactive, rfl⟩ := Store.mem_activeAt_iff.mp (hgroup.active m hm)
  exact ⟨k, hs.kept?_of_mem hk, rfl, hactive, howner⟩

theorem id_le {id : MemoryId} (hid : id ∈ group.map (·.id)) : id ≤ s.lastMemoryId := by
  obtain ⟨m, hm, rfl⟩ := List.mem_map.mp hid
  obtain ⟨k, hk, -⟩ := hgroup.kept hs hm
  obtain ⟨hmem, hkid⟩ := Store.mem_of_kept? hk
  exact hkid ▸ hs.bounded k hmem

theorem proper (hne : group ≠ []) {r : NewMemory}
    (hr : e.prepare (e.config.consolidation.mergedRequest owner group) = .ok r) :
    Merger.Proper owner ⟨group, s.newcomer now r⟩ := by
  obtain ⟨tags, -, rfl⟩ := Engine.prepare_eq_ok hr
  refine
    { owner := ?_
      active := rfl
      related := Ascending.ofList_of_pairwise _ hgroup.ascending
      parent := rfl
      sourceType := rfl }
  obtain ⟨m, hm⟩ := List.exists_mem_of_ne_nil group hne
  obtain ⟨k, hk, -, -, rfl⟩ := hgroup.kept hs hm
  exact (hs.memories k (Store.mem_of_kept? hk).1).owner.2

end Readable

namespace Store

/-- The store in which a new memory, the one of a request, supersedes the memories of some ids. -/
def merging (s : Store) (now : Instant) (r : NewMemory) (ids : List MemoryId) : Store :=
  { s.superseding now ids with
    entries := (s.superseding now ids).entries ++ [Entry.ofMemory (s.newcomer now r)]
    relationships := s.relationships ++
      supersessions now (s.lastMemoryId + 1) s.lastRelationshipId ids
    tagNames := (keepTags s.tagNames r.tags).2
    lastMemoryId := s.lastMemoryId + 1
    lastRelationshipId := s.lastRelationshipId + ids.length }

theorem memories_merging (s : Store) (now : Instant) (r : NewMemory) (ids : List MemoryId) :
    (s.merging now r ids).memories = (s.superseding now ids).memories ++ [s.newcomer now r] := by
  rw [memories, merging, List.map_append]
  rfl

end Store

namespace Engine

variable {e : Engine} {now : Instant} {owner : String} {s : Store} {group : List Memory}

/-- A new memory may supersede any other memories. -/
theorem supersedable_newcomer (hs : s.Sound) (now : Instant) {r : NewMemory}
    (hr : e.prepare (e.config.consolidation.mergedRequest owner group) = .ok r)
    (hnodup : (group.map (·.id)).Nodup) :
    Supersedable (s.withNewcomer now r) (s.newcomer now r).id group := by
  refine ⟨Store.exists?_withNewcomer.mpr (Or.inr rfl), hnodup, fun q hq hsource => ?_⟩
  rw [(create_of_prepared s now hr).2] at hq
  have hle := hs.exists?_le (hs.ends q hq).1
  rw [hsource] at hle
  exact absurd (Int.lt_succ s.lastMemoryId) (Int.not_lt.mpr hle)

/-- What merging a group makes of the store, when the request for its new memory is acceptable and
its members are current. -/
theorem merge_eq_merging (hs : s.Sound) (hgroup : ∀ m ∈ group, s.Current m)
    (hnodup : (group.map (·.id)).Nodup) {r : NewMemory}
    (hr : e.prepare (e.config.consolidation.mergedRequest owner group) = .ok r) :
    e.merge now owner group s =
      .ok ((s.newcomer now r).readAt now, s.merging now r (group.map (·.id))) := by
  obtain ⟨hcreate, heq⟩ := create_of_prepared s now hr
  have hold : ∀ m ∈ group, (s.withNewcomer now r).Current m := fun m hm =>
    (Store.current_withNewcomer (hs.le_of_current (hgroup m hm)) now r).mpr (hgroup m hm)
  have hnew : (s.newcomer now r).id ∉ group.map (·.id) := by
    intro hin
    obtain ⟨m, hm, hid⟩ := List.mem_map.mp hin
    have hle := hs.le_of_current (hgroup m hm)
    rw [hid] at hle
    exact absurd (Int.lt_succ s.lastMemoryId) (Int.not_lt.mpr hle)
  have hsupersede : supersedeAll now _ group _ = _ :=
    supersedeAll_eq (supersedable_newcomer hs now hr hnodup) hold
  refine bind_eq_ok.mpr ⟨r, hr, bind_eq_ok.mpr ⟨_, hcreate, bind_eq_ok.mpr ⟨_, hsupersede, ?_⟩⟩⟩
  have hentries : ((s.withNewcomer now r).superseding now (group.map (·.id))).entries =
      (s.merging now r (group.map (·.id))).entries := by
    rw [heq, Store.entries_superseding, List.map_append]
    exact congrArg₂ _ (Store.entries_superseding s now _).symm
      (congrArg (fun e => [e]) (if_neg hnew))
  rw [heq] at hentries ⊢
  dsimp only
  rw [hentries]
  simp only [Store.merging, Store.superseding, Store.modifyWhere, List.length_map]
  rfl

/-- A group with a member that is not current is not merged. -/
theorem merge_of_not_current (hs : s.Sound) (now : Instant)
    (hids : ∀ m ∈ group, m.id ≤ s.lastMemoryId) (hnodup : (group.map (·.id)).Nodup)
    {r : NewMemory} (hr : e.prepare (e.config.consolidation.mergedRequest owner group) = .ok r)
    (hgroup : ∃ m ∈ group, ¬ s.Current m) :
    ∃ id, e.merge now owner group s = .error (.conflict (.changedWhileMerging id)) := by
  have hbad : ∃ m ∈ group, ¬ (s.withNewcomer now r).Current m := by
    obtain ⟨m, hm, hbad⟩ := hgroup
    exact ⟨m, hm, fun h => hbad ((Store.current_withNewcomer (hids m hm) now r).mp h)⟩
  obtain ⟨id, hid⟩ :=
    supersedeAll_of_not_current now (supersedable_newcomer hs now hr hnodup) hbad
  refine ⟨id, ?_⟩
  unfold merge
  rw [hr]
  simp only [Bind.bind, Except.bind, (create_of_prepared s now hr).1]
  have hsame : ((s.newcomer now r).readAt now).id = (s.newcomer now r).id := rfl
  rw [hsame, hid]

end Engine

namespace Readable

variable {e : Engine} {now : Instant} {owner : String} {s : Store} {group : List Memory}
  (hgroup : Readable now owner s group) (hs : s.Sound)
include hgroup hs

theorem current : ∀ m ∈ group, s.Current m := by
  intro m hm
  obtain ⟨k, hk, hversion, hactive, -⟩ := hgroup.kept hs hm
  exact ⟨k, hk, hversion, hactive⟩

/-- What merging a group changes. -/
theorem merged_merging (hne : group ≠ []) {r : NewMemory}
    (hr : e.prepare (e.config.consolidation.mergedRequest owner group) = .ok r) :
    Merged now owner [⟨group, s.newcomer now r⟩] s (s.merging now r (group.map (·.id))) := by
  constructor
  case entries => simp [Store.merging, Merger.ids]
  case relationships => exact ⟨_, rfl, by rw [ends_supersessions, List.flatMap_singleton]; rfl⟩
  case contexts => rfl
  case accesses => rfl
  case tagNames => exact Store.keepTags_names s.tagNames r.tags
  case proper =>
    intro g hg
    rw [List.mem_singleton.mp hg]
    exact hgroup.proper hs hne hr
  case ascending => exact List.pairwise_singleton _ _
  case fresh =>
    intro g hg
    rw [List.mem_singleton.mp hg]
    exact ⟨Int.lt_succ s.lastMemoryId, Int.le_refl _⟩
  case last => exact Int.le_of_lt (Int.lt_succ s.lastMemoryId)

end Readable

end LongTermMemory
