import LongTermMemory.Proofs.Outcome
import LongTermMemory.Store.Query

/-!
What each operation of the store writes, told by the list of its memories: it adds one at the end,
changes the one of an id, or removes the one of an id.
-/

namespace LongTermMemory

/-- Changes the memory of one id. -/
def Memory.editAt (id : MemoryId) (f : Memory → Memory) (m : Memory) : Memory :=
  if m.id = id then f m else m

/-- A memory after the removal of another one. -/
def Memory.orphanedBy (id : MemoryId) (m : Memory) : Memory :=
  if m.parent = some id then { m with parent := none } else m

namespace Memory

theorem editAt_id {id : MemoryId} {f : Memory → Memory} (hf : ∀ m, (f m).id = m.id) (m : Memory) :
    (m.editAt id f).id = m.id := by
  unfold editAt
  split
  · exact hf m
  · rfl

@[simp] theorem orphanedBy_id (id : MemoryId) (m : Memory) : (m.orphanedBy id).id = m.id := by
  unfold orphanedBy
  split <;> rfl

@[simp] theorem readAt_id (now : Instant) (m : Memory) : (m.readAt now).id = m.id := rfl

@[simp] theorem readAt_version (now : Instant) (m : Memory) :
    (m.readAt now).version = m.version := rfl

end Memory

namespace Store

/-- The memories as they are kept, by ascending id. -/
def memories (s : Store) : List Memory := s.entries.map (·.memory)

theorem memoriesOf_eq (s : Store) (owner : String) :
    s.memoriesOf owner = s.memories.filter fun m => m.owner = owner := by
  rw [memoriesOf, entriesOf, memories, List.filter_map]
  rfl

theorem mem_memoriesOf {s : Store} {owner : String} {m : Memory} :
    m ∈ s.memoriesOf owner ↔ m ∈ s.memories ∧ m.owner = owner := by
  rw [memoriesOf_eq, List.mem_filter, decide_eq_true_eq]

theorem count_eq (s : Store) (owner : String) : s.count owner = (s.memoriesOf owner).length :=
  (List.length_map _).symm

theorem kept?_eq (s : Store) (id : MemoryId) : s.kept? id = s.memories.find? (·.id = id) := by
  rw [kept?, entry?, memories, List.find?_map]
  rfl

theorem mem_of_kept? {s : Store} {id : MemoryId} {m : Memory} (h : s.kept? id = some m) :
    m ∈ s.memories ∧ m.id = id := by
  rw [kept?_eq] at h
  exact ⟨List.mem_of_find?_eq_some h, by simpa using List.find?_some h⟩

theorem kept?_eq_none {s : Store} {id : MemoryId} :
    s.kept? id = none ↔ ∀ m ∈ s.memories, m.id ≠ id := by
  simp [kept?_eq]

theorem exists?_iff {s : Store} {id : MemoryId} :
    s.exists? id = true ↔ ∃ m ∈ s.memories, m.id = id := by
  simp only [exists?, memories, List.any_eq_true, List.mem_map, decide_eq_true_eq]
  constructor
  · rintro ⟨e, he, hid⟩
    exact ⟨e.memory, ⟨e, he, rfl⟩, hid⟩
  · rintro ⟨m, ⟨e, he, rfl⟩, hid⟩
    exact ⟨e, he, hid⟩

theorem exists?_eq_isSome (s : Store) (id : MemoryId) : s.exists? id = (s.kept? id).isSome := by
  rw [Bool.eq_iff_iff, exists?_iff, kept?_eq, List.find?_isSome]
  simp

theorem kept?_of_exists? {s : Store} {id : MemoryId} (h : s.exists? id = true) :
    ∃ m, s.kept? id = some m := by
  rw [exists?_eq_isSome] at h
  exact Option.isSome_iff_exists.mp h

theorem get_eq_ok {s : Store} {now : Instant} {id : MemoryId} {m : Memory} :
    s.get now id = .ok m ↔ ∃ k, s.kept? id = some k ∧ k.readAt now = m := by
  unfold get
  cases s.kept? id <;> simp

/-! ## Changing one memory -/

theorem memories_modify {s : Store} {id : MemoryId} {f : Entry → Entry} {g : Memory → Memory}
    (h : ∀ e, (f e).memory = g e.memory) :
    (s.modify id f).memories = s.memories.map (·.editAt id g) := by
  simp only [memories, modify, List.map_map]
  refine List.map_congr_left fun e _ => ?_
  simp only [Function.comp_apply, Memory.editAt]
  split
  · exact h e
  · rfl

@[simp] theorem memories_modifyMemory (s : Store) (id : MemoryId) (f : Memory → Memory) :
    (s.modifyMemory id f).memories = s.memories.map (·.editAt id f) :=
  memories_modify fun _ => rfl

/-- A memory after some changes, with its tags. -/
def edited (now : Instant) (c : Changes) (tags : Option (List String)) (m : Memory) : Memory :=
  { changed now c m with tags := tags.getD m.tags }

/-- The tags that changes give a memory, and the names after them. -/
def changedTags (s : Store) (c : Changes) : Option (List String) × List String :=
  match c.tags with
  | none => (none, s.tagNames)
  | some tags => (some (keepTags s.tagNames tags).1, (keepTags s.tagNames tags).2)

def withChanges (s : Store) (now : Instant) (id : MemoryId) (c : Changes) : Store :=
  { s.modify id (changedEntry now c (s.changedTags c).1) with tagNames := (s.changedTags c).2 }

@[simp] theorem memories_withChanges (s : Store) (now : Instant) (id : MemoryId) (c : Changes) :
    (s.withChanges now id c).memories =
      s.memories.map (·.editAt id (edited now c (s.changedTags c).1)) :=
  memories_modify fun _ => rfl

theorem update_eq {s : Store} {now : Instant} {id : MemoryId} {c : Changes} {old : Memory}
    (hk : s.kept? id = some old) (hv : ∀ v, c.expectedVersion = some v → v = old.version) :
    s.update now id c = (do
      requireConstraint (c.importance.all importanceInRange) .importanceRange
      requireConstraint (c.confidence.all Single.inUnit) .confidenceRange
      let m ← (s.withChanges now id c).get now id
      .ok (m, s.withChanges now id c)) := by
  have hget : s.get now id = .ok (old.readAt now) := get_eq_ok.mpr ⟨old, hk, rfl⟩
  unfold update withChanges changedTags
  rw [hget]
  cases hexp : c.expectedVersion with
  | none => cases c.tags <;> rfl
  | some v =>
    have heq : v = (old.readAt now).version := hv v hexp
    cases c.tags <;> simp [Bind.bind, Except.bind, heq]

theorem update_of_gone {s : Store} {now : Instant} {id : MemoryId} {c : Changes}
    (hk : s.kept? id = none) : s.update now id c = .error (.notFound id) := by
  simp [update, get, hk, Bind.bind, Except.bind]

/-- Changes for another version than the one kept are refused. -/
theorem update_of_stale {s : Store} {now : Instant} {id : MemoryId} {c : Changes} {old : Memory}
    {v : Int} (hk : s.kept? id = some old) (hexp : c.expectedVersion = some v)
    (hv : v ≠ old.version) :
    s.update now id c = .error (.conflict (.version id old.version v)) := by
  simp only [update, get, hk, hexp]
  simp [Bind.bind, Except.bind, hv, throw, throwThe, MonadExceptOf.throw]

theorem update_eq_ok {s s' : Store} {now : Instant} {id : MemoryId} {c : Changes} {m : Memory}
    (h : s.update now id c = .ok (m, s')) :
    ∃ old, s.kept? id = some old ∧ (∀ v, c.expectedVersion = some v → v = old.version) ∧
      c.importance.all importanceInRange = true ∧ c.confidence.all Single.inUnit = true ∧
      s' = s.withChanges now id c := by
  cases hk : s.kept? id with
  | none =>
    rw [update_of_gone hk] at h
    cases h
  | some old =>
    have hv : ∀ v, c.expectedVersion = some v → v = old.version := by
      intro v hexp
      refine Decidable.byContradiction fun hne => ?_
      rw [update_of_stale hk hexp hne] at h
      cases h
    rw [update_eq hk hv] at h
    obtain ⟨_, hi, h⟩ := bind_eq_ok.mp h
    obtain ⟨_, hc, h⟩ := bind_eq_ok.mp h
    obtain ⟨read, -, h⟩ := bind_eq_ok.mp h
    cases h
    exact ⟨old, rfl, hv, requireConstraint_eq_ok.mp hi, requireConstraint_eq_ok.mp hc, rfl⟩

/-! ## Adding a memory -/

/-- A context as it is kept. -/
def keptContext (id : Int) (memoryId : MemoryId) (c : NewContext) : Context :=
  { newContext id memoryId c with confidence := c.confidence.stored }

/-- What a store adds when it adds contexts of one memory. -/
theorem addContexts_eq (s : Store) (id : MemoryId) (cs : List NewContext) :
    s.addContexts id cs =
      { s with
        contexts := s.contexts ++
          cs.mapIdx fun i c => keptContext (s.lastContextId + 1 + i) id c
        lastContextId := s.lastContextId + cs.length } := by
  induction cs generalizing s with
  | nil => simp [addContexts]
  | cons c cs ih =>
    have hstep : s.addContexts id (c :: cs) = (s.addContext id c).2.addContexts id cs := rfl
    have hshift (i : Nat) : s.lastContextId + 1 + 1 + i = s.lastContextId + 1 + (i + 1 : Nat) := by
      omega
    have hlength : s.lastContextId + 1 + cs.length = s.lastContextId + (cs.length + 1 : Nat) := by
      omega
    rw [hstep, ih, List.mapIdx_cons, List.length_cons]
    simp [addContext, keptContext, hshift, hlength]

/-- The memory that an accepted request becomes. -/
def newcomer (s : Store) (now : Instant) (r : NewMemory) : Memory :=
  newMemory now (s.lastMemoryId + 1) (keepTags s.tagNames r.tags).1 r

/-- A new memory is read at once as it is kept. -/
theorem readAt_newcomer (s : Store) (now : Instant) (r : NewMemory) :
    (s.newcomer now r).readAt now = s.newcomer now r := by
  have hstamp : (if now.readable then now else now) = now := ite_self now
  unfold newcomer newMemory Memory.readAt
  dsimp only
  rw [hstamp]
  rfl

def withNewcomer (s : Store) (now : Instant) (r : NewMemory) : Store :=
  addContexts
    { s with
      entries := s.entries ++ [Entry.ofMemory (s.newcomer now r)]
      tagNames := (keepTags s.tagNames r.tags).2
      lastMemoryId := s.lastMemoryId + 1 }
    (s.lastMemoryId + 1) r.contexts

theorem create_eq_ok {s : Store} {now : Instant} {r : NewMemory} {a : Memory × Store} :
    s.create now r = .ok a ↔
      importanceInRange r.importance = true ∧ r.confidence.inUnit = true ∧
        (∀ p, r.parent = some p → p = s.lastMemoryId + 1 ∨ s.exists? p = true) ∧
        a = ((s.newcomer now r).readAt now, s.withNewcomer now r) := by
  have hparent : r.parent.all (fun p => p = s.lastMemoryId + 1 || s.exists? p) = true ↔
      ∀ p, r.parent = some p → p = s.lastMemoryId + 1 ∨ s.exists? p = true := by
    cases r.parent <;> simp
  unfold create
  simp only [bind_eq_ok, requireConstraint_eq_ok, exists_and_left, exists_const, hparent]
  refine and_congr_right fun _ => and_congr_right fun _ => and_congr_right fun _ => ?_
  exact ⟨fun h => (Except.ok.inj h).symm, fun h => congrArg Except.ok h.symm⟩

/-- Beside the memory a request adds only contexts, and uses up one id. -/
theorem withNewcomer_eq (s : Store) (now : Instant) (r : NewMemory) :
    ∃ kept last, s.withNewcomer now r =
        { s with
          entries := s.entries ++ [Entry.ofMemory (s.newcomer now r)]
          contexts := s.contexts ++ kept
          tagNames := (keepTags s.tagNames r.tags).2
          lastMemoryId := s.lastMemoryId + 1
          lastContextId := last } ∧
      ∀ k ∈ kept, k.memoryId = s.lastMemoryId + 1 ∧
        ∃ c ∈ r.contexts, k.confidence = c.confidence.stored := by
  refine ⟨_, _, addContexts_eq _ _ _, fun k hk => ?_⟩
  obtain ⟨i, hi, rfl⟩ := List.mem_mapIdx.mp hk
  exact ⟨rfl, r.contexts[i], List.getElem_mem hi, rfl⟩

@[simp] theorem memories_withNewcomer (s : Store) (now : Instant) (r : NewMemory) :
    (s.withNewcomer now r).memories = s.memories ++ [s.newcomer now r] := by
  obtain ⟨kept, last, heq, -⟩ := withNewcomer_eq s now r
  rw [heq]
  simp [memories, Entry.ofMemory]

@[simp] theorem lastMemoryId_withNewcomer (s : Store) (now : Instant) (r : NewMemory) :
    (s.withNewcomer now r).lastMemoryId = s.lastMemoryId + 1 := by
  obtain ⟨kept, last, heq, -⟩ := withNewcomer_eq s now r
  rw [heq]

@[simp] theorem tagNames_withNewcomer (s : Store) (now : Instant) (r : NewMemory) :
    (s.withNewcomer now r).tagNames = (keepTags s.tagNames r.tags).2 := by
  obtain ⟨kept, last, heq, -⟩ := withNewcomer_eq s now r
  rw [heq]

/-! ## Removing a memory -/

@[simp] theorem memories_remove (s : Store) (id : MemoryId) :
    (s.remove id).memories =
      (s.memories.filter fun m => m.id ≠ id).map (·.orphanedBy id) := by
  simp only [memories, remove, List.filter_map, List.map_map]
  refine List.map_congr_left fun e _ => ?_
  simp only [Function.comp_apply, Memory.orphanedBy]
  split <;> rfl

theorem delete_eq_ok {s s' : Store} {id : MemoryId} :
    s.delete id = .ok s' ↔ s.exists? id = true ∧ s.remove id = s' := by
  unfold delete
  split
  · next h => simp [h]
  · next h => simp [h]

/-! ## Accesses and the passes -/

/-- A store with one more access of a memory. -/
def withAccess (s : Store) (now : Instant) (id : MemoryId) (n : AccessNote) : Store :=
  { s.modifyMemory id (accessed now) with
    accesses := s.accesses ++ [newAccess now (s.lastAccessId + 1) id n]
    lastAccessId := s.lastAccessId + 1 }

@[simp] theorem memories_withAccess (s : Store) (now : Instant) (id : MemoryId) (n : AccessNote) :
    (s.withAccess now id n).memories = s.memories.map (·.editAt id (accessed now)) :=
  memories_modifyMemory s id (accessed now)

theorem recordAccess_eq_ok {s s' : Store} {now : Instant} {id : MemoryId} {n : AccessNote} :
    s.recordAccess now id n = .ok s' ↔ s.exists? id = true ∧ s.withAccess now id n = s' := by
  unfold recordAccess
  split
  · next hid => simp [hid, withAccess]
  · next hid => simp [hid]

theorem archiveIfVersion_of_kept {s : Store} {now : Instant} {id : MemoryId} {reason : String}
    {m : Memory} (hk : s.kept? id = some m) (ha : m.archived = false) :
    s.archiveIfVersion now id m.version reason =
      (true, s.modifyMemory id (archivedMemory now reason)) := by
  simp [archiveIfVersion, hk, ha]

theorem archiveIfVersion_cases (s : Store) (now : Instant) (id : MemoryId) (version : Int)
    (reason : String) :
    s.archiveIfVersion now id version reason = (false, s) ∨
      s.archiveIfVersion now id version reason =
        (true, s.modifyMemory id (archivedMemory now reason)) := by
  unfold archiveIfVersion
  split
  · split
    · exact Or.inr rfl
    · exact Or.inl rfl
  · exact Or.inl rfl

theorem age_of_kept {s : Store} {t : Instant} {id : MemoryId} {importance : Int} {m : Memory}
    (hk : s.kept? id = some m) (hi : importanceInRange importance = true) :
    s.age t id m.version importance =
      .ok (true, s.modifyMemory id (agedMemory t importance)) := by
  simp [age, hk, requireConstraint, hi, Bind.bind, Except.bind]

theorem age_eq_ok {s s' : Store} {t : Instant} {id : MemoryId} {version importance : Int}
    {done : Bool} (h : s.age t id version importance = .ok (done, s')) :
    s' = s ∨ importanceInRange importance = true ∧
      s' = s.modifyMemory id (agedMemory t importance) := by
  unfold age at h
  split at h
  · split at h
    · obtain ⟨_, hi, h⟩ := bind_eq_ok.mp h
      cases h
      exact Or.inr ⟨requireConstraint_eq_ok.mp hi, rfl⟩
    · cases h
      exact Or.inl rfl
  · cases h
    exact Or.inl rfl

/-! ## Relating memories -/

/-- The edge that a request adds to a store without it. -/
def newEdge (s : Store) (now : Instant) (r : NewRelationship) : Relationship :=
  { id := s.lastRelationshipId + 1
    source := r.source
    target := r.target
    type := r.type
    strength := r.strength.stored
    description := r.description
    createdAt := now }

/-- A store with the edge that a request wants: a new one, or the one between the same memories of
the same type with a new strength and description. -/
def withEdge (s : Store) (now : Instant) (r : NewRelationship) : Store :=
  { s with
    relationships :=
      match s.relationships.find? (sameEdge r) with
      | some e => s.relationships.map fun q =>
          if sameEdge r q then
            { e with strength := r.strength.stored, description := r.description }
          else q
      | none => s.relationships ++ [s.newEdge now r]
    lastRelationshipId := s.lastRelationshipId + 1 }

theorem relate_eq_ok {s s' : Store} {now : Instant} {r : NewRelationship} {q : Relationship}
    (h : s.relate now r = .ok (q, s')) :
    s.exists? r.source = true ∧ s.exists? r.target = true ∧ s.withEdge now r = s' := by
  unfold relate at h
  obtain ⟨a, ha, h⟩ := bind_eq_ok.mp h
  obtain ⟨b, hb, h⟩ := bind_eq_ok.mp h
  obtain ⟨source, hsource, -⟩ := get_eq_ok.mp ha
  obtain ⟨target, htarget, -⟩ := get_eq_ok.mp hb
  refine ⟨exists?_iff.mpr ⟨source, mem_of_kept? hsource⟩,
    exists?_iff.mpr ⟨target, mem_of_kept? htarget⟩, ?_⟩
  unfold withEdge
  cases hfind : s.relationships.find? (sameEdge r) with
  | some e =>
    rw [hfind] at h
    cases h
    rfl
  | none =>
    rw [hfind] at h
    cases h
    rfl

theorem sameEdge_iff {r : NewRelationship} {q : Relationship} :
    sameEdge r q = true ↔ q.source = r.source ∧ q.target = r.target ∧ q.type = r.type := by
  simp [sameEdge, and_assoc]

/-- Each edge is an old one, or has the ends and the strength of the request. -/
theorem mem_relationships_withEdge {s : Store} {now : Instant} {r : NewRelationship}
    {q : Relationship} (h : q ∈ (s.withEdge now r).relationships) :
    q ∈ s.relationships ∨
      q.source = r.source ∧ q.target = r.target ∧ q.strength = r.strength.stored := by
  simp only [withEdge] at h
  split at h
  · next e hfind =>
    obtain ⟨f, hf, rfl⟩ := List.mem_map.mp h
    split
    · obtain ⟨hsource, htarget, -⟩ := sameEdge_iff.mp (List.find?_some hfind)
      exact Or.inr ⟨hsource, htarget, rfl⟩
    · exact Or.inl hf
  · rcases List.mem_append.mp h with h | h
    · exact Or.inl h
    · rw [List.mem_singleton.mp h]
      exact Or.inr ⟨rfl, rfl, rfl⟩

theorem relate_of_new {s : Store} {now : Instant} {r : NewRelationship}
    (hs : s.exists? r.source = true) (ht : s.exists? r.target = true)
    (hnew : ∀ e ∈ s.relationships, sameEdge r e = false) :
    s.relate now r = .ok ((s.newEdge now r).readAt now,
      { s with
        relationships := s.relationships ++ [s.newEdge now r]
        lastRelationshipId := s.lastRelationshipId + 1 }) := by
  obtain ⟨a, ha⟩ := kept?_of_exists? hs
  obtain ⟨b, hb⟩ := kept?_of_exists? ht
  have hfind : s.relationships.find? (sameEdge r) = none :=
    List.find?_eq_none.mpr fun e he => by simp [hnew e he]
  simp [relate, get, ha, hb, hfind, Bind.bind, Except.bind, newEdge]

end Store

end LongTermMemory
