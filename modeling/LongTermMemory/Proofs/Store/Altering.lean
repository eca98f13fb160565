import LongTermMemory.Proofs.Page

/-!
Changing and removing many memories at once, and that doing so one memory after another comes to
the same.
-/

namespace LongTermMemory

namespace Store

/-- Changes the memories that satisfy `p`. -/
def modifyWhere (s : Store) (p : Memory → Bool) (f : Memory → Memory) : Store :=
  { s with
    entries := s.entries.map fun e => if p e.memory then { e with memory := f e.memory } else e }

/-- Removes the memories of some ids with all that belongs to them. -/
def removeAll (s : Store) (ids : List MemoryId) : Store :=
  { s with
    entries := (s.entries.filter fun e => e.memory.id ∉ ids).map fun e =>
      if e.memory.parent.any (· ∈ ids) then { e with memory := { e.memory with parent := none } }
      else e
    contexts := s.contexts.filter fun c => c.memoryId ∉ ids
    relationships := s.relationships.filter fun r => r.source ∉ ids && r.target ∉ ids
    accesses := s.accesses.filter fun a => a.memoryId ∉ ids }

variable {s : Store} {p : Memory → Bool} {f : Memory → Memory}

/-! ## Changing -/

@[simp] theorem memories_modifyWhere (s : Store) (p : Memory → Bool) (f : Memory → Memory) :
    (s.modifyWhere p f).memories = s.memories.map fun m => if p m then f m else m := by
  simp only [memories, modifyWhere, List.map_map]
  refine List.map_congr_left fun e _ => ?_
  simp only [Function.comp_apply]
  split <;> rfl

theorem modifyWhere_congr {q : Memory → Bool} {g : Memory → Memory}
    (hpq : ∀ m ∈ s.memories, p m = q m) (hfg : ∀ m ∈ s.memories, p m = true → f m = g m) :
    s.modifyWhere p f = s.modifyWhere q g := by
  unfold modifyWhere
  congr 1
  refine List.map_congr_left fun e he => ?_
  have hm : e.memory ∈ s.memories := List.mem_map_of_mem he
  rw [← hpq e.memory hm]
  split
  · next hp => rw [hfg e.memory hm hp]
  · rfl

@[simp] theorem modifyWhere_none (s : Store) (f : Memory → Memory) :
    (s.modifyWhere (fun m => decide (m.id ∈ ([] : List MemoryId))) f) = s := by
  simp [modifyWhere]

/-- Two changes of different memories are one change. -/
theorem modifyWhere_modifyWhere {q : Memory → Bool} (h : ∀ m, p m = true → q (f m) = false) :
    (s.modifyWhere p f).modifyWhere q f = s.modifyWhere (fun m => p m || q m) f := by
  unfold modifyWhere
  congr 1
  rw [List.map_map]
  refine List.map_congr_left fun e _ => ?_
  simp only [Function.comp_apply]
  by_cases hp : p e.memory = true
  · simp [hp, h e.memory hp]
  · simp [hp]

theorem modifyMemory_eq_modifyWhere (s : Store) (id : MemoryId) (f : Memory → Memory) :
    s.modifyMemory id f = s.modifyWhere (·.id = id) f := by
  simp [modifyMemory, modify, modifyWhere]

/-- The memory of an id after a change is the changed one. -/
theorem kept?_modifyWhere (hid : ∀ m, (f m).id = m.id) (id : MemoryId) :
    (s.modifyWhere p f).kept? id = (s.kept? id).map fun m => if p m then f m else m := by
  have hsame : ∀ m : Memory, (if p m then f m else m).id = m.id := by
    intro m
    split
    · exact hid m
    · rfl
  rw [kept?_eq, kept?_eq, memories_modifyWhere, List.find?_map]
  congr 2
  funext m
  simp [hsame m]

theorem exists?_modifyWhere (hid : ∀ m, (f m).id = m.id) (id : MemoryId) :
    (s.modifyWhere p f).exists? id = s.exists? id := by
  refine exists?_congr ?_ id
  rw [memories_modifyWhere, List.map_map]
  refine List.map_congr_left fun m _ => ?_
  simp only [Function.comp_apply]
  split
  · exact hid m
  · rfl

/-- After the memories of some ids, one more is changed. -/
theorem modifyWhere_modifyMemory (hs : s.Sound) (hid : ∀ m, (f m).id = m.id) {ids : List MemoryId}
    {id : MemoryId} (hnot : id ∉ ids) {g : Memory → Memory} {m : Memory}
    (hm : s.kept? id = some m) (hg : g m = f m) :
    (s.modifyWhere (·.id ∈ ids) f).modifyMemory id g =
      s.modifyWhere (·.id ∈ ids ++ [id]) f := by
  unfold modifyMemory modify modifyWhere
  congr 1
  rw [List.map_map]
  refine List.map_congr_left fun e he => ?_
  simp only [Function.comp_apply, List.mem_append, List.mem_singleton, decide_eq_true_eq]
  by_cases hin : e.memory.id ∈ ids
  · have hne : e.memory.id ≠ id := fun heq => hnot (heq ▸ hin)
    simp [hin, hid, hne]
  · by_cases heq : e.memory.id = id
    · have hkept := hs.kept?_of_mem (m := e.memory) (List.mem_map_of_mem he)
      rw [heq, hm] at hkept
      cases hkept
      simp [heq, hnot, hg]
    · simp [hin, heq]

/-- What lies past a cursor is not changed by changes before it. -/
theorem past_activeAt_modifyWhere (hid : ∀ m, (f m).id = m.id) {after : Option MemoryId}
    (hbefore : ∀ m ∈ s.memories, p m = true → ∃ c, after = some c ∧ m.id ≤ c) (now : Instant)
    (owner : String) :
    past after ((s.modifyWhere p f).activeAt now owner) = past after (s.activeAt now owner) := by
  unfold activeAt
  rw [memories_modifyWhere]
  generalize s.memories = ms at hbefore
  induction ms with
  | nil => rfl
  | cons m ms ih =>
    have hrest := ih fun k hk => hbefore k (by simp [hk])
    rw [List.map_cons]
    by_cases hp : p m = true
    · obtain ⟨c, rfl, hle⟩ := hbefore m (by simp) hp
      have hskip : ∀ (k : Memory) (ks : List Memory), k.id = m.id →
          past (some c) (((k :: ks).filter fun m => m.owner = owner && !m.archived).map
            (·.readAt now)) = past (some c) ((ks.filter fun m => m.owner = owner &&
              !m.archived).map (·.readAt now)) := by
        intro k ks hk
        have hnot : ¬ c < k.id := Int.not_lt.mpr (hk ▸ hle)
        rw [List.filter_cons]
        split
        · simp [past, hnot]
        · rfl
      rw [hskip _ _ (by simp [hp, hid]), hskip m ms rfl]
      exact hrest
    · simp only [hp, Bool.false_eq_true, ↓reduceIte]
      rw [List.filter_cons, List.filter_cons]
      split
      · simp only [List.map_cons, past, List.filter_cons]
        split
        · exact congrArg _ hrest
        · exact hrest
      · exact hrest

/-! ## Removing -/

theorem memories_removeAll (s : Store) (ids : List MemoryId) : (s.removeAll ids).memories =
    (s.memories.filter fun m => m.id ∉ ids).map fun m =>
      { m with parent := m.parent.filter (· ∉ ids) } := by
  have hparent : ∀ o : Option MemoryId,
      o.filter (· ∉ ids) = if o.any (· ∈ ids) then none else o := by
    intro o
    cases o with
    | none => rfl
    | some p => by_cases hin : p ∈ ids <;> simp [hin]
  simp only [memories, removeAll, List.filter_map, List.map_map, hparent]
  refine List.map_congr_left fun e _ => ?_
  simp only [Function.comp_apply]
  split <;> rfl

theorem removeAll_nil (s : Store) : s.removeAll [] = s := by
  have horphan : ∀ e : Entry, (if e.memory.parent.any (· ∈ ([] : List MemoryId)) then
      { e with memory := { e.memory with parent := none } } else e) = e := by
    intro e
    cases e.memory.parent <;> simp
  simp only [removeAll, horphan]
  simp

theorem removeAll_congr {ids ids' : List MemoryId} (h : ∀ id, id ∈ ids ↔ id ∈ ids') :
    s.removeAll ids = s.removeAll ids' := by
  simp only [removeAll, h]

theorem exists?_removeAll {ids : List MemoryId} {id : MemoryId} :
    (s.removeAll ids).exists? id = true ↔ s.exists? id = true ∧ id ∉ ids := by
  have hsame : ∀ e : Entry, (if e.memory.parent.any (· ∈ ids) then
      { e with memory := { e.memory with parent := none } } else e).memory.id = e.memory.id := by
    intro e
    split <;> rfl
  simp only [exists?, removeAll, List.any_map, List.any_filter, List.any_eq_true,
    Function.comp_apply, hsame, Bool.and_eq_true, decide_eq_true_eq]
  constructor
  · rintro ⟨e, he, hnot, rfl⟩
    exact ⟨⟨e, he, rfl⟩, hnot⟩
  · rintro ⟨⟨e, he, rfl⟩, hnot⟩
    exact ⟨e, he, hnot, rfl⟩

/-- After the memories of some ids, one more is removed. -/
theorem removeAll_remove (s : Store) (ids : List MemoryId) (id : MemoryId) :
    (s.removeAll ids).remove id = s.removeAll (ids ++ [id]) := by
  have hsame : ∀ e : Entry, (if e.memory.parent.any (· ∈ ids) then
      { e with memory := { e.memory with parent := none } } else e).memory.id = e.memory.id := by
    intro e
    split <;> rfl
  have hentries : ∀ es : List Entry,
      (((es.filter fun e => e.memory.id ∉ ids).map fun e =>
        if e.memory.parent.any (· ∈ ids) then
          { e with memory := { e.memory with parent := none } } else e).filter
            fun e => e.memory.id ≠ id).map (fun e =>
              if e.memory.parent = some id then
                { e with memory := { e.memory with parent := none } } else e) =
      (es.filter fun e => e.memory.id ∉ ids ++ [id]).map fun e =>
        if e.memory.parent.any (· ∈ ids ++ [id]) then
          { e with memory := { e.memory with parent := none } } else e := by
    intro es
    rw [List.filter_map, List.map_map, List.filter_filter]
    have hfilter : ∀ e : Entry, (decide (e.memory.id ≠ id) && decide (e.memory.id ∉ ids)) =
        decide (e.memory.id ∉ ids ++ [id]) := by
      intro e
      simp only [List.mem_append, List.mem_singleton, not_or, ne_eq, Bool.decide_and, Bool.and_comm]
    simp only [Function.comp_def, hsame, hfilter]
    refine List.map_congr_left fun e _ => ?_
    cases hparent : e.memory.parent with
    | none => simp [hparent]
    | some p =>
      by_cases hin : p ∈ ids
      · simp [hin]
      · simp [hparent, hin]
  have hedge : ∀ r : Relationship, (!r.touches id && (r.source ∉ ids && r.target ∉ ids)) =
      (r.source ∉ ids ++ [id] && r.target ∉ ids ++ [id]) := by
    intro r
    by_cases hsource : r.source = id
    · simp [Relationship.touches, hsource]
    · by_cases htarget : r.target = id
      · simp [Relationship.touches, htarget]
      · simp [Relationship.touches, hsource, htarget]
  simp only [remove, removeAll, hentries, List.filter_filter, hedge]
  congr 1
  · refine List.filter_congr fun c _ => ?_
    simp only [List.mem_append, List.mem_singleton, not_or, ne_eq, Bool.decide_and, Bool.and_comm]
  · refine List.filter_congr fun a _ => ?_
    simp only [List.mem_append, List.mem_singleton, not_or, ne_eq, Bool.decide_and, Bool.and_comm]

theorem remove_eq_removeAll (s : Store) (id : MemoryId) : s.remove id = s.removeAll [id] := by
  have hone := removeAll_remove s [] id
  rwa [removeAll_nil] at hone

end Store

end LongTermMemory
