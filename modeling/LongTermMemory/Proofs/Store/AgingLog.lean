import LongTermMemory.Proofs.Lifecycle
import Mathlib.Data.List.Chain

/-!
The log of agings: one entry for each memory that an aging pass leaves less important than it was. A
memory remembers the last of its agings by a stamp that nothing but an aging pass writes, and a pass
that finds the stamp too young leaves the memory alone.
-/

namespace LongTermMemory

/-- A step in which a lifecycle run ages a memory. -/
structure Aging where
  clock : Instant
  asOf : Instant
  before : Memory
  after : Memory

/-- The agings of one memory. -/
def agingsOf (id : MemoryId) (log : List Aging) : List Aging := log.filter (·.before.id = id)

@[simp] theorem agingsOf_append (id : MemoryId) (log log' : List Aging) :
    agingsOf id (log ++ log') = agingsOf id log ++ agingsOf id log' :=
  List.filter_append ..

/-- The memories that one store has with another importance than a store before it. -/
def Store.agings (clock asOf : Instant) (s s' : Store) : List Aging :=
  s.memories.filterMap fun m => (s'.kept? m.id).bind fun m' =>
    if m'.importance = m.importance then none else some { clock, asOf, before := m, after := m' }

/-! ## What writes leave as it is -/

/-- What is told by `f` does not change when a memory is accessed or archived or loses its parent,
nor in such revisions as may be made. -/
structure Memory.Lasting {α : Type} (f : Memory → α) (may : Revision → Prop) : Prop where
  parent : ∀ m parent, f { m with parent } = f m
  accessed : ∀ now m, f (Store.accessed now m) = f m
  archived : ∀ now reason m, f (Store.archivedMemory now reason m) = f m
  updated : may .update → ∀ now c tags m, f (Store.edited now c tags m) = f m
  aged : may .age → ∀ now importance m, f (Store.agedMemory now importance m) = f m

/-- A later store tells by `f` the same of its memories as an earlier one, but for new memories. -/
structure Store.Preserves {α : Type} (f : Memory → α) (s s' : Store) : Prop where
  last_le : s.lastMemoryId ≤ s'.lastMemoryId
  same : ∀ m' ∈ s'.memories,
    s.lastMemoryId < m'.id ∨ ∃ m ∈ s.memories, m.id = m'.id ∧ f m' = f m

namespace Store.Preserves

variable {α : Type} {f : Memory → α} {s s' s'' : Store}

theorem refl (s : Store) : s.Preserves f s :=
  ⟨Int.le_refl _, fun m hm => .inr ⟨m, hm, rfl, rfl⟩⟩

theorem trans (h : s.Preserves f s') (h' : s'.Preserves f s'') : s.Preserves f s'' := by
  refine ⟨Int.le_trans h.last_le h'.last_le, fun m'' hm'' => ?_⟩
  rcases h'.same m'' hm'' with hnew | ⟨m', hm', hid', hf'⟩
  · exact Or.inl (Int.lt_of_le_of_lt h.last_le hnew)
  · rcases h.same m' hm' with hnew | ⟨m, hm, hid, hf⟩
    · exact Or.inl (hid' ▸ hnew)
    · exact Or.inr ⟨m, hm, hid.trans hid', hf'.trans hf⟩

/-- Changing one memory in what `f` does not tell of. -/
theorem edit {id : MemoryId} {g : Memory → Memory}
    (hm : s'.memories = s.memories.map (·.editAt id g)) (hid : ∀ m, (g m).id = m.id)
    (hf : ∀ m, f (g m) = f m) (hlast : s'.lastMemoryId = s.lastMemoryId) : s.Preserves f s' := by
  refine ⟨Int.le_of_eq hlast.symm, fun m' hm' => Or.inr ?_⟩
  obtain ⟨m, hmem, rfl⟩ := List.mem_map.mp (hm ▸ hm')
  refine ⟨m, hmem, (Memory.editAt_id hid m).symm, ?_⟩
  unfold Memory.editAt
  split
  · exact hf m
  · rfl

theorem write {v : Vocabulary} {may : Revision → Prop} (hf : Memory.Lasting f may)
    (hw : WriteOf v may s s') : s.Preserves f s' := by
  cases hw with
  | @create now r hr hp =>
    have hlast := lastMemoryId_withNewcomer s now r
    refine ⟨hlast ▸ Int.le_of_lt (Int.lt_succ _), fun m' hm' => ?_⟩
    rw [memories_withNewcomer] at hm'
    rcases List.mem_append.mp hm' with hm | hm
    · exact Or.inr ⟨m', hm, rfl, rfl⟩
    · rw [List.mem_singleton.mp hm]
      exact Or.inl (Int.lt_succ _)
  | update hc hmay =>
    exact edit (memories_withChanges ..) (fun _ => rfl) (hf.updated hmay _ _ _) rfl
  | @remove id =>
    refine ⟨Int.le_refl _, fun m' hm' => Or.inr ?_⟩
    rw [memories_remove] at hm'
    obtain ⟨m, hm, rfl⟩ := List.mem_map.mp hm'
    refine ⟨m, (List.mem_filter.mp hm).1, (Memory.orphanedBy_id id m).symm, ?_⟩
    unfold Memory.orphanedBy
    split
    · exact hf.parent m none
    · rfl
  | access => exact edit (memories_withAccess ..) (fun _ => rfl) (hf.accessed _) rfl
  | context => exact ⟨Int.le_refl _, fun m hm => Or.inr ⟨m, hm, rfl, rfl⟩⟩
  | relate => exact ⟨Int.le_refl _, fun m hm => Or.inr ⟨m, hm, rfl, rfl⟩⟩
  | archive => exact edit (memories_modifyMemory ..) (fun _ => rfl) (hf.archived _ _) rfl
  | age hi hmay => exact edit (memories_modifyMemory ..) (fun _ => rfl) (hf.aged hmay _ _) rfl

theorem writes {v : Vocabulary} {may : Revision → Prop} (hf : Memory.Lasting f may)
    (hw : WritesOf v may s s') : s.Preserves f s' := by
  induction hw with
  | refl => exact refl s
  | tail _ hstep ih => exact ih.trans (write hf hstep)

end Store.Preserves

/-- Only an aging pass writes the stamp of the last aging. -/
theorem Memory.lasting_lastAgedAt {may : Revision → Prop} (h : ¬may .age) :
    Memory.Lasting (·.lastAgedAt) may :=
  ⟨fun _ _ => rfl, fun _ _ => rfl, fun _ _ _ => rfl, fun _ _ _ _ _ => rfl,
    fun hmay => absurd hmay h⟩

/-- Only revisions change how important a memory is. -/
theorem Memory.lasting_importance {may : Revision → Prop} (hupdate : ¬may .update)
    (hage : ¬may .age) : Memory.Lasting (·.importance) may :=
  ⟨fun _ _ => rfl, fun _ _ => rfl, fun _ _ _ => rfl, fun hmay => absurd hmay hupdate,
    fun hmay => absurd hmay hage⟩

/-! ## Aging passes -/

open Lifecycle

/-- An aging pass leads from one store to another: some memories that were due have lost a point,
and nothing else has changed. -/
structure AgingPass (v : Vocabulary) (window : Int) (clock asOf : Instant) (ids : List MemoryId)
    (s s' : Store) : Prop where
  writes : Writes v s s'
  effect : s' = s.modifyWhere (·.id ∈ ids) (pointLost asOf)
  due : ∀ m ∈ s.memories, m.id ∈ ids → m.archived = false ∧
    dueForAging asOf window (m.readAt clock) = true

namespace AgingPass

variable {v : Vocabulary} {window : Int} {clock asOf : Instant} {ids : List MemoryId}
  {s s' : Store}

/-- The agings of a pass are those of the memories that lost a point. -/
theorem agings_eq (h : AgingPass v window clock asOf ids s s') (hs : s.Sound) :
    s.agings clock asOf s' = (s.memories.filter (·.id ∈ ids)).map fun m =>
      { clock, asOf, before := m, after := pointLost asOf m } := by
  rw [← List.filterMap_eq_map, List.filterMap_filter, Store.agings, h.effect]
  refine List.filterMap_congr fun m hm => ?_
  rw [Store.kept?_modifyWhere (f := pointLost asOf) (fun _ => rfl), hs.kept?_of_mem hm]
  by_cases hin : m.id ∈ ids
  · have hless : m.importance - 1 ≠ m.importance := by omega
    simp [hin, pointLost, hless]
  · simp [hin]

theorem mem_agings (h : AgingPass v window clock asOf ids s s') (hs : s.Sound) {a : Aging} :
    a ∈ s.agings clock asOf s' ↔ ∃ m ∈ s.memories, m.id ∈ ids ∧
      a = { clock, asOf, before := m, after := pointLost asOf m } := by
  rw [h.agings_eq hs]
  constructor
  · intro ha
    obtain ⟨m, hm, rfl⟩ := List.mem_map.mp ha
    obtain ⟨hm, hin⟩ := List.mem_filter.mp hm
    exact ⟨m, hm, of_decide_eq_true hin, rfl⟩
  · rintro ⟨m, hm, hin, rfl⟩
    exact List.mem_map_of_mem (List.mem_filter.mpr ⟨hm, decide_eq_true hin⟩)

theorem ids_agings (h : AgingPass v window clock asOf ids s s') (hs : s.Sound) :
    (s.agings clock asOf s').map (·.before.id) = (s.memories.map (·.id)).filter (· ∈ ids) := by
  rw [h.agings_eq hs, List.map_map, List.filter_map]
  rfl

/-- A pass ages a memory once or not at all. -/
theorem length_agingsOf (h : AgingPass v window clock asOf ids s s') (hs : s.Sound)
    {m : Memory} (hm : m ∈ s.memories) :
    (agingsOf m.id (s.agings clock asOf s')).length = if m.id ∈ ids then 1 else 0 := by
  have hnodup : ((s.memories.map (·.id)).filter (· ∈ ids)).Nodup := hs.nodup_ids.filter _
  have hcount : (agingsOf m.id (s.agings clock asOf s')).length =
      ((s.memories.map (·.id)).filter (· ∈ ids)).count m.id := by
    rw [← h.ids_agings hs, agingsOf, ← List.countP_eq_length_filter, List.count, List.countP_map]
    rfl
  rw [hcount, hnodup.count]
  simp [List.mem_map_of_mem hm]

theorem agingsOf_eq (h : AgingPass v window clock asOf ids s s') (hs : s.Sound) {m : Memory}
    (hm : m ∈ s.memories) : agingsOf m.id (s.agings clock asOf s') =
      if m.id ∈ ids then [{ clock, asOf, before := m, after := pointLost asOf m }] else [] := by
  have hlength := h.length_agingsOf hs hm
  by_cases hin : m.id ∈ ids
  · simp only [hin, ↓reduceIte] at hlength ⊢
    obtain ⟨a, ha⟩ := List.length_eq_one_iff.mp hlength
    have hmem : { clock, asOf, before := m, after := pointLost asOf m } ∈
        agingsOf m.id (s.agings clock asOf s') :=
      List.mem_filter.mpr ⟨(h.mem_agings hs).mpr ⟨m, hm, hin, rfl⟩, by simp⟩
    rw [ha] at hmem ⊢
    rw [List.mem_singleton.mp hmem]
  · simp only [hin, ↓reduceIte] at hlength ⊢
    exact List.eq_nil_of_length_eq_zero hlength

theorem pairwise_agings (h : AgingPass v window clock asOf ids s s') (hs : s.Sound) :
    (s.agings clock asOf s').Pairwise fun a b => a.before.id ≠ b.before.id := by
  refine List.pairwise_map.mp ?_
  rw [h.ids_agings hs]
  exact hs.nodup_ids.filter _

theorem mem_memories (h : AgingPass v window clock asOf ids s s') {m' : Memory} :
    m' ∈ s'.memories ↔ ∃ m ∈ s.memories, (if m.id ∈ ids then pointLost asOf m else m) = m' := by
  rw [h.effect, Store.memories_modifyWhere, List.mem_map]
  simp only [decide_eq_true_eq]

end AgingPass

/-- A store leads to another by writes and aging passes; the log has the agings of the passes. -/
inductive Trace (v : Vocabulary) (may : Revision → Prop) (window : Int) :
    Store → List Aging → Store → Prop
  | nil (s : Store) : Trace v may window s [] s
  | writes {s s' s'' : Store} {log : List Aging} (h : Trace v may window s log s')
      (hw : WritesOf v may s' s'') : Trace v may window s log s''
  | pass {s s' s'' : Store} {log : List Aging} {clock asOf : Instant} {ids : List MemoryId}
      (h : Trace v may window s log s') (hp : AgingPass v window clock asOf ids s' s'') :
      Trace v may window s (log ++ s'.agings clock asOf s'') s''

namespace Trace

variable {v : Vocabulary} {may : Revision → Prop} {window : Int} {s s' s'' : Store}
  {log log' : List Aging}

theorem trans (h : Trace v may window s log s') (h' : Trace v may window s' log' s'') :
    Trace v may window s (log ++ log') s'' := by
  induction h' with
  | nil => simpa using h
  | writes _ hw ih => exact ih.writes hw
  | pass _ hp ih =>
    rw [← List.append_assoc]
    exact ih.pass hp

theorem sound (h : Trace v may window s log s') (hs : s.Sound) : s'.Sound := by
  induction h with
  | nil => exact hs
  | writes _ hw ih => exact ih.writes hw.toWrites
  | pass _ hp ih => exact ih.writes hp.writes

end Trace

/-! ## What the log says of a store -/

/-- Agings of one memory that follow one another lie a window apart, unless the stamp of the first
is not read back. -/
def Apart (window : Int) (a b : Aging) : Prop :=
  a.asOf.readable = true → window ≤ b.asOf.since a.asOf

/-- The log of agings agrees with the store: memories bear the stamps of their last agings. -/
structure Ledger (window : Int) (log : List Aging) (s : Store) : Prop where
  known : ∀ a ∈ log, a.before.id ≤ s.lastMemoryId
  stamped : ∀ m ∈ s.memories, ∀ a ∈ (agingsOf m.id log).getLast?, m.lastAgedAt = some a.asOf
  apart : ∀ id, (agingsOf id log).IsChain (Apart window)

namespace Ledger

variable {v : Vocabulary} {window : Int} {s s' : Store} {log : List Aging}

theorem nil (window : Int) (s : Store) : Ledger window [] s :=
  ⟨by simp, by simp [agingsOf], by simp [agingsOf]⟩

/-- Writes of other kinds keep the stamps, and a new memory has an id without agings. -/
theorem preserves (h : Ledger window log s) (hp : s.Preserves (·.lastAgedAt) s') :
    Ledger window log s' := by
  refine ⟨fun a ha => Int.le_trans (h.known a ha) hp.last_le, fun m' hm' a ha => ?_, h.apart⟩
  rcases hp.same m' hm' with hnew | ⟨m, hm, hid, hsame⟩
  · obtain ⟨hlog, hbefore⟩ := List.mem_filter.mp (List.mem_of_getLast? ha)
    have hknown := h.known a hlog
    rw [of_decide_eq_true hbefore] at hknown
    exact absurd hnew (Int.not_lt.mpr hknown)
  · rw [← hid] at ha
    exact hsame.trans (h.stamped m hm a ha)

/-- What a pass ages bears the stamp of its last aging, and is due only a window after it. -/
theorem apart_pass {clock asOf : Instant} {ids : List MemoryId} (hs : s.Sound)
    (h : Ledger window log s) (hp : AgingPass v window clock asOf ids s s') {id : MemoryId}
    {a b : Aging} (ha : a ∈ (agingsOf id log).getLast?)
    (hb : b ∈ agingsOf id (s.agings clock asOf s')) : Apart window a b := by
  intro hread
  obtain ⟨hb, hid⟩ := List.mem_filter.mp hb
  obtain ⟨m, hm, hin, rfl⟩ := (hp.mem_agings hs).mp hb
  obtain rfl : m.id = id := of_decide_eq_true hid
  have hstamp : m.lastAgedAt = some a.asOf := h.stamped m hm a ha
  obtain ⟨-, hdue⟩ := hp.due m hm hin
  simp only [dueForAging, Memory.readAt, hstamp, Option.filter, hread, Bool.and_eq_true] at hdue
  exact of_decide_eq_true hdue.1.2

theorem pass {clock asOf : Instant} {ids : List MemoryId} (hs : s.Sound)
    (h : Ledger window log s) (hp : AgingPass v window clock asOf ids s s') :
    Ledger window (log ++ s.agings clock asOf s') s' := by
  have hlast : s'.lastMemoryId = s.lastMemoryId := by rw [hp.effect]; rfl
  refine ⟨fun a ha => ?_, fun m' hm' a ha => ?_, fun id => ?_⟩
  · rw [hlast]
    rcases List.mem_append.mp ha with ha | ha
    · exact h.known a ha
    · obtain ⟨m, hm, -, rfl⟩ := (hp.mem_agings hs).mp ha
      exact hs.bounded m hm
  · obtain ⟨m, hm, rfl⟩ := hp.mem_memories.mp hm'
    have hlater := hp.agingsOf_eq hs hm
    by_cases hin : m.id ∈ ids
    · simp only [hin, ↓reduceIte] at ha hlater ⊢
      change a ∈ (agingsOf m.id _).getLast? at ha
      rw [agingsOf_append, hlater, List.getLast?_concat, Option.mem_some_iff] at ha
      exact congrArg some (congrArg Aging.asOf ha)
    · simp only [hin, ↓reduceIte] at ha hlater ⊢
      rw [agingsOf_append, hlater, List.append_nil] at ha
      exact h.stamped m hm a ha
  · rw [agingsOf_append]
    have honce : (agingsOf id (s.agings clock asOf s')).Pairwise (Apart window) := by
      refine ((hp.pairwise_agings hs).sublist List.filter_sublist).imp_of_mem ?_
      intro a b ha hb hne
      have ha := of_decide_eq_true (List.mem_filter.mp ha).2
      have hb := of_decide_eq_true (List.mem_filter.mp hb).2
      exact absurd (ha.trans hb.symm) hne
    exact (h.apart id).append honce.isChain fun a ha b hb =>
      h.apart_pass hs hp ha (List.mem_of_mem_head? hb)

theorem trace {may : Revision → Prop} (hmay : ¬may .age) (hs : s.Sound)
    {log : List Aging} (h : Trace v may window s log s') : Ledger window log s' := by
  induction h with
  | nil => exact nil window s
  | writes _ hw ih => exact ih.preserves (.writes (Memory.lasting_lastAgedAt hmay) hw)
  | pass htrace hp ih => exact ih.pass (htrace.sound hs) hp

end Ledger

/-- From one store to another the memories have lost as many points as the log has agings of
them. -/
structure Store.Loses (log : List Aging) (s s' : Store) : Prop where
  last_le : s.lastMemoryId ≤ s'.lastMemoryId
  points : ∀ m' ∈ s'.memories, s.lastMemoryId < m'.id ∨ ∃ m ∈ s.memories, m.id = m'.id ∧
    m'.importance = m.importance - (agingsOf m.id log).length

namespace Store.Loses

variable {v : Vocabulary} {window : Int} {s s' s'' : Store} {log : List Aging}

theorem preserves (h : s.Loses log s') (hp : s'.Preserves (·.importance) s'') :
    s.Loses log s'' := by
  refine ⟨Int.le_trans h.last_le hp.last_le, fun m'' hm'' => ?_⟩
  rcases hp.same m'' hm'' with hnew | ⟨m', hm', hid', hsame⟩
  · exact Or.inl (Int.lt_of_le_of_lt h.last_le hnew)
  · rcases h.points m' hm' with hnew | ⟨m, hm, hid, hpoints⟩
    · exact Or.inl (hid' ▸ hnew)
    · exact Or.inr ⟨m, hm, hid.trans hid', hsame.trans hpoints⟩

theorem pass {clock asOf : Instant} {ids : List MemoryId} (hs' : s'.Sound) (h : s.Loses log s')
    (hp : AgingPass v window clock asOf ids s' s'') :
    s.Loses (log ++ s'.agings clock asOf s'') s'' := by
  refine ⟨Int.le_trans h.last_le (Int.le_of_eq (by rw [hp.effect]; rfl)), fun m'' hm'' => ?_⟩
  obtain ⟨m', hm', rfl⟩ := hp.mem_memories.mp hm''
  have hid' : (if m'.id ∈ ids then pointLost asOf m' else m').id = m'.id := by split <;> rfl
  rw [hid']
  rcases h.points m' hm' with hnew | ⟨m, hm, hid, hpoints⟩
  · exact Or.inl hnew
  · refine Or.inr ⟨m, hm, hid, ?_⟩
    rw [agingsOf_append, hid, hp.agingsOf_eq hs' hm']
    rw [hid] at hpoints
    by_cases hin : m'.id ∈ ids
    · simp only [hin, ↓reduceIte, pointLost, List.length_append, List.length_singleton]
      omega
    · simpa [hin] using hpoints

theorem trace {may : Revision → Prop} (hupdate : ¬may .update) (hage : ¬may .age) (hs : s.Sound)
    (h : Trace v may window s log s') : s.Loses log s' := by
  induction h with
  | nil => exact ⟨Int.le_refl _, fun m hm => .inr ⟨m, hm, rfl, by simp [agingsOf]⟩⟩
  | writes _ hw ih => exact ih.preserves (.writes (Memory.lasting_importance hupdate hage) hw)
  | pass htrace hp ih => exact ih.pass (htrace.sound hs) hp

end Store.Loses

/-- What holds of every aging of a run. -/
structure Aging.Proper (window : Int) (a : Aging) : Prop where
  same : a.after.id = a.before.id
  onePoint : a.after.importance = a.before.importance - 1
  floor : 1 ≤ a.after.importance
  active : a.before.archived = false
  untouched : window < a.asOf.since (a.before.readAt a.clock).lastTouched
  untouched_stored : a.before.lastTouched.readable = true →
    window < a.asOf.since a.before.lastTouched

/-- A time of the last access, or of the creation, that is read back is read as it is. -/
theorem Memory.lastTouched_readAt {m : Memory} (h : m.lastTouched.readable = true)
    (now : Instant) : (m.readAt now).lastTouched = m.lastTouched := by
  cases haccess : m.lastAccessed with
  | none =>
    simp only [lastTouched, haccess, Option.getD_none] at h
    simp [lastTouched, readAt, haccess, h]
  | some t =>
    simp only [lastTouched, haccess, Option.getD_some] at h
    simp [lastTouched, readAt, haccess, Option.filter, h]

theorem AgingPass.proper {v : Vocabulary} {window : Int} {clock asOf : Instant}
    {ids : List MemoryId} {s s' : Store} (h : AgingPass v window clock asOf ids s s')
    (hs : s.Sound) : ∀ a ∈ s.agings clock asOf s', a.Proper window := by
  intro a ha
  obtain ⟨m, hm, hin, rfl⟩ := (h.mem_agings hs).mp ha
  obtain ⟨hactive, hdue⟩ := h.due m hm hin
  simp only [dueForAging, Bool.and_eq_true, decide_eq_true_eq] at hdue
  obtain ⟨⟨huntouched, -⟩, hfloor⟩ := hdue
  refine ⟨rfl, rfl, ?_, hactive, huntouched, fun hread => ?_⟩
  · have hmore : 1 < m.importance := hfloor
    simp only [pointLost]
    omega
  · rwa [Memory.lastTouched_readAt hread] at huntouched

theorem Trace.proper {v : Vocabulary} {may : Revision → Prop} {window : Int} {s s' : Store}
    {log : List Aging} (hs : s.Sound) (h : Trace v may window s log s') :
    ∀ a ∈ log, a.Proper window := by
  induction h with
  | nil => simp
  | writes _ _ ih => exact ih
  | pass htrace hp ih =>
    intro a ha
    rcases List.mem_append.mp ha with ha | ha
    · exact ih a ha
    · exact hp.proper (htrace.sound hs) a ha

end LongTermMemory
