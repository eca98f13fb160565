import LongTermMemory.Proofs.Operations

/-!
The instants that memories carry. Each was put down by some write, so that what holds of all
instants that the operations of a run take for the time holds of these too. If all of them can be
read back, a memory is read as it is kept.
-/

namespace LongTermMemory

/-- All instants of a memory satisfy `ok`. -/
structure Memory.Stamped (ok : Instant → Prop) (m : Memory) : Prop where
  created : ok m.createdAt
  modified : ok m.lastModified
  accessed : ∀ t, m.lastAccessed = some t → ok t
  aged : ∀ t, m.lastAgedAt = some t → ok t

namespace Memory.Stamped

variable {ok : Instant → Prop} {m : Memory}

theorem readAt (h : m.Stamped (·.readable = true)) (now : Instant) : m.readAt now = m := by
  have hkept {t : Option Instant} (ht : ∀ i, t = some i → i.readable = true) :
      t.filter Instant.readable = t := by
    cases t with
    | none => rfl
    | some i => simp [ht i rfl]
  simp only [Memory.readAt, h.created, h.modified, hkept h.accessed, hkept h.aged, ↓reduceIte]

variable (h : m.Stamped ok)
include h

theorem edited {now : Instant} (hnow : ok now) (c : Changes) (tags : Option (List String)) :
    (Store.edited now c tags m).Stamped ok := ⟨h.created, hnow, h.accessed, h.aged⟩

theorem touched {now : Instant} (hnow : ok now) : (Store.accessed now m).Stamped ok :=
  ⟨h.created, h.modified, fun _ ht => Option.some.inj ht ▸ hnow, h.aged⟩

theorem archived {now : Instant} (hnow : ok now) (reason : String) :
    (Store.archivedMemory now reason m).Stamped ok := ⟨h.created, hnow, h.accessed, h.aged⟩

theorem weakened {t : Instant} (ht : ok t) (importance : Int) :
    (Store.agedMemory t importance m).Stamped ok :=
  ⟨h.created, ht, h.accessed, fun _ haged => Option.some.inj haged ▸ ht⟩

theorem orphanedBy (id : MemoryId) : (m.orphanedBy id).Stamped ok := by
  unfold Memory.orphanedBy
  split
  · exact ⟨h.created, h.modified, h.accessed, h.aged⟩
  · exact h

end Memory.Stamped

/-- All instants of all memories satisfy `ok`. -/
def Store.Stamped (ok : Instant → Prop) (s : Store) : Prop := ∀ m ∈ s.memories, m.Stamped ok

namespace Store.Stamped

variable {ok : Instant → Prop} {v : Vocabulary} {may : Revision → Prop} {s s' : Store}

theorem edit (h : s.Stamped ok) {id : MemoryId} {f : Memory → Memory}
    (hm : s'.memories = s.memories.map (·.editAt id f))
    (hf : ∀ m, m.Stamped ok → (f m).Stamped ok) : s'.Stamped ok := by
  intro m' hm'
  obtain ⟨m, hmem, rfl⟩ := List.mem_map.mp (hm ▸ hm')
  unfold Memory.editAt
  split
  · exact hf m (h m hmem)
  · exact h m hmem

theorem write (h : s.Stamped ok) (hmay : ∀ t, may (.stamp t) → ok t) (hw : WriteOf v may s s') :
    s'.Stamped ok := by
  cases hw with
  | @create now r hr hp hnow =>
    intro m hm
    rw [memories_withNewcomer] at hm
    rcases List.mem_append.mp hm with hm | hm
    · exact h m hm
    · rw [List.mem_singleton.mp hm]
      exact ⟨hmay now hnow, hmay now hnow, (fun _ ht => nomatch ht), fun _ ht => nomatch ht⟩
  | update hc _ hnow =>
    exact h.edit (memories_withChanges ..) fun _ hm => hm.edited (hmay _ hnow) _ _
  | remove =>
    intro m' hm'
    rw [memories_remove] at hm'
    obtain ⟨m, hm, rfl⟩ := List.mem_map.mp hm'
    exact (h m (List.mem_filter.mp hm).1).orphanedBy _
  | access hid hnow => exact h.edit (memories_withAccess ..) fun _ hm => hm.touched (hmay _ hnow)
  | context => exact h
  | relate => exact h
  | archive hnow => exact h.edit (memories_modifyMemory ..) fun _ hm => hm.archived (hmay _ hnow) _
  | age hi _ hnow => exact h.edit (memories_modifyMemory ..) fun _ hm => hm.weakened (hmay _ hnow) _

theorem writes (h : s.Stamped ok) (hmay : ∀ t, may (.stamp t) → ok t) (hw : WritesOf v may s s') :
    s'.Stamped ok := by
  induction hw with
  | refl => exact h
  | tail _ hstep ih => exact ih.write hmay hstep

theorem perform {e : Engine} {op : Operation} {w : World} (h : w.store.Stamped ok)
    (hs : w.store.Sound) (hread : ∀ t ∈ op.instants w.clock, ok t) :
    (e.perform op w).store.Stamped ok := by
  have hwrites : WritesOf e.vocabulary (fun r => ∀ t, r = .stamp t → ok t) w.store
      (e.perform op w).store :=
    Engine.writesOf_perform hs (fun _ _ _ _ ht => nomatch ht) (fun _ ht => nomatch ht)
      fun t ht _ heq => Revision.stamp.inj heq ▸ hread t ht
  exact h.writes (fun t ht => ht t rfl) hwrites

end Store.Stamped

namespace World

/-- Operations of engines that satisfy `p`, which take only instants that satisfy `ok` for the time,
lead from one world to another. -/
def RunsAt (p : Engine → Prop) (ok : Instant → Prop) : World → World → Prop :=
  Relation.ReflTransGen fun w w' =>
    ∃ e op, p e ∧ (∀ t ∈ op.instants w.clock, ok t) ∧ w' = e.perform op w

/-- Such a run from an empty store leads to the world. -/
def ReachedAt (p : Engine → Prop) (ok : Instant → Prop) (w : World) : Prop :=
  ∃ clock, RunsAt p ok (start clock) w

variable {p : Engine → Prop} {ok : Instant → Prop} {w w' : World}

theorem RunsAt.runs (h : RunsAt p ok w w') : Runs p w w' :=
  Relation.ReflTransGen.mono (fun _ _ ⟨e, op, he, _, heq⟩ => ⟨e, op, he, heq⟩) _ _ h

theorem ReachedAt.reached (h : w.ReachedAt p ok) : w.Reached p := by
  obtain ⟨clock, hr⟩ := h
  exact ⟨clock, hr.runs⟩

theorem ReachedAt.start (clock : Instant) : (start clock).ReachedAt p ok := ⟨clock, .refl⟩

theorem ReachedAt.perform (h : w.ReachedAt p ok) (e : Engine) (he : p e) (op : Operation)
    (hread : ∀ t ∈ op.instants w.clock, ok t) : (e.perform op w).ReachedAt p ok := by
  obtain ⟨clock, hr⟩ := h
  exact ⟨clock, hr.tail ⟨e, op, he, hread, rfl⟩⟩

/-- Memories carry only instants that a run took for the time. -/
theorem ReachedAt.stamped (h : w.ReachedAt p ok) : w.store.Stamped ok := by
  obtain ⟨clock, hr⟩ := h
  induction hr with
  | refl => exact fun _ hm => by cases hm
  | tail hsteps hstep ih =>
    obtain ⟨e, op, -, hread, rfl⟩ := hstep
    exact ih.perform (sound_of_runs Store.sound_empty (RunsAt.runs hsteps)) hread

/-- Where the clock could be read back at each of them, memories are read as they are kept. -/
theorem ReachedAt.readAt_eq (h : w.ReachedAt p (·.readable = true)) {m : Memory}
    (hm : m ∈ w.store.memories) (now : Instant) : m.readAt now = m :=
  (h.stamped m hm).readAt now

end World

end LongTermMemory
