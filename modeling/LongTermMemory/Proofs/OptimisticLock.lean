import LongTermMemory.Proofs.Operations

/-!
The version of a memory as an optimistic lock. `Store.Evolves` says how a later store relates to an
earlier one: memories with old ids follow the memories that had them, with no smaller version, and
with the same version only where nothing was edited. It is a preorder that every write obeys, so
every run does. An update that names a version therefore changes just what was read at it, and no
second update that names it is made.
-/

namespace LongTermMemory

/-- Nothing was edited: only the figures of accesses and the parent may differ. -/
def Memory.Unedited (m m' : Memory) : Prop :=
  m' = { m with
    accessCount := m'.accessCount
    lastAccessed := m'.lastAccessed
    parent := m'.parent }

/-- The parent is the same, or none since the parent is gone from the later store. -/
def Memory.KeepsParent (s' : Store) (m m' : Memory) : Prop :=
  m'.parent = m.parent ∨
    m'.parent = none ∧ ∃ p, m.parent = some p ∧ p ≤ s'.lastMemoryId ∧ s'.exists? p = false

/-- A memory of the later store `s'` follows an earlier one. -/
structure Memory.Follows (s' : Store) (m m' : Memory) : Prop where
  version_le : m.version ≤ m'.version
  unedited : m.version = m'.version → m.Unedited m'
  parent : m.KeepsParent s' m'

/-- A later store relates to an earlier one. -/
structure Store.Evolves (s s' : Store) : Prop where
  last_le : s.lastMemoryId ≤ s'.lastMemoryId
  follows : ∀ m' ∈ s'.memories,
    s.lastMemoryId < m'.id ∨ ∃ m ∈ s.memories, m.id = m'.id ∧ m.Follows s' m'

namespace Memory

theorem Unedited.refl (m : Memory) : m.Unedited m := rfl

theorem Unedited.trans {a b c : Memory} (hab : a.Unedited b) (hbc : b.Unedited c) :
    a.Unedited c := by
  unfold Unedited at *
  rw [hab] at hbc
  exact hbc

theorem Follows.refl (s : Store) (m : Memory) : m.Follows s m :=
  ⟨Int.le_refl _, fun _ => .refl m, .inl rfl⟩

end Memory

namespace Store

namespace Evolves

variable {s s' s'' : Store}

theorem refl (s : Store) : s.Evolves s :=
  ⟨Int.le_refl _, fun m hm => .inr ⟨m, hm, rfl, .refl s m⟩⟩

/-- An id given out and no longer in use stays so. -/
theorem gone {id : MemoryId} (h : s.Evolves s') (hle : id ≤ s.lastMemoryId)
    (hid : s.exists? id = false) : s'.exists? id = false := by
  refine Bool.eq_false_iff.mpr fun hex => ?_
  obtain ⟨m', hm', rfl⟩ := exists?_iff.mp hex
  rcases h.follows m' hm' with hlt | ⟨m, hm, heq, -⟩
  · exact absurd hlt (Int.not_lt.mpr hle)
  · rw [exists?_iff.mpr ⟨m, hm, heq⟩] at hid
    cases hid

theorem trans (h : s.Evolves s') (h' : s'.Evolves s'') : s.Evolves s'' := by
  refine ⟨Int.le_trans h.last_le h'.last_le, fun m'' hm'' => ?_⟩
  rcases h'.follows m'' hm'' with hlt | ⟨m', hm', heq', hf'⟩
  · exact Or.inl (Int.lt_of_le_of_lt h.last_le hlt)
  rcases h.follows m' hm' with hlt | ⟨m, hm, heq, hf⟩
  · exact Or.inl (heq' ▸ hlt)
  refine Or.inr ⟨m, hm, heq.trans heq', Int.le_trans hf.version_le hf'.version_le, ?_, ?_⟩
  · intro hv
    have hv' : m'.version = m''.version :=
      Int.le_antisymm hf'.version_le (hv ▸ hf.version_le)
    exact (hf.unedited (hv.trans hv'.symm)).trans (hf'.unedited hv')
  · -- a parent that is gone stays gone, since its id was given out before
    have hgone {p : MemoryId} (hle : p ≤ s'.lastMemoryId) (hp : s'.exists? p = false) :
        p ≤ s''.lastMemoryId ∧ s''.exists? p = false :=
      ⟨Int.le_trans hle h'.last_le, h'.gone hle hp⟩
    rcases hf.parent with hsame | ⟨hnone, p, hp, hle, hex⟩
    · rcases hf'.parent with hsame' | ⟨hnone', hrest⟩
      · exact Or.inl (hsame'.trans hsame)
      · exact Or.inr ⟨hnone', hsame ▸ hrest⟩
    · rcases hf'.parent with hsame' | ⟨hnone', -⟩
      · exact Or.inr ⟨hsame'.trans hnone, p, hp, hgone hle hex⟩
      · exact Or.inr ⟨hnone', p, hp, hgone hle hex⟩

/-- Changing one memory, with a new version where the change is an edit. -/
theorem edit (hs : s.Sound) {id : MemoryId} {f : Memory → Memory}
    (hm : s'.memories = s.memories.map (·.editAt id f)) (hid : ∀ m, (f m).id = m.id)
    (hparent : ∀ m, (f m).parent = m.parent)
    (hversion : ∀ m : Memory, m.Sound →
      m.version ≤ (f m).version ∧ (m.version = (f m).version → m.Unedited (f m)))
    (hl : s'.lastMemoryId = s.lastMemoryId) : s.Evolves s' := by
  refine ⟨Int.le_of_eq hl.symm, fun m' hm' => Or.inr ?_⟩
  obtain ⟨m, hmem, rfl⟩ := List.mem_map.mp (hm ▸ hm')
  refine ⟨m, hmem, (Memory.editAt_id hid m).symm, ?_⟩
  unfold Memory.editAt
  split
  · obtain ⟨hle, hsame⟩ := hversion m (hs.memories m hmem)
    exact ⟨hle, hsame, Or.inl (hparent m)⟩
  · exact .refl s' m

theorem remove (hs : s.Sound) (id : MemoryId) : s.Evolves (s.remove id) := by
  refine ⟨Int.le_refl _, fun m' hm' => Or.inr ?_⟩
  rw [memories_remove] at hm'
  obtain ⟨m, hm, rfl⟩ := List.mem_map.mp hm'
  obtain ⟨hmem, -⟩ := List.mem_filter.mp hm
  refine ⟨m, hmem, (Memory.orphanedBy_id id m).symm, ?_⟩
  unfold Memory.orphanedBy
  split
  · next hp =>
    have hgone : (s.remove id).exists? id = false :=
      Bool.eq_false_iff.mpr fun hex => (exists?_remove.mp hex).2 rfl
    have hle : id ≤ s.lastMemoryId := hs.exists?_le (hs.parents m hmem id hp)
    exact ⟨Int.le_refl _, fun _ => rfl, Or.inr ⟨rfl, id, hp, hle, hgone⟩⟩
  · exact .refl _ m

theorem write {v : Vocabulary} (hs : s.Sound) (hw : Write v s s') : s.Evolves s' := by
  cases hw with
  | @create now r hr hp =>
    have hlast := lastMemoryId_withNewcomer s now r
    refine ⟨hlast ▸ Int.le_of_lt (Int.lt_succ _), fun m' hm' => ?_⟩
    rw [memories_withNewcomer] at hm'
    rcases List.mem_append.mp hm' with hm | hm
    · exact Or.inr ⟨m', hm, rfl, .refl _ m'⟩
    · rw [List.mem_singleton.mp hm]
      exact Or.inl (Int.lt_succ _)
  | update hc =>
    refine edit hs (memories_withChanges ..) (fun _ => rfl) (fun _ => rfl) (fun m _ => ?_) rfl
    simp only [edited, changed]
    exact ⟨by omega, fun hv => by omega⟩
  | remove => exact remove hs _
  | access =>
    refine edit hs (memories_withAccess ..) (fun _ => rfl) (fun _ => rfl) (fun m hm => ?_) rfl
    -- the importance in force is the importance already
    refine ⟨Int.le_refl _, fun _ => ?_⟩
    simp only [Memory.Unedited, accessed, ← hm.dynamicImportance]
  | context => exact ⟨Int.le_refl _, fun m hm => Or.inr ⟨m, hm, rfl, .refl _ m⟩⟩
  | relate => exact ⟨Int.le_refl _, fun m hm => Or.inr ⟨m, hm, rfl, .refl _ m⟩⟩
  | archive =>
    refine edit hs (memories_modifyMemory ..) (fun _ => rfl) (fun _ => rfl) (fun m _ => ?_) rfl
    simp only [archivedMemory]
    exact ⟨by omega, fun hv => by omega⟩
  | age =>
    refine edit hs (memories_modifyMemory ..) (fun _ => rfl) (fun _ => rfl) (fun m _ => ?_) rfl
    simp only [agedMemory]
    exact ⟨by omega, fun hv => by omega⟩

theorem writes {v : Vocabulary} (hs : s.Sound) (hw : Writes v s s') : s.Evolves s' := by
  induction hw with
  | refl => exact refl s
  | tail hsteps hstep ih => exact ih.trans (write (hs.writes hsteps) hstep)

/-- What is kept under an id later follows what was kept under it before. -/
theorem kept? (h : s.Evolves s') (hs : s.Sound) {id : MemoryId} {m m' : Memory}
    (hm : s.kept? id = some m) (hm' : s'.kept? id = some m') : m.Follows s' m' := by
  obtain ⟨hmem, hid⟩ := mem_of_kept? hm
  obtain ⟨hmem', hid'⟩ := mem_of_kept? hm'
  rcases h.follows m' hmem' with hlt | ⟨k, hk, hkid, hf⟩
  · have hle := hs.bounded m hmem
    rw [hid, ← hid'] at hle
    exact absurd hlt (Int.not_lt.mpr hle)
  · have hkm : s.kept? id = some k := (hs.kept?_iff).mpr ⟨hk, hkid.trans hid'⟩
    rw [hm] at hkm
    cases hkm
    exact hf

end Evolves

end Store

namespace World

theorem evolves_of_runs {p : Engine → Prop} {w w' : World} (hs : w.store.Sound)
    (hr : Runs p w w') : w.store.Evolves w'.store := by
  induction hr with
  | refl => exact .refl _
  | tail hsteps hstep ih =>
    obtain ⟨e, op, -, rfl⟩ := hstep
    have hsound := sound_of_runs hs hsteps
    exact ih.trans (.writes hsound (e.writes_perform hsound op))

end World

/-! ## Updates that name a version -/

/-- What was read, and what is stored later, differ in nothing that is edited. -/
theorem Memory.Unedited.readAt {m m' : Memory} (h : m.Unedited m') (now : Instant) :
    (m.readAt now).Unedited (m'.readAt now) := by
  unfold Unedited at *
  rw [h]
  rfl

/-- The one memory that changes are applied to. -/
theorem Store.Sound.kept?_withChanges {v : Vocabulary} {s : Store} (hs : s.Sound) (now : Instant)
    {id : MemoryId} {c : Changes} {m : Memory} (hc : c.Normal v) (hm : s.kept? id = some m) :
    (s.withChanges now id c).kept? id = some (edited now c (s.changedTags c).1 m) := by
  have hs' : (s.withChanges now id c).Sound := hs.write (.update hc trivial trivial)
  obtain ⟨hmem, hid⟩ := mem_of_kept? hm
  refine hs'.kept?_iff.mpr ⟨?_, hid⟩
  rw [memories_withChanges]
  exact List.mem_map.mpr ⟨m, hmem, by simp [Memory.editAt, hid]⟩

/-- An engine refuses changes for the outdated version `v`: for their own fault if they have one,
as not found if the memory is gone, and with a conflict otherwise. -/
def Engine.Refuses (e : Engine) (w : World) (id : MemoryId) (v : Int) (c : Changes) : Prop :=
  match e.prepareChanges c, w.store.kept? id with
  | .error err, _ => e.update w.clock id c w.store = .error err
  | .ok _, none => e.update w.clock id c w.store = .error (.notFound id)
  | .ok _, some m =>
    v < m.version ∧ e.update w.clock id c w.store = .error (.conflict (.version id m.version v))

theorem Engine.refuses_of_lt {e : Engine} {w : World} {id : MemoryId} {v : Int} {c : Changes}
    (hc : c.expectedVersion = some v)
    (hv : ∀ m, w.store.kept? id = some m → v < m.version) : e.Refuses w id v c := by
  unfold Refuses Engine.update
  cases hprepare : e.prepareChanges c with
  | error err => rfl
  | ok c' =>
    have hc' : c'.expectedVersion = some v := (normal_of_prepareChanges hprepare).2.trans hc
    cases hk : w.store.kept? id with
    | none => exact Store.update_of_gone hk
    | some m =>
      have hlt := hv m hk
      exact ⟨hlt, Store.update_of_stale hk hc' (Int.ne_of_lt hlt)⟩

/-- The changes `c`, made at the version of `read`, were applied to what was read: nothing that is
edited had changed in the store since, and the new memory is the old one with the changes. -/
def Engine.AppliedToRead (e : Engine) (w₁ w₂ : World) (id : MemoryId) (read : Memory) (c : Changes)
    (s' : Store) : Prop :=
  ∃ stored c' tags, w₂.store.kept? id = some stored ∧
    read.Unedited (stored.readAt w₁.clock) ∧ e.prepareChanges c = .ok c' ∧
    (c'.tags = none → tags = none) ∧
    s'.kept? id = some (Store.edited w₂.clock c' tags stored)

namespace World

/-- In any run, at moments `w₀`, `w₁` and `w₂` of it: versions never decrease, and one version of
an id is one memory; an id that was given up is not in use again; and an update at `w₂` that names
the version read at `w₁` is applied to just what was read, after which no update that names that
version is made. -/
theorem version_guards_updates {p : Engine → Prop} {w₀ w₁ w₂ : World} (h₀ : w₀.Reached p)
    (h₁ : Runs p w₀ w₁) (h₂ : Runs p w₁ w₂) :
    (∀ id m m', w₁.store.kept? id = some m → w₂.store.kept? id = some m' →
      m.Follows w₂.store m') ∧
    (∀ id, w₀.store.exists? id = true → w₁.store.exists? id = false →
      w₂.store.exists? id = false) ∧
    ∀ (e : Engine) id read c answer s', w₁.store.get w₁.clock id = .ok read →
      c.expectedVersion = some read.version →
      e.update w₂.clock id c w₂.store = .ok (answer, s') →
      e.AppliedToRead w₁ w₂ id read c s' ∧
        ∀ w₃, Runs p ⟨s', w₂.clock⟩ w₃ → ∀ (e' : Engine) (c' : Changes),
          c'.expectedVersion = some read.version → e'.Refuses w₃ id read.version c' := by
  have hs₀ := h₀.sound
  have hs₁ := sound_of_runs hs₀ h₁
  have hs₂ := sound_of_runs hs₁ h₂
  have hevolves := evolves_of_runs hs₁ h₂
  refine ⟨fun id m m' hm hm' => hevolves.kept? hs₁ hm hm', ?_, ?_⟩
  · intro id hused hgone
    have hle := Int.le_trans (hs₀.exists?_le hused) (evolves_of_runs hs₀ h₁).last_le
    exact hevolves.gone hle hgone
  · intro e id read c answer s' hread hexp hupdate
    obtain ⟨m, hm, rfl⟩ := Store.get_eq_ok.mp hread
    have hs' := hs₂.writes (e.writes_update hupdate)
    obtain ⟨c', hc', hupdate⟩ := bind_eq_ok.mp hupdate
    obtain ⟨hnormal, hsame⟩ := Engine.normal_of_prepareChanges hc'
    obtain ⟨stored, hstored, hversion, -, -, rfl⟩ := Store.update_eq_ok hupdate
    have hv : m.version = stored.version := hversion _ (hsame.trans hexp)
    have hnew := hs₂.kept?_withChanges w₂.clock hnormal hstored
    refine ⟨⟨stored, c', _, hstored, ?_, hc', ?_, hnew⟩, ?_⟩
    · exact ((hevolves.kept? hs₁ hm hstored).unedited hv).readAt _
    · intro hnone
      simp [Store.changedTags, hnone]
    · intro w₃ hr e' d hd
      refine Engine.refuses_of_lt hd fun m₃ hm₃ => ?_
      have hle := ((evolves_of_runs hs' hr).kept? hs' hnew hm₃).version_le
      simp only [Store.edited, Store.changed] at hle
      simp only [Memory.readAt_version]
      omega

/-! ## Two clients that read one version -/

/-- What both clients read. -/
def unworded : World := withTea ⟨0⟩ 5

/-- Changes by a client that has read version 1. -/
def rewording (content : String) : Changes := { content := some content, expectedVersion := some 1 }

/-- After the update of one of the clients. -/
def reworded : World := Engine.oneTag.perform (.update 1 (rewording "green tea")) unworded

theorem version_guards_updates_reworded :
    (∃ read answer, unworded.store.get unworded.clock 1 = .ok read ∧ read.version = 1 ∧
      Engine.oneTag.update unworded.clock 1 (rewording "green tea") unworded.store =
        .ok (answer, reworded.store)) ∧
    ∀ w, Runs (· = .oneTag) reworded w → ∀ (e : Engine) (c : Changes),
      c.expectedVersion = some 1 → e.Refuses w 1 1 c := by
  obtain ⟨read, answer, hread, hv, hupdate⟩ :
      ∃ read answer, unworded.store.get unworded.clock 1 = .ok read ∧ read.version = 1 ∧
        Engine.oneTag.update unworded.clock 1 (rewording "green tea") unworded.store =
          .ok (answer, reworded.store) := ⟨_, _, rfl, rfl, rfl⟩
  refine ⟨⟨read, answer, hread, hv, hupdate⟩, ?_⟩
  have hguard := (version_guards_updates (reached_withTea ⟨0⟩ 5) .refl .refl).2.2 .oneTag 1 read
    (rewording "green tea") answer reworded.store hread (by rw [hv]; rfl) hupdate
  rw [hv] at hguard
  exact hguard.2

/-- The other client gets no conflict if the memory was deleted in the meantime. -/
theorem other_client_finds_nothing : ∃ (e : Engine) (w₁ w₂ w₃ : World) (read answer : Memory),
    Engine.ofConfig .oneTag = .ok e ∧ w₁.Reached (· = e) ∧ w₁.store.get w₁.clock 1 = .ok read ∧
    (rewording "green tea").expectedVersion = some read.version ∧
    (rewording "black tea").expectedVersion = some read.version ∧
    e.update w₁.clock 1 (rewording "green tea") w₁.store = .ok (answer, w₂.store) ∧
    Runs (· = e) w₂ w₃ ∧
    e.update w₃.clock 1 (rewording "black tea") w₃.store = .error (.notFound 1) :=
  ⟨.oneTag, unworded, reworded, Engine.oneTag.perform (.delete 1) reworded, _, _, rfl,
    reached_withTea ⟨0⟩ 5, rfl, rfl, rfl, rfl, .single ⟨.oneTag, _, rfl, rfl⟩, rfl⟩

end World

end LongTermMemory
