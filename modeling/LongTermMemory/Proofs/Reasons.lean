import LongTermMemory.Proofs.Documents
import LongTermMemory.Proofs.Updating

/-!
Reasons why memories are archived. Changes read from a document do all that changes can do, but for
one thing: they never take a reason away. So a memory that was archived for a reason has one as long
as it exists, unless it is changed otherwise than by a document.
-/

namespace LongTermMemory

namespace Changes

variable {c : Changes}

/-- Without the clearing, changes do the same to a memory that has no reason. -/
theorem changed_withoutClearing {now : Instant} {m : Memory}
    (h : c.archiveReason = .clear → m.archiveReason = none) :
    Store.changed now c.withoutClearing m = Store.changed now c m := by
  unfold Store.changed withoutClearing
  cases hreason : c.archiveReason with
  | keep => rfl
  | set reason => rfl
  | clear => simp [ReasonChange.given?, h hreason]

end Changes

/-- The reason after an update: the old one, none, or a new one. -/
def ReasonChange.applied : ReasonChange → Option String → Option String
  | .keep, old => old
  | .clear, _ => none
  | .set reason, _ => some reason

namespace Store

variable {s : Store} {now : Instant} {id : MemoryId} {c : Changes}

theorem withChanges_withoutClearing (hs : s.Sound)
    (h : c.archiveReason = .clear → ∀ m, s.kept? id = some m → m.archiveReason = none) :
    s.withChanges now id c.withoutClearing = s.withChanges now id c := by
  have hentries : (s.modify id (changedEntry now c.withoutClearing (s.changedTags c).1)) =
      s.modify id (changedEntry now c (s.changedTags c).1) := by
    unfold modify
    congr 1
    refine List.map_congr_left fun e he => ?_
    split
    · next hid =>
      have hkept : s.kept? id = some e.memory :=
        hs.kept?_iff.mpr ⟨List.mem_map_of_mem he, hid⟩
      unfold changedEntry
      rw [Changes.changed_withoutClearing fun hclear => h hclear e.memory hkept]
      rfl
    · rfl
  unfold withChanges
  exact congrArg (fun t : Store => { t with tagNames := (s.changedTags c).2 }) hentries

/-- Without the clearing, changes give the same result where nothing is cleared. -/
theorem Sound.update_withoutClearing {v : Vocabulary} (hs : s.Sound) (hc : c.Normal v)
    (h : ∀ m a, c.archiveReason = .clear → s.kept? id = some m → s.update now id c = .ok a →
      m.archiveReason = none) :
    s.update now id c.withoutClearing = s.update now id c := by
  cases hk : s.kept? id with
  | none => rw [update_of_gone hk, update_of_gone hk]
  | some old =>
    by_cases hv : ∀ n, c.expectedVersion = some n → n = old.version
    · obtain ⟨a, hok⟩ : ∃ a, s.update now id c = .ok a := ⟨_, hs.update_of_normal hc hk hv⟩
      rw [update_eq (c := c.withoutClearing) hk hv, update_eq hk hv,
        withChanges_withoutClearing hs fun hclear m hm => h m a hclear hm hok]
      rfl
    · obtain ⟨n, hexp, hne⟩ : ∃ n, c.expectedVersion = some n ∧ n ≠ old.version := by
        simpa using hv
      rw [update_of_stale hk hexp hne, update_of_stale (c := c.withoutClearing) hk hexp hne]

end Store

/-- An update is accepted and takes away the reason that the memory had. -/
def Engine.TakesReason (e : Engine) (now : Instant) (id : MemoryId) (c : Changes) (s : Store) :
    Prop :=
  ∃ old m s', s.get now id = .ok old ∧ old.archiveReason ≠ none ∧
    e.update now id c s = .ok (m, s') ∧ m.archiveReason = none

namespace Engine

variable {e : Engine} {s s' : Store} {now : Instant} {id : MemoryId} {c : Changes} {m old : Memory}

/-- An accepted update, told as far as it concerns the reason. -/
theorem update_eq_ok (hs : s.Sound) (h : e.update now id c s = .ok (m, s')) :
    ∃ k, s.kept? id = some k ∧ s' = s.withChanges now id c.normalized ∧
      m.archiveReason = c.archiveReason.applied k.archiveReason := by
  obtain ⟨c', hc', h⟩ := bind_eq_ok.mp h
  obtain ⟨hnormal, -⟩ := normal_of_prepareChanges hc'
  obtain ⟨-, rfl⟩ := prepareChanges_eq_ok.mp hc'
  obtain ⟨k, hk, hv, -, -, rfl⟩ := Store.update_eq_ok h
  rw [hs.update_of_normal hnormal hk hv] at h
  cases h
  refine ⟨k, hk, rfl, ?_⟩
  simp only [Memory.readAt, Store.edited, Store.changed, Changes.normalized]
  cases c.archiveReason <;> rfl

/-- The reason after an accepted update is the one read before it with the changes. -/
theorem archiveReason_update (hs : s.Sound) (hold : s.get now id = .ok old)
    (h : e.update now id c s = .ok (m, s')) :
    m.archiveReason = c.archiveReason.applied old.archiveReason := by
  obtain ⟨k, hk, -, hreason⟩ := update_eq_ok hs h
  obtain ⟨k', hk', rfl⟩ := Store.get_eq_ok.mp hold
  cases hk.symm.trans hk'
  exact hreason

/-- An update takes a reason away just when it clears it, there is one, and it is accepted. -/
theorem takesReason_iff (hs : s.Sound) : e.TakesReason now id c s ↔
    c.archiveReason = .clear ∧ ∃ old m s', s.get now id = .ok old ∧ old.archiveReason ≠ none ∧
      e.update now id c s = .ok (m, s') := by
  constructor
  · rintro ⟨old, m, s', hold, hreason, hupdate, hnone⟩
    refine ⟨?_, old, m, s', hold, hreason, hupdate⟩
    rw [archiveReason_update hs hold hupdate] at hnone
    cases hc : c.archiveReason with
    | clear => rfl
    | keep =>
      rw [hc] at hnone
      exact absurd hnone hreason
    | set reason =>
      rw [hc] at hnone
      cases hnone
  · rintro ⟨hclear, old, m, s', hold, hreason, hupdate⟩
    refine ⟨old, m, s', hold, hreason, hupdate, ?_⟩
    rw [archiveReason_update hs hold hupdate, hclear, ReasonChange.applied]

/-- Where an update does not take a reason away, it gives the same without the clearing. -/
theorem update_withoutClearing (hs : s.Sound) (h : ¬ e.TakesReason now id c s) :
    e.update now id c.withoutClearing s = e.update now id c s := by
  cases hcheck : c.check e.vocabulary with
  | error cause =>
    rw [update_of_invalid hcheck, update_of_invalid (c := c.withoutClearing) hcheck]
  | ok tags =>
    have hwithout : e.update now id c.withoutClearing s =
        s.update now id c.normalized.withoutClearing :=
      (update_of_valid (c := c.withoutClearing) hcheck).1
    obtain ⟨hsame, hnormal⟩ : e.update now id c s = s.update now id c.normalized ∧
        c.normalized.Normal e.vocabulary := update_of_valid hcheck
    rw [hsame, hwithout]
    refine hs.update_withoutClearing hnormal fun k a hclear hk hok => ?_
    by_contra hreason
    have hold : s.get now id = .ok (k.readAt now) := Store.get_eq_ok.mpr ⟨k, hk, rfl⟩
    have hupdate : e.update now id c s = .ok (a.1, a.2) := hsame.trans hok
    exact h ((takesReason_iff hs).mpr ⟨hclear, _, _, _, hold, hreason, hupdate⟩)

end Engine

/-! ## Runs -/

/-- The memory of an id that was given out has a reason why it was archived, if it still exists. -/
structure Store.Reasoned (id : MemoryId) (s : Store) : Prop where
  given : id ≤ s.lastMemoryId
  reason : ∀ m ∈ s.memories, m.id = id → m.archiveReason ≠ none

namespace Store.Reasoned

variable {s s' : Store} {id : MemoryId} {now : Instant} {m : Memory}

theorem of_get (hs : s.Sound) (hget : s.get now id = .ok m) (hreason : m.archiveReason ≠ none) :
    s.Reasoned id := by
  obtain ⟨k, hk, rfl⟩ := get_eq_ok.mp hget
  refine ⟨hs.exists?_le (exists?_iff.mpr ⟨k, mem_of_kept? hk⟩), fun a ha hid => ?_⟩
  cases hk.symm.trans (hs.kept?_iff.mpr ⟨ha, hid⟩)
  exact hreason

theorem archiveReason_ne_none (h : s.Reasoned id) (hget : s.get now id = .ok m) :
    m.archiveReason ≠ none := by
  obtain ⟨k, hk, rfl⟩ := get_eq_ok.mp hget
  obtain ⟨hmem, hid⟩ := mem_of_kept? hk
  exact h.reason k hmem hid

theorem edit {k : MemoryId} {f : Memory → Memory} (h : s.Reasoned id)
    (hm : s'.memories = s.memories.map (·.editAt k f)) (hid : ∀ m, (f m).id = m.id)
    (hf : ∀ m, m.archiveReason ≠ none → (f m).archiveReason ≠ none)
    (hl : s'.lastMemoryId = s.lastMemoryId) : s'.Reasoned id := by
  refine ⟨h.given.trans_eq hl.symm, fun m' hm' hid' => ?_⟩
  obtain ⟨m, hmem, rfl⟩ := List.mem_map.mp (hm ▸ hm')
  have hreason := h.reason m hmem ((Memory.editAt_id hid m).symm.trans hid')
  unfold Memory.editAt
  split
  · exact hf m hreason
  · exact hreason

/-- Changes that do not clear a reason leave one. -/
theorem withChanges {c : Changes} (h : s.Reasoned id) (now : Instant) (k : MemoryId)
    (hc : c.archiveReason ≠ .clear) : (s.withChanges now k c).Reasoned id := by
  refine h.edit (memories_withChanges ..) (fun _ => rfl) (fun m hm => ?_) rfl
  simp only [edited, changed]
  cases hreason : c.archiveReason with
  | keep => exact hm
  | clear => exact absurd hreason hc
  | set reason => exact Option.some_ne_none reason

/-- So does every write that is no update. -/
theorem write {v : Vocabulary} {may : Revision → Prop} (h : s.Reasoned id) (hmay : ¬may .update)
    (hw : WriteOf v may s s') : s'.Reasoned id := by
  cases hw with
  | @create now r hr hp hnow =>
    have hlast := lastMemoryId_withNewcomer s now r
    refine ⟨h.given.trans (hlast ▸ Int.le_of_lt (Int.lt_succ _)), fun m hm hid => ?_⟩
    rw [memories_withNewcomer] at hm
    rcases List.mem_append.mp hm with hm | hm
    · exact h.reason m hm hid
    · rw [List.mem_singleton.mp hm] at hid
      have hnext : s.lastMemoryId + 1 = id := hid
      exact absurd h.given (Int.not_le.mpr (hnext ▸ Int.lt_succ s.lastMemoryId))
  | update hc hupdate => exact absurd hupdate hmay
  | remove =>
    refine ⟨h.given, fun m' hm' hid => ?_⟩
    rw [memories_remove] at hm'
    obtain ⟨m, hm, rfl⟩ := List.mem_map.mp hm'
    rw [Memory.orphanedBy_id] at hid
    have hreason := h.reason m (List.mem_filter.mp hm).1 hid
    unfold Memory.orphanedBy
    split
    · exact hreason
    · exact hreason
  | access => exact h.edit (memories_withAccess ..) (fun _ => rfl) (fun _ hm => hm) rfl
  | context => exact ⟨h.given, h.reason⟩
  | relate => exact ⟨h.given, h.reason⟩
  | archive =>
    exact h.edit (memories_modifyMemory ..) (fun _ => rfl)
      (fun _ _ => Option.some_ne_none _) rfl
  | age => exact h.edit (memories_modifyMemory ..) (fun _ => rfl) (fun _ hm => hm) rfl

theorem writes {v : Vocabulary} {may : Revision → Prop} (h : s.Reasoned id) (hmay : ¬may .update)
    (hw : WritesOf v may s s') : s'.Reasoned id := by
  induction hw with
  | refl => exact h
  | tail _ hstep ih => exact ih.write hmay hstep

/-- And so does every operation that clears no reason. -/
theorem perform {e : Engine} {op : Operation} {w : World} (h : w.store.Reasoned id)
    (hs : w.store.Sound) (hop : ∀ k c, op = .update k c → c.archiveReason ≠ .clear) :
    (e.perform op w).store.Reasoned id := by
  by_cases hupdate : ∃ k c, op = .update k c
  · obtain ⟨k, c, rfl⟩ := hupdate
    have hafter : (e.perform (.update k c) w).store =
        ((·.2) <$> e.update w.clock k c w.store).toOption.getD w.store := rfl
    rw [hafter]
    cases hresult : e.update w.clock k c w.store with
    | error err => exact h
    | ok a =>
      obtain ⟨m, s'⟩ := a
      obtain ⟨-, -, rfl, -⟩ := Engine.update_eq_ok hs hresult
      exact h.withChanges w.clock k (hop k c rfl)
  · have hwrites : WritesOf e.vocabulary (· ≠ .update) w.store (e.perform op w).store :=
      Engine.writesOf_perform hs (fun k c heq => absurd ⟨k, c, heq⟩ hupdate) Revision.noConfusion
        fun _ _ => Revision.noConfusion
    exact h.writes (fun hne => hne rfl) hwrites

end Store.Reasoned

namespace World

/-- Operations of engines that satisfy `p`, whose changes are all read from documents, lead from one
world to another. -/
def RunsByDocuments (p : Engine → Prop) : World → World → Prop :=
  Relation.ReflTransGen fun w w' =>
    ∃ e op, p e ∧ (∀ id c, op = .update id c → ∃ d, Changes.ofDocument? d = some c) ∧
      w' = e.perform op w

variable {p : Engine → Prop} {w w' : World}

theorem RunsByDocuments.reasoned {id : MemoryId} (hr : RunsByDocuments p w w')
    (hs : w.store.Sound) (h : w.store.Reasoned id) : w'.store.Reasoned id := by
  have hboth : w'.store.Sound ∧ w'.store.Reasoned id := by
    induction hr with
    | refl => exact ⟨hs, h⟩
    | tail _ hstep ih =>
      obtain ⟨e, op, -, hread, rfl⟩ := hstep
      obtain ⟨hsound, hreasoned⟩ := ih
      have hop : ∀ k c, op = .update k c → c.archiveReason ≠ .clear := by
        intro k c hop
        obtain ⟨d, hd⟩ := hread k c hop
        exact Changes.archiveReason_ne_clear hd
      exact ⟨hsound.writes (e.writes_perform hsound op), hreasoned.perform hsound hop⟩
  exact hboth.2

/-- For any changes whose numbers fit their fields there is a JSON object that says them, so that
updates by it give the same memory or error as updates by the changes, in every store that a run
reaches, but where the changes take a reason away. They do so just when they clear it, and no
document does: not in one update, and not in any run in which changes come from documents. -/
theorem updates_expressed_in_json (e : Engine) {u : Changes} (hu : u.InBounds) :
    (∃ fields c, (Document.record fields).IsJson ∧
      Changes.ofDocument? (.record fields) = some c ∧
      ∀ w : World, w.Reached p → ∀ now id, ¬ e.TakesReason now id u w.store →
        e.update now id c w.store = e.update now id u w.store) ∧
    ∀ w : World, w.Reached p →
      (∀ now id, e.TakesReason now id u w.store ↔ u.archiveReason = .clear ∧
        ∃ old m s', w.store.get now id = .ok old ∧ old.archiveReason ≠ none ∧
          e.update now id u w.store = .ok (m, s')) ∧
      (∀ d c, Changes.ofDocument? d = some c → ∀ now id, ¬ e.TakesReason now id c w.store) ∧
      ∀ w', RunsByDocuments p w w' → ∀ id now old, w.store.get now id = .ok old →
        old.archiveReason ≠ none → ∀ later m, w'.store.get later id = .ok m →
          m.archiveReason ≠ none := by
  refine ⟨⟨u.fields, u.withoutClearing, Changes.isJson_fields hu, Changes.ofDocument?_fields hu,
    fun w hw now id hkeeps => Engine.update_withoutClearing hw.sound hkeeps⟩, fun w hw => ?_⟩
  refine ⟨fun now id => Engine.takesReason_iff hw.sound, fun d c hc now id htakes =>
    Changes.archiveReason_ne_clear hc ((Engine.takesReason_iff hw.sound).mp htakes).1, ?_⟩
  intro w' hr id now old hold hreason later m hm
  have hreasoned : w.store.Reasoned id := .of_get hw.sound hold hreason
  exact (hr.reasoned hw.sound hreasoned).archiveReason_ne_none hm

/-! ## A memory archived by hand -/

/-- Changes that archive a memory for a reason. -/
def archiving : Changes := { archived := some true, archiveReason := .set "manual" }

/-- Changes that bring a memory back and clear its reason. -/
def bringingBack : Changes := { archived := some false, archiveReason := .clear }

/-- A world with one memory, archived by hand. -/
def withArchivedTea : World := Engine.oneTag.perform (.update 1 archiving) (withTea ⟨0⟩ 5)

theorem reached_withArchivedTea : withArchivedTea.Reached (· = .oneTag) := by
  obtain ⟨clock, hrun⟩ := reached_withTea ⟨0⟩ 5
  exact ⟨clock, hrun.tail ⟨.oneTag, _, rfl, rfl⟩⟩

theorem inBounds_bringingBack : bringingBack.InBounds := by
  constructor <;> (intro _ h; cases h)

/-- The JSON object for these changes does the same to a memory that is not archived, and leaves the
archived one its reason. -/
theorem updates_expressed_in_json_bringingBack :
    bringingBack.InBounds ∧ (withTea ⟨0⟩ 5).Reached (· = .oneTag) ∧
    ∃ fields c m s', (Document.record fields).IsJson ∧
      Changes.ofDocument? (.record fields) = some c ∧
      Engine.oneTag.update ⟨0⟩ 1 c (withTea ⟨0⟩ 5).store = .ok (m, s') ∧ m.archived = false ∧
      m.archiveReason = none ∧
      (∀ now id, ¬ Engine.oneTag.TakesReason now id c withArchivedTea.store) := by
  obtain ⟨⟨fields, c, hjson, hread, hsame⟩, hnever⟩ :=
    updates_expressed_in_json (p := (· = .oneTag)) .oneTag inBounds_bringingBack
  have hkeeps : ¬ Engine.oneTag.TakesReason ⟨0⟩ 1 bringingBack (withTea ⟨0⟩ 5).store := by
    rintro ⟨old, -, -, hold, hreason, -⟩
    obtain rfl := Except.ok.inj hold
    exact hreason rfl
  obtain ⟨m, s', hupdate, hactive, hnone⟩ : ∃ m s',
      Engine.oneTag.update ⟨0⟩ 1 bringingBack (withTea ⟨0⟩ 5).store = .ok (m, s') ∧
        m.archived = false ∧ m.archiveReason = none := ⟨_, _, rfl, rfl, rfl⟩
  exact ⟨inBounds_bringingBack, reached_withTea ⟨0⟩ 5, fields, c, m, s', hjson, hread,
    (hsame _ (reached_withTea ⟨0⟩ 5) ⟨0⟩ 1 hkeeps).trans hupdate, hactive, hnone,
    (hnever _ reached_withArchivedTea).2.1 _ c hread⟩

/-- The archived memory can be brought back and its reason cleared, but by no document. -/
theorem reason_cleared_by_no_document : ∃ old m s',
    withArchivedTea.Reached (· = .oneTag) ∧ withArchivedTea.store.get ⟨0⟩ 1 = .ok old ∧
    old.archived = true ∧ old.archiveReason = some "manual" ∧ bringingBack.InBounds ∧
    Engine.oneTag.update ⟨0⟩ 1 bringingBack withArchivedTea.store = .ok (m, s') ∧
    m.archived = false ∧ m.archiveReason = none ∧
    ∀ d c, Changes.ofDocument? d = some c → ∀ m' s'',
      Engine.oneTag.update ⟨0⟩ 1 c withArchivedTea.store = .ok (m', s'') →
        m'.archiveReason ≠ none := by
  obtain ⟨old, hold, harchived, hreason⟩ : ∃ old, withArchivedTea.store.get ⟨0⟩ 1 = .ok old ∧
      old.archived = true ∧ old.archiveReason = some "manual" := ⟨_, rfl, rfl, rfl⟩
  refine ⟨old, _, _, reached_withArchivedTea, hold, harchived, hreason, inBounds_bringingBack, rfl,
    rfl, rfl, fun d c hread m' s'' hupdate hnone => ?_⟩
  have htakes : Engine.oneTag.TakesReason ⟨0⟩ 1 c withArchivedTea.store :=
    ⟨old, m', s'', hold, by simp [hreason], hupdate, hnone⟩
  exact Changes.archiveReason_ne_clear hread
    ((Engine.takesReason_iff reached_withArchivedTea.sound).mp htakes).1

end World

end LongTermMemory
