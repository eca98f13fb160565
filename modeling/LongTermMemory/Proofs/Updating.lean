import LongTermMemory.Proofs.Creation
import LongTermMemory.Proofs.OptimisticLock
import LongTermMemory.Proofs.Stamped
import LongTermMemory.Proofs.Store.Indexed
import LongTermMemory.Proofs.Store.Prepared
import LongTermMemory.Proofs.Store.Statement

/-!
Updates: changes that are accepted become a memory as they name it, in normal form, and leave
everything else as it was. Tags are the exception that they are at creation, since they are kept
under names that read a text up to its first NUL.
-/

namespace LongTermMemory

/-- `m` is `old` with some changes made to it at an instant. -/
structure Memory.Updated (old m : Memory) (now : Instant) (c : Changes) : Prop where
  content : m.content = c.content.getD old.content
  tags : (c.tags = none → m.tags = old.tags) ∧
    ∀ tags, c.tags = some tags → m.Spells (Vocabulary.normalForms tags)
  type : m.type = c.type.getD old.type
  category : m.category = (c.category.map Text.trim).getD old.category
  importance : m.importance = c.importance.getD old.importance ∧
    m.dynamicImportance = c.importance.elim old.dynamicImportance Single.ofInt
  /-- As a number; the sign of a zero is not kept. -/
  confidence : (c.confidence = none → m.confidence = old.confidence) ∧
    ∀ x, c.confidence = some x → m.confidence.place = x.place
  metadata : m.metadata = c.metadata.getD old.metadata
  related : (c.related = none → m.related = old.related) ∧
    ∀ ids, c.related = some ids →
      m.related.Pairwise (· < ·) ∧ ∀ id, id ∈ m.related ↔ id ∈ ids
  archived : m.archived = c.archived.getD old.archived
  archiveReason : m.archiveReason =
    match c.archiveReason with
    | .keep => old.archiveReason
    | .clear => none
    | .set reason => some reason
  /-- Nothing else but the version and the time of the last change. -/
  others : m = { old with
    content := m.content
    tags := m.tags
    type := m.type
    category := m.category
    importance := m.importance
    dynamicImportance := m.dynamicImportance
    confidence := m.confidence
    metadata := m.metadata
    related := m.related
    archived := m.archived
    archiveReason := m.archiveReason
    version := old.version + 1
    lastModified := now }

/-- Beside the memory of an id nothing has changed. -/
structure Store.SameBeside (id : MemoryId) (s s' : Store) : Prop where
  entries : ∀ k, k ≠ id → s'.entry? k = s.entry? k
  ids : s'.memories.map (·.id) = s.memories.map (·.id)
  contexts : s'.contexts = s.contexts
  relationships : s'.relationships = s.relationships
  accesses : s'.accesses = s.accesses
  /-- The table of tag names at most grows. -/
  names : s.tagNames ⊆ s'.tagNames
  lastIds : s'.lastMemoryId = s.lastMemoryId ∧ s'.lastContextId = s.lastContextId ∧
    s'.lastRelationshipId = s.lastRelationshipId ∧ s'.lastAccessId = s.lastAccessId

namespace Store

variable {s : Store} {now : Instant} {id : MemoryId} {c : Changes}

theorem entry?_modify {f : Entry → Entry} (hf : ∀ e, (f e).memory.id = e.memory.id)
    (k : MemoryId) : entry? (s.modify id f) k =
      (s.entry? k).map fun e => if e.memory.id = id then f e else e := by
  have hsame : (fun e : Entry => decide (e.memory.id = k)) ∘
      (fun e => if e.memory.id = id then f e else e) = fun e => decide (e.memory.id = k) := by
    funext e
    simp only [Function.comp_apply]
    split
    · rw [hf]
    · rfl
  unfold entry? modify
  rw [List.find?_map, hsame]

theorem entry?_modify_of_ne {f : Entry → Entry} (hf : ∀ e, (f e).memory.id = e.memory.id)
    {k : MemoryId} (hk : k ≠ id) : entry? (s.modify id f) k = s.entry? k := by
  rw [entry?_modify hf]
  cases hfind : s.entry? k with
  | none => rfl
  | some e =>
    have hid : e.memory.id = k := by simpa using List.find?_some hfind
    simp [hid, hk]

theorem sameBeside_withChanges (s : Store) (now : Instant) (id : MemoryId) (c : Changes) :
    SameBeside id s (s.withChanges now id c) :=
  { entries := fun _ => entry?_modify_of_ne (f := changedEntry now c (s.changedTags c).1)
      fun _ => rfl
    ids := by
      rw [memories_withChanges]
      exact map_id_editAt (f := edited now c (s.changedTags c).1) (fun _ => rfl) s.memories
    contexts := rfl
    relationships := rfl
    accesses := rfl
    names := by
      unfold withChanges changedTags
      split
      · exact List.Subset.refl _
      · exact fun _ => mem_keepTags_of_mem
    lastIds := ⟨rfl, rfl, rfl, rfl⟩ }

/-- A memory that is read alike at two instants still is when it has been changed at a readable
one. -/
theorem readAt_edited_eq {m : Memory} {tags : Option (List String)} {later : Instant}
    (hnow : now.readable = true) (h : m.readAt later = m.readAt now) :
    (edited now c tags m).readAt later = (edited now c tags m).readAt now := by
  have hcreated : (if m.createdAt.readable then m.createdAt else later) =
      if m.createdAt.readable then m.createdAt else now := congrArg Memory.createdAt h
  have hread : (edited now c tags m).lastModified.readable = true := hnow
  simp only [Memory.readAt, hread, ↓reduceIte]
  congr 1

/-- The changed memory, as it is read, is the one read before with the changes. -/
theorem updated_edited (hdistinct : DistinctNames s.tagNames)
    (hnormal : ∀ n ∈ s.tagNames, n ≠ "" ∧ normalizeTag n = n) {l : List String}
    (hc : c.normalized.Normal (.ofList l)) (now : Instant) (old : Memory) :
    (old.readAt now).Updated
      ((edited now c.normalized (s.changedTags c.normalized).1 old).readAt now) now c := by
  refine
    { content := rfl
      tags := ⟨fun hnone => ?_, fun tags hsome => ?_⟩
      type := rfl
      category := rfl
      importance := ⟨rfl, rfl⟩
      confidence := ⟨fun hnone => ?_, fun x hsome => ?_⟩
      metadata := rfl
      related := ⟨fun hnone => ?_, fun ids hsome => ?_⟩
      archived := rfl
      archiveReason := rfl
      others := ?_ }
  · simp [edited, changedTags, Changes.normalized, hnone, Memory.readAt]
  · have htags : c.normalized.tags = some (Vocabulary.normalForms tags) := by
      simp [Changes.normalized, hsome]
    refine spells_of_keepTags hdistinct hnormal (hc.tags _ htags) ?_
    simp [edited, changedTags, htags, Memory.readAt]
  · simp [edited, changed, Changes.normalized, hnone, Memory.readAt]
  · simp [edited, changed, Changes.normalized, hsome, Memory.readAt, Single.place_stored]
  · simp [edited, changed, Changes.normalized, hnone, Memory.readAt]
  · simp only [Memory.readAt, edited, changed, Changes.normalized, hsome, Option.elim_some]
    exact ⟨Ascending.pairwise_ofList _, fun id => Ascending.mem_ofList id _⟩
  · -- an instant that cannot be read back counts as just now
    simp only [Memory.readAt, edited, changed]
    congr 1
    exact ite_self now

end Store

/-! ## Accepted changes -/

section

variable {s : Store} {now : Instant} {id : MemoryId} {c : Changes} {v : Vocabulary} {old : Memory}

/-- The table finds no fault with what is in normal form. -/
theorem Changes.Normal.constraints (hc : c.Normal v) :
    c.importance.all Store.importanceInRange = true ∧ c.confidence.all Single.inUnit = true :=
  ⟨(Option.all_eq_true ..).mpr fun i hi => decide_eq_true (hc.importance i hi),
    (Option.all_eq_true ..).mpr hc.confidence⟩

theorem Store.Sound.update_of_normal (hs : s.Sound) (hc : c.Normal v) (hk : s.kept? id = some old)
    (hv : ∀ n, c.expectedVersion = some n → n = old.version) :
    s.update now id c = .ok ((Store.edited now c (s.changedTags c).1 old).readAt now,
      s.withChanges now id c) := by
  obtain ⟨himportance, hconfidence⟩ := hc.constraints
  rw [Store.update_eq hk hv, himportance, hconfidence,
    Store.get_eq_ok.mpr ⟨_, hs.kept?_withChanges now hc hk, rfl⟩]
  rfl

/-- The statement put together for changes, with those that set the tags after it. -/
theorem Prepared.Update.outcome_ofChanges (hs : s.Sound) (hnames : Store.DistinctNames s.tagNames)
    (hc : c.Normal v) (hk : s.kept? id = some old) (now : Instant) :
    ∃ statement, (ofChanges now id old.version c).statement? = some statement ∧
      (statement >>= fun _ => Statements.resetTags id c.tags).outcome s =
        (.ok (), s.withChanges now id c) := by
  obtain ⟨himportance, hconfidence⟩ := hc.constraints
  obtain ⟨statement, hstatement, houtcome⟩ := statement?_ofChanges now id old.version c
  have hid : s.exists? id = true := Store.exists?_iff.mpr ⟨old, Store.mem_of_kept? hk⟩
  have hwritten : statement.outcome s =
      (.ok true, s.modify id (Store.changedEntry now c none)) := by
    rw [houtcome s hs, Statements.outcome_updateMemory hk, himportance, hconfidence]
    rfl
  exact ⟨statement, hstatement, (Statements.outcome_bind_ok hwritten).trans
    (Statements.outcome_resetTags hid hnames c)⟩

variable {e : Engine}

theorem Engine.update_of_invalid {cause : Invalid} (h : c.check e.vocabulary = .error cause) :
    e.update now id c s = .error (.validation cause) := by
  simp [update, prepareChanges, h, Invalid.raise, Bind.bind, Except.bind]

theorem Engine.update_of_valid {tags : Option (List String)}
    (h : c.check e.vocabulary = .ok tags) :
    e.update now id c s = s.update now id c.normalized ∧ c.normalized.Normal e.vocabulary := by
  have hprepare : e.prepareChanges c = .ok c.normalized :=
    prepareChanges_eq_ok.mpr ⟨⟨tags, h⟩, rfl⟩
  refine ⟨?_, (normal_of_prepareChanges hprepare).1⟩
  rw [update, hprepare]
  rfl

end

namespace World

/-- Changes are refused for their own fault if they have one, as for nothing known if the memory is
not there, and as outdated if it is at another version than they expect. Otherwise they are made:
what is returned is what is read back, the memory before with the changes in normal form, and beside
it nothing has changed. The statement put together for them, its values taken by their places, and
those that set the tags make the same store. -/
theorem update_makes_its_changes_alone {p : Engine → Prop}
    (hp : ∀ e, p e → ∃ c, Engine.ofConfig c = .ok e) {w : World} (hw : w.Reached p)
    {config : Config} {e : Engine} (he : Engine.ofConfig config = .ok e) (now : Instant)
    (id : MemoryId) (c : Changes) :
    (∀ cause, c.check e.vocabulary = .error cause →
      e.update now id c w.store = .error (.validation cause)) ∧
    ∀ tags, c.check e.vocabulary = .ok tags →
      (w.store.kept? id = none → e.update now id c w.store = .error (.notFound id)) ∧
      ∀ old, w.store.get now id = .ok old →
        (∀ v, c.expectedVersion = some v → v ≠ old.version →
          e.update now id c w.store = .error (.conflict (.version id old.version v))) ∧
        ((∀ v, c.expectedVersion = some v → v = old.version) →
          ∃ m s' statement, e.update now id c w.store = .ok (m, s') ∧
            s'.get now id = .ok m ∧
            (now.readable = true → ∀ later, w.store.get later id = .ok old →
              s'.get later id = .ok m) ∧
            old.Updated m now c ∧ w.store.SameBeside id s' ∧ s'.Indexed ∧
            (Prepared.Update.ofChanges now id old.version c.normalized).statement? =
              some statement ∧
            (statement >>= fun _ => Statements.resetTags id c.normalized.tags).outcome w.store =
              (.ok (), s')) := by
  obtain ⟨-, rfl⟩ := Engine.ofConfig_eq_ok.mp he
  have hs := hw.sound
  refine ⟨fun cause => Engine.update_of_invalid, fun tags htags => ?_⟩
  obtain ⟨hupdate, hnormal⟩ := Engine.update_of_valid htags
  rw [hupdate]
  refine ⟨Store.update_of_gone, fun old hold => ?_⟩
  obtain ⟨k, hk, rfl⟩ := Store.get_eq_ok.mp hold
  rw [Memory.readAt_version]
  refine ⟨fun v hexp => Store.update_of_stale (c := c.normalized) hk hexp, fun hv => ?_⟩
  have hkept := hs.kept?_withChanges now hnormal hk
  obtain ⟨statement, hstatement, houtcome⟩ :=
    Prepared.Update.outcome_ofChanges hs hw.distinctNames hnormal hk now
  refine ⟨_, _, statement, hs.update_of_normal hnormal hk hv, Store.get_eq_ok.mpr ⟨_, hkept, rfl⟩,
    fun hnow later hlater => ?_,
    Store.updated_edited hw.distinctNames (hw.normal_names hp) hnormal now k,
    Store.sameBeside_withChanges w.store now id c.normalized,
    hw.indexed.write (.update hnormal trivial trivial), hstatement, houtcome⟩
  obtain ⟨k', hk', hsame⟩ := Store.get_eq_ok.mp hlater
  obtain rfl : k = k' := Option.some.inj (hk.symm.trans hk')
  exact Store.get_eq_ok.mpr ⟨_, hkept, Store.readAt_edited_eq hnow hsame⟩

/-- Changes that are not in normal form, by a client that has read version 1. -/
def refiled : Changes :=
  { category := some " kitchen ", tags := some ["Food"], related := some [2, 1, 1],
    expectedVersion := some 1 }

theorem update_makes_its_changes_alone_refiled : ∃ old m s',
    (withTea ⟨0⟩ 5).store.get ⟨0⟩ 1 = .ok old ∧
    Engine.oneTag.update ⟨0⟩ 1 refiled (withTea ⟨0⟩ 5).store = .ok (m, s') ∧
    s'.get ⟨0⟩ 1 = .ok m ∧ m.category = "kitchen" ∧ m.tags = ["food"] ∧
    (∀ k, k ∈ m.related ↔ k = 1 ∨ k = 2) ∧ m.content = old.content ∧ m.version = 2 := by
  have hcheck : refiled.check Engine.oneTag.vocabulary = .ok (some ["food"]) := by
    have heval : (refiled.check Engine.oneTag.vocabulary).toOption = some (some ["food"]) := by
      decide
    cases hc : refiled.check Engine.oneTag.vocabulary with
    | error cause =>
      rw [hc] at heval
      cases heval
    | ok tags =>
      rw [hc] at heval
      exact congrArg Except.ok (Option.some.inj heval)
  have hfood : Vocabulary.normalForms ["Food"] = ["food"] := by decide
  obtain ⟨-, haccepted⟩ := update_makes_its_changes_alone (p := (· = .oneTag))
    (fun e he => ⟨.oneTag, he ▸ Engine.ofConfig_oneTag⟩) (reached_withTea ⟨0⟩ 5)
    Engine.ofConfig_oneTag ⟨0⟩ 1 refiled
  obtain ⟨-, hkept⟩ := haccepted _ hcheck
  obtain ⟨old, hold, hversion⟩ : ∃ old, (withTea ⟨0⟩ 5).store.get ⟨0⟩ 1 = .ok old ∧
      old.version = 1 := ⟨_, rfl, rfl⟩
  obtain ⟨m, s', -, hupdate, hget, -, hm, -⟩ := (hkept old hold).2 fun v hv => by
    cases hv
    exact hversion.symm
  have htags : m.tags = ["food"] := by
    rw [← hfood]
    exact ((hm.tags.2 _ rfl).plain (by simp [hfood])).1
  have hcategory : Text.trim " kitchen " = "kitchen" := by decide
  refine ⟨old, m, s', hold, hupdate, hget, hm.category.trans hcategory, htags,
    fun id => (hm.related.2 _ rfl).2 id |>.trans ?_, hm.content, ?_⟩
  · simp [or_comm]
  · rw [hm.others, hversion]
    rfl

/-- Of two tags that are one name only the first is set. -/
theorem update_drops_tag : ∃ (e : Engine) (m : Memory) (s' : Store),
    Engine.ofConfig oneName = .ok e ∧ withFirstTag.Reached (· = e) ∧
    e.update ⟨0⟩ 1 { tags := some bothTags.tags } withFirstTag.store = .ok (m, s') ∧
    s'.get ⟨0⟩ 1 = .ok m ∧ Vocabulary.normalForms bothTags.tags = ["a\x00bb", "a\x00zz"] ∧
    m.tags = ["a\x00bb"] := by
  refine ⟨.ofUnchecked oneName, _, _, rfl, ⟨⟨0⟩, .single ⟨_, _, rfl, rfl⟩⟩, rfl, rfl,
    by decide, ?_⟩
  exact List.mergeSort_singleton _

end World

end LongTermMemory
