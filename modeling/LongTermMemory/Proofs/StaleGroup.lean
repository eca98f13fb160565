import LongTermMemory.Proofs.Consolidation
import LongTermMemory.Proofs.Gist
import LongTermMemory.Proofs.Merging
import LongTermMemory.Proofs.Store.Spelling

/-!
Merging a group that was read earlier. Whatever was done to the store since, either nothing happens,
or the members that are still active, as they are now, give way to one memory made of just them.
-/

namespace LongTermMemory

/-! ## Owners -/

/-- The memories of a later store that are not new belong to those who owned them before. -/
structure Store.KeepsOwners (s s' : Store) : Prop where
  last_le : s.lastMemoryId ≤ s'.lastMemoryId
  owner : ∀ m' ∈ s'.memories,
    s.lastMemoryId < m'.id ∨ ∃ m ∈ s.memories, m.id = m'.id ∧ m.owner = m'.owner

namespace Store.KeepsOwners

variable {s₀ s s' : Store}

theorem refl (s : Store) : s.KeepsOwners s :=
  ⟨Int.le_refl _, fun m hm => .inr ⟨m, hm, rfl, rfl⟩⟩

theorem edit (h : s₀.KeepsOwners s) {id : MemoryId} {f : Memory → Memory}
    (hm : s'.memories = s.memories.map (·.editAt id f)) (hid : ∀ m, (f m).id = m.id)
    (howner : ∀ m, (f m).owner = m.owner) (hl : s'.lastMemoryId = s.lastMemoryId) :
    s₀.KeepsOwners s' := by
  refine ⟨hl ▸ h.last_le, fun m' hm' => ?_⟩
  obtain ⟨m, hmem, rfl⟩ := List.mem_map.mp (hm ▸ hm')
  have hsame : (m.editAt id f).owner = m.owner := by
    unfold Memory.editAt
    split
    · exact howner m
    · rfl
  rw [Memory.editAt_id hid, hsame]
  exact h.owner m hmem

theorem write (h : s₀.KeepsOwners s) {v : Vocabulary} (hw : Write v s s') : s₀.KeepsOwners s' := by
  cases hw with
  | @create now r hr hp =>
    have hlast := Int.lt_add_one_of_le h.last_le
    refine ⟨lastMemoryId_withNewcomer s now r ▸ Int.le_of_lt hlast, fun m hm => ?_⟩
    rw [memories_withNewcomer] at hm
    rcases List.mem_append.mp hm with hm | hm
    · exact h.owner m hm
    · rw [List.mem_singleton.mp hm]
      exact Or.inl hlast
  | update => exact h.edit (memories_withChanges ..) (fun _ => rfl) (fun _ => rfl) rfl
  | @remove id =>
    refine ⟨h.last_le, fun m' hm' => ?_⟩
    rw [memories_remove] at hm'
    obtain ⟨m, hm, rfl⟩ := List.mem_map.mp hm'
    have howner := h.owner m (List.mem_filter.mp hm).1
    unfold Memory.orphanedBy
    split <;> exact howner
  | access => exact h.edit (memories_withAccess ..) (fun _ => rfl) (fun _ => rfl) rfl
  | context => exact ⟨h.last_le, h.owner⟩
  | relate => exact ⟨h.last_le, h.owner⟩
  | archive => exact h.edit (memories_modifyMemory ..) (fun _ => rfl) (fun _ => rfl) rfl
  | age => exact h.edit (memories_modifyMemory ..) (fun _ => rfl) (fun _ => rfl) rfl

/-- The owner of an id does not change. -/
theorem kept? (h : s.KeepsOwners s') (hs : s.Sound) {id : MemoryId} {m m' : Memory}
    (hm : s.kept? id = some m) (hm' : s'.kept? id = some m') : m'.owner = m.owner := by
  obtain ⟨hmem, hid⟩ := mem_of_kept? hm
  obtain ⟨hmem', hid'⟩ := mem_of_kept? hm'
  rcases h.owner m' hmem' with hlt | ⟨k, hk, hkid, howner⟩
  · have hle := hs.bounded m hmem
    rw [hid, ← hid'] at hle
    exact absurd hlt (Int.not_lt.mpr hle)
  · have hkm := hs.kept?_of_mem hk
    rw [hkid, hid', hm] at hkm
    cases hkm
    exact howner.symm

end Store.KeepsOwners

/-! ## What was read -/

namespace World

variable {p : Engine → Prop} {w : World} {owner : String} {m : Memory}

/-- A memory as it was read among an owner's active memories at some moment of a run to the
world. -/
def WasRead (p : Engine → Prop) (w : World) (owner : String) (m : Memory) : Prop :=
  ∃ w₀ t, w₀.Reached p ∧ Runs p w₀ w ∧ m ∈ w₀.store.activeAt t owner

theorem WasRead.reached (h : w.WasRead p owner m) : w.Reached p := by
  obtain ⟨w₀, -, ⟨clock, h₀⟩, hr, -⟩ := h
  exact ⟨clock, h₀.trans hr⟩

theorem WasRead.id_le (h : w.WasRead p owner m) : m.id ≤ w.store.lastMemoryId := by
  obtain ⟨w₀, t, h₀, hr, hm⟩ := h
  obtain ⟨k, hk, -, -, rfl⟩ := Store.mem_activeAt_iff.mp hm
  exact Int.le_trans (h₀.sound.bounded k hk) (evolves_of_runs h₀.sound hr).last_le

theorem WasRead.sound (h : w.WasRead p owner m) : m.Sound ∧ m.owner = owner := by
  obtain ⟨w₀, t, h₀, -, hm⟩ := h
  obtain ⟨k, hk, howner, -, rfl⟩ := Store.mem_activeAt_iff.mp hm
  exact ⟨{ h₀.sound.memories k hk with }, howner⟩

theorem WasRead.normal_tags (hp : ∀ e, p e → ∃ c, Engine.ofConfig c = .ok e)
    (h : w.WasRead p owner m) : ∀ t ∈ m.tags, t ≠ "" ∧ normalizeTag t = t := by
  obtain ⟨w₀, t, h₀, -, hm⟩ := h
  obtain ⟨k, hk, -, -, rfl⟩ := Store.mem_activeAt_iff.mp hm
  exact h₀.normal_tags hp k hk

/-- What is kept under the id of a memory now has its owner, and while its version is that of the
memory, its gist too. -/
theorem WasRead.kept? (h : w.WasRead p owner m) {k : Memory} (hk : w.store.kept? m.id = some k) :
    k.owner = owner ∧ (k.version = m.version → k.gist = m.gist) := by
  obtain ⟨w₀, t, h₀, hr, hm⟩ := h
  obtain ⟨k₀, hk₀, rfl, -, rfl⟩ := Store.mem_activeAt_iff.mp hm
  have hs₀ := h₀.sound
  have hkept := hs₀.kept?_of_mem hk₀
  have howners : w₀.store.KeepsOwners w.store :=
    holds_of_runs (fun _ _ h hwrite => h.write hwrite) hs₀ (.refl _) hr
  refine ⟨howners.kept? hs₀ hkept hk, fun hversion => ?_⟩
  exact (((evolves_of_runs hs₀ hr).kept? hs₀ hkept hk).unedited hversion.symm).gist_eq

end World

/-! ## What is left of a group -/

namespace Store

/-- The members of a group that are kept as active memories, as they are now. -/
def stillActive (s : Store) (now : Instant) (group : List Memory) : List Memory :=
  group.filterMap fun m => ((s.kept? m.id).filter fun k => !k.archived).map (·.readAt now)

variable {s : Store} {now : Instant} {owner : String} {group : List Memory}

theorem mem_stillActive {m : Memory} : m ∈ s.stillActive now group ↔
    ∃ g ∈ group, ∃ k, s.kept? g.id = some k ∧ k.archived = false ∧ k.readAt now = m := by
  simp [stillActive, Option.filter_eq_some_iff, and_assoc]

theorem ids_stillActive_sublist (s : Store) (now : Instant) (group : List Memory) :
    ((s.stillActive now group).map (·.id)).Sublist (group.map (·.id)) := by
  unfold stillActive
  induction group with
  | nil => exact List.Sublist.refl _
  | cons m rest ih =>
    rw [List.filterMap_cons]
    cases hk : (s.kept? m.id).filter fun k => !k.archived with
    | none => exact ih.cons _
    | some k =>
      have hid : k.id = m.id := (mem_of_kept? (Option.filter_eq_some_iff.mp hk).1).2
      simpa [hid] using ih

/-- The members that are still active are current. -/
theorem current_stillActive {m : Memory} (hm : m ∈ s.stillActive now group) : s.Current m := by
  obtain ⟨g, -, k, hk, hactive, rfl⟩ := mem_stillActive.mp hm
  exact ⟨k, by rw [Memory.readAt_id, (mem_of_kept? hk).2, hk], rfl, hactive⟩

theorem stillActive_cons {m k : Memory} (now : Instant) (hk : s.kept? m.id = some k)
    (hactive : k.archived = false) (rest : List Memory) :
    s.stillActive now (m :: rest) = k.readAt now :: s.stillActive now rest := by
  unfold stillActive
  rw [List.filterMap_cons, hk]
  simp [Option.filter, hactive]

end Store

namespace Engine

/-- What is loaded of a group again is what is still active of it. -/
theorem reload_eq {s : Store} {owner : String} {group : List Memory} (now : Instant)
    (howner : ∀ m ∈ group, ∀ k, s.kept? m.id = some k → k.owner = owner) :
    reload now owner group s = s.stillActive now group := by
  unfold reload Store.stillActive
  refine List.filterMap_congr fun m hm => ?_
  cases hk : s.kept? m.id with
  | none => simp [Store.get, hk]
  | some k =>
    have hsame : (k.readAt now).owner = owner := howner m hm k hk
    have hactive : (k.readAt now).archived = k.archived := rfl
    cases h : k.archived <;> simp [Store.get, hk, hsame, hactive, h, Option.filter]

/-- After a conflict what is left of a group is merged, if it is several memories. -/
theorem mergeWithRetry_of_conflict {e : Engine} {now : Instant} {owner : String}
    {group : List Memory} {s : Store} {cause : Conflict}
    (h : e.merge now owner group s = .error (.conflict cause)) :
    e.mergeWithRetry now owner group s =
      if (reload now owner group s).length < 2 then (none, s)
      else
        match e.merge now owner (reload now owner group s) s with
        | .ok (m, s') => (some m, s')
        | .error _ => (none, s) := by
  unfold mergeWithRetry
  rw [h]
  rfl

end Engine

namespace World

variable {p : Engine → Prop} {w : World} {owner : String} {group : List Memory}

/-- What is still active of a group that was read belongs to its owner. -/
theorem stillActive_subset (hread : ∀ m ∈ group, w.WasRead p owner m) (now : Instant) :
    ∀ m ∈ w.store.stillActive now group, m ∈ w.store.activeAt now owner := by
  intro m hm
  obtain ⟨g, hg, k, hk, hactive, rfl⟩ := Store.mem_stillActive.mp hm
  have howner := ((hread g hg).kept? hk).1
  exact Store.mem_activeAt_iff.mpr ⟨k, (Store.mem_of_kept? hk).1, howner, hactive, rfl⟩

/-- A group of current members is still active as a whole, and as it was read. -/
theorem gists_stillActive (hread : ∀ m ∈ group, w.WasRead p owner m)
    (hcurrent : ∀ m ∈ group, w.store.Current m) (now : Instant) :
    (w.store.stillActive now group).map Memory.gist = group.map Memory.gist := by
  induction group with
  | nil => rfl
  | cons m rest ih =>
    obtain ⟨k, hk, hversion, hactive⟩ := hcurrent m (by simp)
    have hgist : k.gist = m.gist := ((hread m (by simp)).kept? hk).2 hversion
    rw [Store.stillActive_cons now hk hactive, List.map_cons, List.map_cons, Memory.gist_readAt,
      hgist, ih (fun n hn => hread n (by simp [hn])) fun n hn => hcurrent n (by simp [hn])]

/-- What is prepared of the request for the memory of a group that was read is that request. -/
theorem eq_mergedRequest_of_wasRead (hp : ∀ e, p e → ∃ c, Engine.ofConfig c = .ok e) {e : Engine}
    (hne : group ≠ []) (hread : ∀ m ∈ group, w.WasRead p owner m) {r : NewMemory}
    (hr : e.prepare (e.config.consolidation.mergedRequest owner group) = .ok r) :
    r = e.config.consolidation.mergedRequest owner group := by
  obtain ⟨m, hm⟩ := List.exists_mem_of_ne_nil group hne
  obtain ⟨hsound, rfl⟩ := (hread m hm).sound
  exact Engine.eq_mergedRequest_of_prepare hr hsound.owner.2 (fun m hm => (hread m hm).sound.1)
    fun m hm => (hread m hm).normal_tags hp

/-- A group whose members are current is merged into the memory of just its request. -/
theorem merge_of_wasRead (hp : ∀ e, p e → ∃ c, Engine.ofConfig c = .ok e) {e : Engine}
    (hs : w.store.Sound) (hne : group ≠ []) (hread : ∀ m ∈ group, w.WasRead p owner m)
    (hcurrent : ∀ m ∈ group, w.store.Current m) (hnodup : (group.map (·.id)).Nodup)
    (hmergeable : e.mergeable owner group = true) (now : Instant) :
    e.merge now owner group w.store =
      .ok ((w.store.newcomer now (e.config.consolidation.mergedRequest owner group)).readAt now,
        w.store.merging now (e.config.consolidation.mergedRequest owner group)
          (group.map (·.id))) := by
  obtain ⟨r, hprepare⟩ := Engine.exists_prepared hmergeable
  rw [Engine.merge_eq_merging hs hcurrent hnodup hprepare,
    eq_mergedRequest_of_wasRead hp hne hread hprepare]

end World

/-! ## The memory of what is left -/

theorem Single.stored_foldl_max (values : List Single) :
    (values.foldl Single.max zero).stored = values.foldl Single.max zero := by
  -- the greatest so far is a number, not below zero, and not the negative zero
  have hfold : ∀ (values : List Single) (x : Single), x.isNaN = false → 0 ≤ x.place →
      x.stored = x → (values.foldl Single.max x).stored = values.foldl Single.max x := by
    intro values
    induction values with
    | nil => exact fun x _ _ hx => hx
    | cons y rest ih =>
      intro x hnan hplace hx
      rw [List.foldl_cons]
      unfold max
      split
      · next hlt =>
        simp only [hnan, lt, Bool.false_or, Bool.not_false, Bool.true_and, Bool.and_eq_true,
          Bool.not_eq_true', decide_eq_true_eq] at hlt
        refine ih y hlt.1 (by omega) ?_
        unfold stored
        refine if_neg fun hzero => ?_
        have hplace' : y.place = 0 := by
          unfold place
          split <;> simp [hzero]
        omega
      · exact ih x hnan hplace hx
  exact hfold values zero (by decide) (by decide) (by decide)

/-- One new memory, the one of a request, takes the place of some memories. It is created as they
are archived, and nothing else changes. -/
structure Store.Replaces (now : Instant) (r : NewMemory) (left : List Memory) (m : Memory)
    (s s' : Store) : Prop where
  store : s' = s.merging now r (left.map (·.id))
  archived : ∀ id ≤ s.lastMemoryId, s'.kept? id = (s.kept? id).map fun k =>
    if k.id ∈ left.map (·.id) then k.superseded now else k
  kept : s'.kept? (s.lastMemoryId + 1) = some m
  owner : m.owner = r.owner
  related : m.related = Ascending.ofList (left.map (·.id))
  content : m.content = r.content
  tags : m.tags = r.tags.mergeSort Text.NoCase.le
  type : some m.type = r.type
  category : some m.category = r.category
  importance : m.importance = r.importance
  confidence : m.confidence = r.confidence

namespace Store

variable {s : Store} {now : Instant} {owner : String}

theorem kept?_merging (s : Store) (now : Instant) (r : NewMemory) (ids : List MemoryId)
    {id : MemoryId} (hid : id ≤ s.lastMemoryId) :
    (s.merging now r ids).kept? id = (s.kept? id).map fun k =>
      if k.id ∈ ids then k.superseded now else k := by
  have hne : (s.newcomer now r).id ≠ id := Int.ne_of_gt (Int.lt_add_one_of_le hid)
  have hold : (s.merging now r ids).kept? id = (s.superseding now ids).kept? id := by
    rw [kept?_eq, kept?_eq, memories_merging, List.find?_append]
    simp [hne]
  rw [hold, superseding, kept?_modifyWhere (Memory.superseded_id now)]
  simp only [decide_eq_true_eq]

theorem kept?_merging_next (hs : s.Sound) (now : Instant) (r : NewMemory) (ids : List MemoryId) :
    (s.merging now r ids).kept? (s.lastMemoryId + 1) = some (s.newcomer now r) := by
  have hnone : (s.superseding now ids).kept? (s.lastMemoryId + 1) = none := by
    rw [superseding, kept?_modifyWhere (Memory.superseded_id now), hs.kept?_next]
    rfl
  rw [kept?_eq] at hnone ⊢
  rw [memories_merging, List.find?_append, hnone]
  simp [newcomer, newMemory]

/-- The request is made of tags that the store keeps already. -/
theorem replaces_merging (hs : s.Sound) (hspelled : s.Spelled) (hnames : DistinctNames s.tagNames)
    {left : List Memory} (hleft : ∀ m ∈ left, m ∈ s.activeAt now owner)
    (c : ConsolidationConfig) :
    s.Replaces now (c.mergedRequest owner left) left
      ((s.newcomer now (c.mergedRequest owner left)).readAt now)
      (s.merging now (c.mergedRequest owner left) (left.map (·.id))) := by
  have htags : (c.mergedRequest owner left).tags ⊆ s.tagNames := by
    intro t ht
    obtain ⟨m, hm, htm⟩ := List.mem_flatMap.mp ((Ascending.mem_ofList _ _).mp ht)
    obtain ⟨k, hk, -, -, rfl⟩ := mem_activeAt_iff.mp (hleft m hm)
    exact hspelled k hk t htm
  rw [readAt_newcomer]
  constructor
  case store => rfl
  case archived => exact fun id hid => kept?_merging s now _ _ hid
  case kept => exact kept?_merging_next hs now _ _
  case tags =>
    change (keepTags s.tagNames (c.mergedRequest owner left).tags).1 = _
    rw [keepTags_of_names hnames htags (Ascending.nodup_ofList _)]
  case confidence => exact Single.stored_foldl_max _
  case owner | related | content | type | category | importance => rfl

end Store

namespace World

variable {p : Engine → Prop} {w : World} {owner : String} {group : List Memory}

/-- What is left of a group that was read gives way to one memory made of it. -/
theorem merge_stillActive (hp : ∀ e, p e → ∃ c, Engine.ofConfig c = .ok e) (hw : w.Reached p)
    (hread : ∀ m ∈ group, w.WasRead p owner m) (hnodup : (group.map (·.id)).Nodup) {e : Engine}
    {now : Instant} (hne : w.store.stillActive now group ≠ [])
    (hmergeable : e.mergeable owner (w.store.stillActive now group) = true) :
    ∃ m s', e.merge now owner (w.store.stillActive now group) w.store = .ok (m, s') ∧
      w.store.Replaces now
        (e.config.consolidation.mergedRequest owner (w.store.stillActive now group))
        (w.store.stillActive now group) m s' := by
  have hleft := stillActive_subset hread now
  have hmerge := merge_of_wasRead hp hw.sound hne (fun m hm => ⟨w, now, hw, .refl, hleft m hm⟩)
    (fun m => Store.current_stillActive)
    (hnodup.sublist (Store.ids_stillActive_sublist _ _ _)) hmergeable now
  exact ⟨_, _, hmerge, Store.replaces_merging hw.sound hw.spelled hw.distinctNames hleft _⟩

/-- A group of which nothing was edited is merged as it was read, which is what is left of it. -/
theorem merge_of_unedited (hp : ∀ e, p e → ∃ c, Engine.ofConfig c = .ok e) (hw : w.Reached p)
    (hread : ∀ m ∈ group, w.WasRead p owner m) (hnodup : (group.map (·.id)).Nodup) {e : Engine}
    (hne : group ≠ []) (hcurrent : ∀ m ∈ group, w.store.Current m)
    (hmergeable : e.mergeable owner group = true) (now : Instant) :
    ∃ m s', e.merge now owner group w.store = .ok (m, s') ∧
      w.store.Replaces now
        (e.config.consolidation.mergedRequest owner (w.store.stillActive now group))
        (w.store.stillActive now group) m s' := by
  have hgists := gists_stillActive hread hcurrent now
  have hmerge := merge_of_wasRead hp hw.sound hne hread hcurrent hnodup hmergeable now
  rw [← ConsolidationConfig.mergedRequest_congr _ owner hgists, ← ids_of_gists hgists] at hmerge
  exact ⟨_, _, hmerge, Store.replaces_merging hw.sound hw.spelled hw.distinctNames
    (stillActive_subset hread now) _⟩

/-- Merging a group that was read earlier in the run is all or nothing, and overwrites nothing that
happened since. It leaves the store as it is, when fewer than two members are left or a request
is refused; or the members that are still active, and no others, give way to one memory that is
made of them as they are now. -/
theorem stale_merge_replaces_whats_left (hp : ∀ e, p e → ∃ c, Engine.ofConfig c = .ok e)
    (hread : ∀ m ∈ group, w.WasRead p owner m) (hnodup : (group.map (·.id)).Nodup)
    (hseveral : 2 ≤ group.length) (e : Engine) (now : Instant) :
    (e.mergeWithRetry now owner group w.store = (none, w.store) ∧
      ((w.store.stillActive now group).length < 2 ∨ e.mergeable owner group = false ∨
        e.mergeable owner (w.store.stillActive now group) = false)) ∨
    ∃ m s', e.mergeWithRetry now owner group w.store = (some m, s') ∧
      2 ≤ (w.store.stillActive now group).length ∧
      w.store.Replaces now
        (e.config.consolidation.mergedRequest owner (w.store.stillActive now group))
        (w.store.stillActive now group) m s' := by
  obtain ⟨first, hfirst⟩ : ∃ m, m ∈ group :=
    List.exists_mem_of_ne_nil group (List.ne_nil_of_length_pos (by omega))
  have hw := (hread first hfirst).reached
  cases hmergeable : e.mergeable owner group with
  | false => exact Or.inl ⟨Engine.mergeWithRetry_of_not_mergeable hmergeable, by simp⟩
  | true =>
    by_cases hcurrent : ∀ m ∈ group, w.store.Current m
    · obtain ⟨m, s', hmerge, hreplaces⟩ := merge_of_unedited hp hw hread hnodup
        (List.ne_nil_of_mem hfirst) hcurrent hmergeable now
      have hlength := congrArg List.length (gists_stillActive hread hcurrent now)
      rw [List.length_map, List.length_map] at hlength
      exact Or.inr ⟨m, s', Engine.mergeWithRetry_of_merge hmerge, by omega, hreplaces⟩
    · push Not at hcurrent
      obtain ⟨r, hprepare⟩ := Engine.exists_prepared hmergeable
      obtain ⟨id, hconflict⟩ := Engine.merge_of_not_current hw.sound now
        (fun m hm => (hread m hm).id_le) hnodup hprepare hcurrent
      rw [Engine.mergeWithRetry_of_conflict hconflict,
        Engine.reload_eq now fun m hm k hk => ((hread m hm).kept? hk).1]
      split
      · next hfew => exact Or.inl ⟨rfl, Or.inl hfew⟩
      · next hmany =>
        cases hagain : e.mergeable owner (w.store.stillActive now group) with
        | false =>
          obtain ⟨err, hmerge, -⟩ := Engine.merge_of_not_mergeable hagain now w.store
          rw [hmerge]
          exact Or.inl ⟨rfl, by simp⟩
        | true =>
          have hne : w.store.stillActive now group ≠ [] :=
            List.ne_nil_of_length_pos (by omega)
          obtain ⟨m, s', hmerge, hreplaces⟩ := merge_stillActive hp hw hread hnodup hne hagain
          rw [hmerge]
          exact Or.inr ⟨m, s', rfl, by omega, hreplaces⟩

/-- Three memories that are alike. -/
def withThreeTeas : World := Engine.oneTag.perform (.create (tea 5)) withTwoTeas

/-- One of them was reworded since, and one deleted. -/
def withChangedTeas : World :=
  [.update 1 (rewording "green tea"), .delete 2].foldl (fun w op => Engine.oneTag.perform op w)
    withThreeTeas

theorem reached_withThreeTeas : withThreeTeas.Reached (· = .oneTag) := by
  obtain ⟨clock, hrun⟩ := reached_withTwoTeas
  exact ⟨clock, hrun.tail ⟨.oneTag, _, rfl, rfl⟩⟩

theorem wasRead_threeTeas : ∀ m ∈ withThreeTeas.store.activeAt ⟨0⟩ "ann",
    withChangedTeas.WasRead (· = .oneTag) "ann" m := fun _ hm =>
  ⟨withThreeTeas, ⟨0⟩, reached_withThreeTeas, runs_foldl (p := (· = .oneTag)) rfl _ _, hm⟩

theorem stale_merge_replaces_whats_left_teas : ∃ m s',
    Engine.oneTag.mergeWithRetry ⟨0⟩ "ann" (withThreeTeas.store.activeAt ⟨0⟩ "ann")
      withChangedTeas.store = (some m, s') ∧
    m.related = [1, 3] ∧ m.content = "preference: green tea; tea" := by
  have hp : ∀ e, e = Engine.oneTag → ∃ c, Engine.ofConfig c = .ok e :=
    fun e he => ⟨.oneTag, he ▸ Engine.ofConfig_oneTag⟩
  rcases stale_merge_replaces_whats_left hp wasRead_threeTeas (by decide)
    (by decide) .oneTag ⟨0⟩ with ⟨-, hfew | hrefused | hrefused⟩ | ⟨m, s', heq, -, h⟩
  · exact absurd hfew (by decide)
  · exact absurd hrefused (by decide +kernel)
  · exact absurd hrefused (by decide +kernel)
  · refine ⟨m, s', heq, ?_, ?_⟩
    · rw [h.related]
      decide
    · rw [h.content]
      decide +kernel

end World

end LongTermMemory
