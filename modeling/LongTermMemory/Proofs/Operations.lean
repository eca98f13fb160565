import LongTermMemory.Proofs.Store.Sound

/-!
Operations as sequences of writes. Those of a consolidation are told for sound stores, where no
memory read has an id that is yet to be given out.
-/

namespace LongTermMemory

namespace Store

/-- The memories are read from a store and are an owner's. -/
def Shows (s : Store) (now : Instant) (owner : String) (ms : List Memory) : Prop :=
  ∀ m ∈ ms, ∃ k ∈ s.memoriesOf owner, k.readAt now = m

namespace Shows

variable {s : Store} {now : Instant} {owner : String} {ms ms' : List Memory}

theorem nil : s.Shows now owner [] := fun _ hm => nomatch hm

theorem append (h : s.Shows now owner ms) (h' : s.Shows now owner ms') :
    s.Shows now owner (ms ++ ms') := fun m hm => (List.mem_append.mp hm).elim (h m) (h' m)

/-- No id read is yet to be given out. -/
theorem id_le (h : s.Shows now owner ms) (hs : s.Sound) : ∀ m ∈ ms, m.id ≤ s.lastMemoryId := by
  intro m hm
  obtain ⟨k, hk, rfl⟩ := h m hm
  exact hs.bounded k (mem_memoriesOf.mp hk).1

end Shows

end Store

namespace Engine

variable {e : Engine} {now : Instant} {s s' : Store} {may : Revision → Prop}

theorem writesOf_create (hnow : may (.stamp now)) {r : NewMemory} {m : Memory}
    (h : e.create now r s = .ok (m, s')) : WritesOf e.vocabulary may s s' := by
  obtain ⟨r', hr, h⟩ := bind_eq_ok.mp h
  obtain ⟨-, -, hp, heq⟩ := Store.create_eq_ok.mp h
  cases heq
  exact .one (.create (normal_of_prepare hr) hp hnow)

theorem writes_create {r : NewMemory} {m : Memory} (h : e.create now r s = .ok (m, s')) :
    Writes e.vocabulary s s' :=
  writesOf_create trivial h

/-- An acceptable request is carried out if its parent is kept. -/
theorem create_of_prepare {r r' : NewMemory} (hr : e.prepare r = .ok r') (now : Instant) {s : Store}
    (hparent : ∀ id, r.parent = some id → s.exists? id = true) :
    s.create now r' = .ok ((s.newcomer now r').readAt now, s.withNewcomer now r') := by
  have hnormal := normal_of_prepare hr
  have himportance := hnormal.importance
  obtain ⟨tags, -, rfl⟩ := prepare_eq_ok hr
  exact Store.create_eq_ok.mpr ⟨by simpa [Store.importanceInRange] using himportance,
    hnormal.confidence, fun id hid => Or.inr (hparent id hid), rfl⟩

theorem writesOf_update (hmay : may .update) (hnow : may (.stamp now)) {id : MemoryId}
    {c : Changes} {m : Memory} (h : e.update now id c s = .ok (m, s')) :
    WritesOf e.vocabulary may s s' := by
  obtain ⟨c', hc, h⟩ := bind_eq_ok.mp h
  obtain ⟨old, -, -, -, -, rfl⟩ := Store.update_eq_ok h
  exact .one (.update (normal_of_prepareChanges hc).1 hmay hnow)

theorem writes_update {id : MemoryId} {c : Changes} {m : Memory}
    (h : e.update now id c s = .ok (m, s')) : Writes e.vocabulary s s' :=
  writesOf_update trivial trivial h

/-- An owner deletes only memories of the owner. -/
theorem deleteOwned_eq_ok {owner : String} {id : MemoryId} (h : deleteOwned owner id s = .ok s') :
    s.delete id = .ok s' ∧ ∃ m, s.kept? id = some m ∧ m.owner = owner := by
  obtain ⟨_, -, h⟩ := bind_eq_ok.mp h
  split at h
  · cases h
  · next m hkept =>
    split at h
    · next howner => exact ⟨h, m, hkept, howner⟩
    · cases h

theorem writes_deleteOwned {v : Vocabulary} {owner : String} {id : MemoryId}
    (h : deleteOwned owner id s = .ok s') : WritesOf v may s s' :=
  .delete (deleteOwned_eq_ok h).1

theorem writes_addContext {v : Vocabulary} {id : MemoryId} {c : NewContext} {k : Context}
    (h : addContext id c s = .ok (k, s')) : WritesOf v may s s' := by
  obtain ⟨_, hc, h⟩ := bind_eq_ok.mp h
  split at h
  · next hid =>
    cases h
    exact .one (.context hid (NewContext.inUnit_of_check (Invalid.raise_eq_ok.mp hc)))
  · cases h

theorem writes_relate {v : Vocabulary} {r : NewRelationship} {q : Relationship}
    (h : relate now r s = .ok (q, s')) : WritesOf v may s s' := by
  obtain ⟨_, hr, h⟩ := bind_eq_ok.mp h
  obtain ⟨hne, hunit⟩ := NewRelationship.check_eq_ok (Invalid.raise_eq_ok.mp hr)
  exact .relate hne hunit h

theorem writesOf_learn (hnow : may (.stamp now)) (i : Interaction) (s : Store) :
    WritesOf e.vocabulary may s (e.learn now i s).2 := by
  unfold learn
  split
  · exact .refl
  · induction e.drafts i generalizing s with
    | nil => exact .refl
    | cons d ds ih =>
      unfold learnDrafts
      dsimp only
      split
      · exact ih s
      · split
        · exact ih s
        · next m s₁ hcreate => exact (writesOf_create hnow hcreate).trans (ih s₁)

theorem writes_learn (i : Interaction) (s : Store) : Writes e.vocabulary s (e.learn now i s).2 :=
  writesOf_learn trivial i s

/-! ## Retrieval -/

theorem shows_list {owner : String} {c : Selection} {ms : List Memory}
    (h : list now owner c s = .ok ms) : s.Shows now owner ms := by
  obtain ⟨_, -, h⟩ := bind_eq_ok.mp h
  obtain ⟨_, -, h⟩ := bind_eq_ok.mp h
  cases h
  intro m hm
  obtain ⟨k, hk, rfl⟩ := List.mem_map.mp hm
  have hpage : ∀ l : List Memory, c.page l ⊆ l := by
    intro l x hx
    unfold Selection.page at hx
    dsimp only at hx
    split at hx
    · exact List.mem_of_mem_drop hx
    · exact List.mem_of_mem_drop (List.mem_of_mem_take hx)
  have hsorted : k ∈ c.sorted _ := hpage _ hk
  obtain ⟨entry, hentry, rfl⟩ := List.mem_map.mp (List.mem_mergeSort.mp hsorted)
  exact ⟨entry.memory, List.mem_map_of_mem (List.mem_filter.mp hentry).1, rfl⟩

theorem writes_accessAll {v : Vocabulary} (hnow : may (.stamp now)) (query : String)
    (found : List (Memory × Score)) (s : Store) :
    WritesOf v may s (accessAll now query found s).2 := by
  induction found generalizing s with
  | nil => exact .refl
  | cons x rest ih =>
    unfold accessAll
    dsimp only
    split
    · exact ih s
    · next s₁ haccess => exact (WritesOf.recordAccess hnow haccess).trans (ih s₁)

/-- Retrieval writes accesses of memories of the owner. -/
theorem retrieve_eq_ok {owner query : String} {limit : Option Int} {ms : List Memory}
    (h : e.retrieve now owner query limit s = .ok (ms, s')) :
    ∃ found, s.Shows now owner (found.map (·.1)) ∧ (accessAll now query found s).2 = s' := by
  obtain ⟨⟨accessed, s₁⟩, hscored, h⟩ := bind_eq_ok.mp h
  cases h
  obtain ⟨_, -, hscored⟩ := bind_eq_ok.mp hscored
  obtain ⟨_, -, hscored⟩ := bind_eq_ok.mp hscored
  obtain ⟨pool, hpool, hscored⟩ := bind_eq_ok.mp hscored
  refine ⟨_, fun k hk => ?_, congrArg Prod.snd (Except.ok.inj hscored)⟩
  obtain ⟨x, hx, rfl⟩ := List.mem_map.mp hk
  obtain ⟨m, hm, rfl⟩ := List.mem_map.mp (List.mem_mergeSort.mp (List.mem_of_mem_take hx))
  exact shows_list hpool m hm

theorem writes_retrieve {v : Vocabulary} (hnow : may (.stamp now)) {owner query : String}
    {limit : Option Int} {ms : List Memory}
    (h : e.retrieve now owner query limit s = .ok (ms, s')) : WritesOf v may s s' := by
  obtain ⟨found, -, rfl⟩ := retrieve_eq_ok h
  exact writes_accessAll hnow query found s

theorem retrieveContext_eq_ok {owner query : String} {maxLength : Option Nat} {text : String}
    (h : e.retrieveContext now owner query maxLength s = .ok (text, s')) :
    ∃ ms, e.retrieve now owner query none s = .ok (ms, s') := by
  obtain ⟨⟨ms, s₁⟩, hretrieve, h⟩ := bind_eq_ok.mp h
  have heq : s₁ = s' := congrArg Prod.snd (Except.ok.inj h)
  exact ⟨ms, heq ▸ hretrieve⟩

/-! ## Consolidation -/

theorem inUnit_supersession (merged member : MemoryId) :
    (supersession merged member).strength.inUnit = true := by
  unfold supersession
  exact Single.inUnit_one

theorem writes_supersedeAll {v : Vocabulary} (hnow : may (.stamp now)) {merged : MemoryId}
    {group : List Memory}
    (hnew : ∀ m ∈ group, merged ≠ m.id) (h : supersedeAll now merged group s = .ok s') :
    WritesOf v may s s' := by
  induction group generalizing s with
  | nil =>
    cases h
    exact .refl
  | cons m rest ih =>
    unfold supersedeAll at h
    generalize harchive : s.archiveIfVersion now m.id m.version archivedAsConsolidated = a at h
    obtain ⟨done, s₁⟩ := a
    dsimp only at h
    split at h
    · obtain ⟨⟨q, s₂⟩, hrelate, h⟩ := bind_eq_ok.mp h
      have hedge : WritesOf v may s₁ s₂ :=
        .relate (hnew m (by simp)) (inUnit_supersession _ _) hrelate
      exact ((WritesOf.archiveIfVersion hnow harchive).trans hedge).trans
        (ih (fun k hk => hnew k (by simp [hk])) h)
    · cases h

/-- A merge makes one memory, which then supersedes the group. -/
theorem merge_eq_ok {owner : String} {group : List Memory} {m : Memory}
    (h : e.merge now owner group s = .ok (m, s')) :
    ∃ s₁, e.create now (e.config.consolidation.mergedRequest owner group) s = .ok (m, s₁) ∧
      m.id = s.lastMemoryId + 1 ∧ supersedeAll now m.id group s₁ = .ok s' := by
  obtain ⟨r, hr, h⟩ := bind_eq_ok.mp h
  obtain ⟨⟨merged, s₁⟩, hcreate, h⟩ := bind_eq_ok.mp h
  obtain ⟨s₂, hsupersede, h⟩ := bind_eq_ok.mp h
  cases h
  have hid : m.id = s.lastMemoryId + 1 := by
    obtain ⟨-, -, -, heq⟩ := Store.create_eq_ok.mp hcreate
    cases heq
    rfl
  exact ⟨s₁, bind_eq_ok.mpr ⟨r, hr, hcreate⟩, hid, hsupersede⟩

/-- The memory of a group is younger than its members, so that no edge is a loop. -/
theorem writes_merge (hnow : may (.stamp now)) {owner : String} {group : List Memory} {m : Memory}
    (hids : ∀ k ∈ group, k.id ≤ s.lastMemoryId) (h : e.merge now owner group s = .ok (m, s')) :
    WritesOf e.vocabulary may s s' := by
  obtain ⟨s₁, hcreate, hid, hsupersede⟩ := merge_eq_ok h
  have hnew : ∀ k ∈ group, m.id ≠ k.id := by
    intro k hk heq
    have hle := hids k hk
    rw [← heq, hid] at hle
    exact absurd (Int.lt_succ s.lastMemoryId) (Int.not_lt.mpr hle)
  exact (writesOf_create hnow hcreate).trans (writes_supersedeAll hnow hnew hsupersede)

theorem id_of_mem_reload {owner : String} {group : List Memory} {m : Memory}
    (hm : m ∈ reload now owner group s) : ∃ k ∈ group, k.id = m.id := by
  obtain ⟨k, hk, hread⟩ := List.mem_filterMap.mp hm
  refine ⟨k, hk, ?_⟩
  split at hread
  · next a hget =>
    split at hread
    · cases hread
      obtain ⟨stored, hkept, rfl⟩ := Store.get_eq_ok.mp hget
      exact (Store.mem_of_kept? hkept).2.symm
    · cases hread
  · cases hread

/-- Nothing is merged, or memories that are all of the group. -/
theorem mergeWithRetry_cases (e : Engine) (now : Instant) (owner : String) (group : List Memory)
    (s : Store) :
    (e.mergeWithRetry now owner group s).2 = s ∨
      ∃ merged m, (∀ k ∈ merged, ∃ k' ∈ group, k'.id = k.id) ∧
        e.merge now owner merged s = .ok (m, (e.mergeWithRetry now owner group s).2) := by
  unfold mergeWithRetry
  split
  · next m s₁ hmerge => exact Or.inr ⟨group, m, fun k hk => ⟨k, hk, rfl⟩, hmerge⟩
  · split
    · exact Or.inl rfl
    · dsimp only
      split
      · exact Or.inl rfl
      · split
        · next m s₁ hmerge => exact Or.inr ⟨_, m, fun k => id_of_mem_reload, hmerge⟩
        · exact Or.inl rfl

theorem writes_mergeWithRetry (hnow : may (.stamp now)) {owner : String} {group : List Memory}
    (hids : ∀ k ∈ group, k.id ≤ s.lastMemoryId) :
    WritesOf e.vocabulary may s (e.mergeWithRetry now owner group s).2 := by
  rcases mergeWithRetry_cases e now owner group s with heq | ⟨merged, m, hsub, hmerge⟩
  · rw [heq]
  · refine writes_merge hnow (fun k hk => ?_) hmerge
    obtain ⟨k', hk', heq⟩ := hsub k hk
    exact heq ▸ hids k' hk'

theorem writes_mergeAll (hnow : may (.stamp now)) {owner : String} {groups : List (List Memory)}
    (deadline : Deadline) (report : ConsolidationReport)
    (hids : ∀ g ∈ groups, ∀ k ∈ g, k.id ≤ s.lastMemoryId) :
    WritesOf e.vocabulary may s (e.mergeAll now owner groups deadline (report, s)).2 := by
  induction groups generalizing deadline report s with
  | nil => exact .refl
  | cons group rest ih =>
    unfold mergeAll
    split
    · exact .refl
    · have hmerge : WritesOf e.vocabulary may s (e.mergeWithRetry now owner group s).2 :=
        writes_mergeWithRetry hnow (hids group (by simp))
      have hrest : ∀ g ∈ rest, ∀ k ∈ g,
          k.id ≤ (e.mergeWithRetry now owner group s).2.lastMemoryId := fun g hg k hk =>
        Int.le_trans (hids g (by simp [hg]) k hk) hmerge.last_le
      split
      · next m s₁ heq =>
        rw [heq] at hmerge hrest
        exact hmerge.trans (ih _ _ hrest)
      · next s₁ heq =>
        rw [heq] at hmerge hrest
        exact hmerge.trans (ih _ _ hrest)

theorem shows_loadPages {c : ConsolidationConfig} {owner : String} {fuel : Nat}
    {deadline : Deadline} {after : Option MemoryId} {read : List Memory}
    {p : Passed (List Memory)} (hread : s.Shows now owner read)
    (h : loadPages c now owner s fuel deadline after read = .ok p) :
    s.Shows now owner p.result := by
  induction fuel generalizing deadline after read with
  | zero =>
    cases h
    exact hread
  | succ fuel ih =>
    unfold loadPages at h
    split at h
    · cases h
      exact hread
    · dsimp only at h
      split at h
      · cases h
        exact hread
      · obtain ⟨page, hpage, h⟩ := bind_eq_ok.mp h
        have hboth := hread.append (shows_list hpage)
        split at h
        · exact ih hboth h
        · cases h
          exact hboth

theorem mem_of_mem_findGroups {c : ConsolidationConfig} {memories group : List Memory} {m : Memory}
    (hgroup : group ∈ c.findGroups memories) (hm : m ∈ group) : m ∈ memories := by
  obtain ⟨ids, -, rfl⟩ := List.mem_map.mp hgroup
  obtain ⟨id, -, hfind⟩ := List.mem_filterMap.mp hm
  exact List.mem_reverse.mp (List.mem_of_find?_eq_some hfind)

/-- Consolidation merges groups of memories of the owner. -/
theorem consolidateBy_eq_ok {owner : String} {deadline : Deadline} {report : ConsolidationReport}
    (h : e.consolidateBy now owner deadline s = .ok (report, s')) :
    ∃ groups deadline report, (∀ g ∈ groups, s.Shows now owner g) ∧
      (e.mergeAll now owner groups deadline (report, s)).2 = s' := by
  obtain ⟨read, hread, h⟩ := bind_eq_ok.mp h
  dsimp only at h
  split at h
  · cases h
    exact ⟨[], deadline, {}, by simp, rfl⟩
  · have hshows := shows_loadPages .nil hread
    exact ⟨_, _, _, fun g hg k hk => hshows k (mem_of_mem_findGroups hg hk),
      congrArg Prod.snd (Except.ok.inj h)⟩

theorem writes_consolidateBy (hs : s.Sound) (hnow : may (.stamp now)) {owner : String}
    {deadline : Deadline} {report : ConsolidationReport}
    (h : e.consolidateBy now owner deadline s = .ok (report, s')) :
    WritesOf e.vocabulary may s s' := by
  obtain ⟨groups, deadline, report, hshows, rfl⟩ := consolidateBy_eq_ok h
  exact writes_mergeAll hnow deadline report fun g hg => (hshows g hg).id_le hs

theorem writes_consolidate (hs : s.Sound) (hnow : may (.stamp now)) {owner : String}
    {report : ConsolidationReport} (h : e.consolidate now owner s = .ok (report, s')) :
    WritesOf e.vocabulary may s s' := by
  obtain ⟨_, -, h⟩ := bind_eq_ok.mp h
  exact writes_consolidateBy hs hnow h

/-! ## Lifecycle -/

theorem writes_ageAll {v : Vocabulary} (hmay : may .age) (hnow : may (.stamp now))
    {ms : List Memory} {n n' : Nat} (h : ageAll now ms (n, s) = .ok (n', s')) :
    WritesOf v may s s' := by
  induction ms generalizing n s with
  | nil =>
    cases h
    exact .refl
  | cons m rest ih =>
    obtain ⟨⟨done, s₁⟩, hage, h⟩ := bind_eq_ok.mp h
    exact (WritesOf.age hmay hnow hage).trans (ih h)

theorem writes_archiveAll {v : Vocabulary} (hnow : may (.stamp now)) (ms : List Memory) (n : Nat)
    (s : Store) : WritesOf v may s (archiveAll now ms (n, s)).2 := by
  induction ms generalizing n s with
  | nil => exact .refl
  | cons m rest ih =>
    unfold archiveAll
    generalize harchive : s.archiveIfVersion now m.id m.version archivedAsAged = a
    obtain ⟨done, s₁⟩ := a
    exact (WritesOf.archiveIfVersion hnow harchive).trans (ih _ s₁)

theorem writes_deleteAll {v : Vocabulary} (ms : List Memory) (n : Nat) (s : Store) :
    WritesOf v may s (deleteAll ms (n, s)).2 := by
  induction ms generalizing n s with
  | nil => exact .refl
  | cons m rest ih =>
    unfold deleteAll
    split
    · next s₁ hdelete => exact (WritesOf.delete hdelete).trans (ih _ s₁)
    · exact ih n s

theorem writes_removeDuplicates {v : Vocabulary} (groups : List (List Memory))
    (deadline : Deadline) (n : Nat) (s : Store) :
    WritesOf v may s (removeDuplicates groups deadline (n, s)).result.2 := by
  induction groups generalizing deadline n s with
  | nil => exact .refl
  | cons group rest ih =>
    cases group with
    | nil => exact ih deadline n s
    | cons m ms =>
      unfold removeDuplicates
      split
      · exact .refl
      · exact (writes_deleteAll _ n s).trans (ih _ _ _)

/-- A walk keeps what its steps keep, each on a page read from the store before it. -/
theorem walkPages_keeps {α : Type} {P : α × Store → Prop} {owner : String} {size : Nat}
    {step : List Memory → α × Store → Except Error (α × Store)}
    (hstep : ∀ page state state', state.2.Shows now owner page → P state →
      step page state = .ok state' → P state') {fuel : Nat}
    {deadline : Deadline} {after : Option MemoryId} {state : α × Store} {p : Passed (α × Store)}
    (hP : P state) (h : walkPages now owner size step fuel deadline after state = .ok p) :
    P p.result := by
  induction fuel generalizing deadline after state with
  | zero =>
    cases h
    exact hP
  | succ fuel ih =>
    unfold walkPages at h
    split at h
    · cases h
      exact hP
    · obtain ⟨page, hpage, h⟩ := bind_eq_ok.mp h
      split at h
      · cases h
        exact hP
      · obtain ⟨state₁, hs, h⟩ := bind_eq_ok.mp h
        have hP₁ := hstep page state state₁ (shows_list hpage) hP hs
        split at h
        · exact ih hP₁ h
        · cases h
          exact hP₁

/-- A walk writes what its steps write. -/
theorem writes_walkPages {v : Vocabulary} {α : Type} {owner : String} {size : Nat}
    {step : List Memory → α × Store → Except Error (α × Store)}
    (hstep : ∀ page a s a' s', step page (a, s) = .ok (a', s') → WritesOf v may s s') {fuel : Nat}
    {deadline : Deadline} {after : Option MemoryId} {a : α} {p : Passed (α × Store)}
    (h : walkPages now owner size step fuel deadline after (a, s) = .ok p) :
    WritesOf v may s p.result.2 :=
  walkPages_keeps (P := fun state => WritesOf v may s state.2)
    (fun page _ _ _ hwrites hs => hwrites.trans (hstep page _ _ _ _ hs)) .refl h

theorem writes_agePass {v : Vocabulary} (hmay : may .age) (hnow : may (.stamp now))
    {clock : Instant} {owner : String} {deadline : Deadline} {p : Passed (Nat × Store)}
    (h : e.agePass clock now owner deadline s = .ok p) : WritesOf v may s p.result.2 := by
  obtain ⟨w, -, h⟩ := bind_eq_ok.mp h
  exact writes_walkPages (fun _ _ _ _ _ hstep => writes_ageAll hmay hnow hstep) h

theorem writes_archivePass {v : Vocabulary} {clock : Instant} (hclock : may (.stamp clock))
    {owner : String} {deadline : Deadline} {p : Passed (Nat × Store)}
    (h : e.archivePass clock now owner deadline s = .ok p) : WritesOf v may s p.result.2 := by
  obtain ⟨w, -, h⟩ := bind_eq_ok.mp h
  refine writes_walkPages (fun page n s n' s' hstep => ?_) h
  have heq : _ = s' := congrArg Prod.snd (Except.ok.inj hstep)
  exact heq ▸ writes_archiveAll hclock _ n s

theorem writes_deduplicatePass {v : Vocabulary} {owner : String} {deadline : Deadline}
    {p : Passed (Nat × Store)} (h : e.deduplicatePass now owner deadline s = .ok p) :
    WritesOf v may s p.result.2 := by
  obtain ⟨read, hread, h⟩ := bind_eq_ok.mp h
  have hwalk : WritesOf v may s read.result.2 := by
    refine writes_walkPages (fun page ms s ms' s' hstep => ?_) hread
    cases hstep
    exact .refl
  dsimp only at h
  split at h
  · cases h
    exact hwalk
  · cases h
    exact hwalk.trans (writes_removeDuplicates _ _ _ _)

/-- A run of the lifecycle ends after the first, the second or the third pass. -/
theorem lifecycleAt_eq_ok {clock : Instant} {owner : String} {deadline : Deadline}
    {report : LifecycleReport} (h : e.lifecycleAt clock now owner deadline s = .ok (report, s')) :
    ∃ aging, e.agePass clock now owner deadline s = .ok aging ∧ (aging.result.2 = s' ∨
      ∃ archival, e.archivePass clock now owner aging.deadline aging.result.2 = .ok archival ∧
        (archival.result.2 = s' ∨
          ∃ removal, e.deduplicatePass clock owner archival.deadline archival.result.2 =
            .ok removal ∧ removal.result.2 = s')) := by
  obtain ⟨aging, haging, h⟩ := bind_eq_ok.mp h
  refine ⟨aging, haging, ?_⟩
  dsimp only at h
  split at h
  · cases h
    exact Or.inl rfl
  · obtain ⟨archival, harchival, h⟩ := bind_eq_ok.mp h
    refine Or.inr ⟨archival, harchival, ?_⟩
    split at h
    · cases h
      exact Or.inl rfl
    · obtain ⟨removal, hremoval, h⟩ := bind_eq_ok.mp h
      cases h
      exact Or.inr ⟨removal, hremoval, rfl⟩

theorem writesOf_lifecycleAt {v : Vocabulary} (hmay : may .age) {clock : Instant}
    (hclock : may (.stamp clock)) (hnow : may (.stamp now)) {owner : String}
    {deadline : Deadline} {report : LifecycleReport}
    (h : e.lifecycleAt clock now owner deadline s = .ok (report, s')) : WritesOf v may s s' := by
  obtain ⟨aging, haging, hlater⟩ := lifecycleAt_eq_ok h
  have hwrites : WritesOf v may s aging.result.2 := writes_agePass hmay hnow haging
  rcases hlater with rfl | ⟨archival, harchival, rfl | ⟨removal, hremoval, rfl⟩⟩
  · exact hwrites
  · exact hwrites.trans (writes_archivePass hclock harchival)
  · exact (hwrites.trans (writes_archivePass hclock harchival)).trans
      (writes_deduplicatePass hremoval)

theorem writes_lifecycleAt {v : Vocabulary} {clock : Instant} {owner : String}
    {deadline : Deadline} {report : LifecycleReport}
    (h : e.lifecycleAt clock now owner deadline s = .ok (report, s')) : Writes v s s' :=
  writesOf_lifecycleAt trivial trivial trivial h

theorem writes_maintainOwner (hs : s.Sound) (hmay : may .age) (hnow : may (.stamp now))
    (owner : String) : WritesOf e.vocabulary may s (e.maintainOwner now owner s).2 := by
  unfold maintainOwner
  split
  · exact .refl
  · next report s₁ hlifecycle =>
    obtain ⟨_, -, hlifecycle⟩ := bind_eq_ok.mp hlifecycle
    have hwrites : WritesOf e.vocabulary may s s₁ := writesOf_lifecycleAt hmay hnow hnow hlifecycle
    split
    · exact hwrites
    · next hconsolidate =>
      exact hwrites.trans (writes_consolidate (hs.writes hwrites.toWrites) hnow hconsolidate)

theorem writes_maintainOwners (hs : s.Sound) (hmay : may .age) (hnow : may (.stamp now))
    (owners : List String) :
    WritesOf e.vocabulary may s (e.maintainOwners now owners s).2 := by
  induction owners generalizing s with
  | nil => exact .refl
  | cons owner rest ih =>
    have hwrites : WritesOf e.vocabulary may s (e.maintainOwner now owner s).2 :=
      writes_maintainOwner hs hmay hnow owner
    unfold maintainOwners
    exact hwrites.trans (ih (hs.writes hwrites.toWrites))

/-! ## Runs -/

theorem writesOf_act {op : Operation} (hs : s.Sound)
    (hupdate : ∀ id c, op = .update id c → may .update) (hage : may .age)
    (hread : ∀ t ∈ op.instants now, may (.stamp t)) (h : e.act now s op = .ok s') :
    WritesOf e.vocabulary may s s' := by
  by_cases hmove : ∃ millis, op = .moveClock millis
  · obtain ⟨millis, rfl⟩ := hmove
    cases h
    exact .refl
  rw [not_exists] at hmove
  have hnow : may (.stamp now) := hread now (Operation.now_mem_instants now hmove)
  cases op with
  | create r =>
    obtain ⟨m, h⟩ := map_snd_eq_ok.mp h
    exact writesOf_create hnow h
  | update id c =>
    obtain ⟨m, h⟩ := map_snd_eq_ok.mp h
    exact writesOf_update (hupdate id c rfl) hnow h
  | delete id => exact .delete h
  | deleteOwned owner id => exact writes_deleteOwned h
  | recordAccess id n => exact .recordAccess hnow h
  | addContext id c =>
    obtain ⟨k, h⟩ := map_snd_eq_ok.mp h
    exact writes_addContext h
  | relate r =>
    obtain ⟨q, h⟩ := map_snd_eq_ok.mp h
    exact writes_relate h
  | learn i =>
    obtain rfl := Except.ok.inj h
    exact writesOf_learn hnow i s
  | retrieve owner query limit =>
    obtain ⟨ms, h⟩ := map_snd_eq_ok.mp h
    exact writes_retrieve hnow h
  | retrieveContext owner query maxLength =>
    obtain ⟨text, h⟩ := map_snd_eq_ok.mp h
    obtain ⟨ms, h⟩ := retrieveContext_eq_ok h
    exact writes_retrieve hnow h
  | consolidate owner deadline =>
    obtain ⟨_, -, h⟩ := bind_eq_ok.mp h
    obtain ⟨report, h⟩ := map_snd_eq_ok.mp h
    exact writes_consolidateBy hs hnow h
  | lifecycle owner asOf deadline =>
    obtain ⟨_, -, h⟩ := bind_eq_ok.mp h
    obtain ⟨report, h⟩ := map_snd_eq_ok.mp h
    exact writesOf_lifecycleAt hage hnow (hread asOf (by simp [Operation.instants])) h
  | maintain =>
    obtain rfl := Except.ok.inj h
    exact writes_maintainOwners hs hage hnow _
  | moveClock millis => exact absurd rfl (hmove millis)

theorem writes_act (hs : s.Sound) {op : Operation} (h : e.act now s op = .ok s') :
    Writes e.vocabulary s s' :=
  writesOf_act hs (fun _ _ _ => trivial) trivial (fun _ _ => trivial) h

/-- Each operation is a sequence of writes, and a failed one writes nothing. -/
theorem writesOf_perform {w : World} {op : Operation} (hs : w.store.Sound)
    (hupdate : ∀ id c, op = .update id c → may .update) (hage : may .age)
    (hread : ∀ t ∈ op.instants w.clock, may (.stamp t)) :
    WritesOf e.vocabulary may w.store (e.perform op w).store := by
  unfold perform
  cases h : e.act w.clock w.store op with
  | error err => exact .refl
  | ok s => exact writesOf_act hs hupdate hage hread h

theorem writes_perform {w : World} (hs : w.store.Sound) (op : Operation) :
    Writes e.vocabulary w.store (e.perform op w).store :=
  writesOf_perform hs (fun _ _ _ => trivial) trivial fun _ _ => trivial

end Engine

namespace World

theorem sound_of_runs {p : Engine → Prop} {w w' : World} (h : w.store.Sound) (hr : Runs p w w') :
    w'.store.Sound := by
  induction hr with
  | refl => exact h
  | tail _ hstep ih =>
    obtain ⟨e, op, -, rfl⟩ := hstep
    exact ih.writes (e.writes_perform ih op)

/-- Every store that a run reaches is sound. -/
theorem Reached.sound {p : Engine → Prop} {w : World} (h : Reached p w) : w.store.Sound := by
  obtain ⟨clock, hr⟩ := h
  exact sound_of_runs Store.sound_empty hr

/-- What every write of a sound store keeps, a run keeps. -/
theorem holds_of_runs {p : Engine → Prop} {I : Store → Prop}
    (hwrite : ∀ {e : Engine} {s s' : Store}, p e → s.Sound → I s → Write e.vocabulary s s' → I s')
    {w w' : World} (hs : w.store.Sound) (hI : I w.store) (hr : Runs p w w') : I w'.store := by
  induction hr with
  | refl => exact hI
  | tail hsteps hstep ih =>
    obtain ⟨e, op, he, rfl⟩ := hstep
    have hs' := sound_of_runs hs hsteps
    exact hs'.holds_writes (hwrite he) ih (e.writes_perform hs' op)

/-- What the empty store satisfies and every write of a sound store keeps holds of every store that
a run reaches. -/
theorem Reached.holds {p : Engine → Prop} {I : Store → Prop} (hempty : I .empty)
    (hwrite : ∀ {e : Engine} {s s' : Store}, p e → s.Sound → I s → Write e.vocabulary s s' → I s')
    {w : World} (h : Reached p w) : I w.store := by
  obtain ⟨clock, hr⟩ := h
  exact holds_of_runs hwrite Store.sound_empty hempty hr

end World

end LongTermMemory
