import LongTermMemory.Proofs.Integrity
import LongTermMemory.Proofs.OptimisticLock
import LongTermMemory.Proofs.Store.Holdings
import LongTermMemory.Proofs.Survivor

/-!
Isolation of owners. An operation called for one owner writes only about memories of that owner, so
that another owner keeps what it has. Memories may be linked across owners, though: where the
operation deletes memories, the links of the other owner to them are cut.
-/

namespace LongTermMemory

/-- The operations that are called for an owner. -/
inductive Operation.CalledFor (owner : String) : Operation → Prop
  | learn {i : Interaction} (h : i.owner = owner) : CalledFor owner (.learn i)
  | retrieve (query : String) (limit : Option Int) : CalledFor owner (.retrieve owner query limit)
  | retrieveContext (query : String) (maxLength : Option Nat) :
      CalledFor owner (.retrieveContext owner query maxLength)
  | consolidate (deadline : Deadline) : CalledFor owner (.consolidate owner deadline)
  | lifecycle (asOf : Instant) (deadline : Deadline) :
      CalledFor owner (.lifecycle owner asOf deadline)
  | deleteOwned (id : MemoryId) : CalledFor owner (.deleteOwned owner id)

/-- Whether an operation may delete memories. -/
def Operation.deletes : Operation → Bool
  | .delete _ | .deleteOwned _ _ | .lifecycle _ _ _ | .maintain => true
  | _ => false

namespace Engine

variable {e : Engine} {now : Instant} {s s' : Store} {owner other : String}

theorem ofOthers_of_shows (hs : s.Sound) (hne : owner ≠ other) {ms : List Memory}
    (h : s.Shows now owner ms) : s.OfOthers other ms := by
  intro m hm
  obtain ⟨k, hk, rfl⟩ := h m hm
  obtain ⟨hmem, rfl⟩ := Store.mem_memoriesOf.mp hk
  exact hs.not_owns (m := k) hmem hne

/-! ## Learning -/

theorem holdingsOf_create (hs : s.Sound) {r : NewMemory} {m : Memory}
    (h : e.create now r s = .ok (m, s')) (hne : Text.trim r.owner ≠ other) :
    s'.holdingsOf other = s.holdingsOf other ∧ s'.owns other m.id = false := by
  obtain ⟨r', hprepare, h⟩ := bind_eq_ok.mp h
  obtain ⟨-, -, -, heq⟩ := Store.create_eq_ok.mp h
  cases heq
  have howner : r'.owner = Text.trim r.owner := by
    obtain ⟨tags, -, rfl⟩ := prepare_eq_ok hprepare
    rfl
  have hkept := Store.holdingsOf_withNewcomer hs now (howner ▸ hne)
  refine ⟨hkept, ?_⟩
  rw [Store.owns_congr hkept]
  exact hs.not_owns_of_lt (Int.lt_succ _)

theorem holdingsOf_learnDrafts {i : Interaction} (hne : Text.trim i.owner ≠ other)
    (ds : List Draft) (hs : s.Sound) :
    (e.learnDrafts now i ds s).2.holdingsOf other = s.holdingsOf other := by
  induction ds generalizing s with
  | nil => rfl
  | cons d ds ih =>
    unfold learnDrafts
    dsimp only
    split
    · exact ih hs
    · split
      · exact ih hs
      · next m s₁ hcreate =>
        obtain ⟨hkept, -⟩ := holdingsOf_create hs hcreate hne
        exact (ih (hs.writes (writes_create hcreate))).trans hkept

theorem holdingsOf_learn {i : Interaction} (hne : Text.trim i.owner ≠ other) (hs : s.Sound) :
    (e.learn now i s).2.holdingsOf other = s.holdingsOf other := by
  unfold learn
  split
  · rfl
  · exact holdingsOf_learnDrafts hne _ hs

/-! ## Retrieval -/

theorem holdingsOf_accessAll (query : String) (found : List (Memory × Score))
    (hfound : s.OfOthers other (found.map (·.1))) :
    (accessAll now query found s).2.holdingsOf other = s.holdingsOf other := by
  induction found generalizing s with
  | nil => rfl
  | cons x rest ih =>
    unfold accessAll
    dsimp only
    split
    · exact ih hfound.tail
    · next s₁ haccess =>
      obtain ⟨-, rfl⟩ := Store.recordAccess_eq_ok.mp haccess
      have hkept := Store.holdingsOf_withAccess now (.retrieval query x.2.total x.2.relevant)
        hfound.head
      exact (ih (hfound.tail.congr hkept)).trans hkept

theorem holdingsOf_retrieve (hs : s.Sound) (hne : owner ≠ other) {query : String}
    {limit : Option Int} {ms : List Memory}
    (h : e.retrieve now owner query limit s = .ok (ms, s')) :
    s'.holdingsOf other = s.holdingsOf other := by
  obtain ⟨found, hshows, rfl⟩ := retrieve_eq_ok h
  exact holdingsOf_accessAll query found (ofOthers_of_shows hs hne hshows)

/-! ## Consolidation -/

theorem holdingsOf_archiveIfVersion {id : MemoryId} (hid : s.owns other id = false)
    {version : Int} {reason : String} {done : Bool}
    (h : s.archiveIfVersion now id version reason = (done, s')) :
    s'.holdingsOf other = s.holdingsOf other := by
  rcases Store.archiveIfVersion_cases s now id version reason with heq | heq
  · rw [heq] at h
    cases h
    rfl
  · rw [heq] at h
    cases h
    exact Store.holdingsOf_modifyMemory (fun _ => rfl) hid

theorem holdingsOf_supersedeAll {merged : MemoryId} {group : List Memory}
    (hmerged : s.owns other merged = false) (hgroup : s.OfOthers other group)
    (h : supersedeAll now merged group s = .ok s') :
    s'.holdingsOf other = s.holdingsOf other := by
  induction group generalizing s with
  | nil =>
    cases h
    rfl
  | cons m rest ih =>
    unfold supersedeAll at h
    generalize harchive : s.archiveIfVersion now m.id m.version archivedAsConsolidated = a at h
    obtain ⟨done, s₁⟩ := a
    dsimp only at h
    split at h
    · obtain ⟨⟨q, s₂⟩, hrelate, h⟩ := bind_eq_ok.mp h
      obtain ⟨-, -, rfl⟩ := Store.relate_eq_ok hrelate
      have harchived := holdingsOf_archiveIfVersion hgroup.head harchive
      have hedge := Store.holdingsOf_withEdge now (r := supersession merged m.id)
        ((Store.owns_congr harchived merged).trans hmerged) (hgroup.congr harchived).head
      have hboth := hedge.trans harchived
      have hrest := ih ((Store.owns_congr hboth merged).trans hmerged) (hgroup.tail.congr hboth) h
      exact hrest.trans hboth
    · cases h

theorem holdingsOf_merge (hs : s.Sound) (hne : Text.trim owner ≠ other) {group : List Memory}
    {m : Memory} (hgroup : s.OfOthers other group)
    (h : e.merge now owner group s = .ok (m, s')) :
    s'.holdingsOf other = s.holdingsOf other := by
  obtain ⟨s₁, hcreate, -, hsupersede⟩ := merge_eq_ok h
  obtain ⟨hcreated, hmerged⟩ := holdingsOf_create hs hcreate hne
  exact (holdingsOf_supersedeAll hmerged (hgroup.congr hcreated) hsupersede).trans hcreated

theorem holdingsOf_mergeWithRetry (hs : s.Sound) (hne : Text.trim owner ≠ other)
    {group : List Memory} (hgroup : s.OfOthers other group) :
    (e.mergeWithRetry now owner group s).2.holdingsOf other = s.holdingsOf other := by
  rcases mergeWithRetry_cases e now owner group s with heq | ⟨merged, m, hsub, hmerge⟩
  · rw [heq]
  · refine holdingsOf_merge hs hne (fun k hk => ?_) hmerge
    obtain ⟨k', hk', heq⟩ := hsub k hk
    exact heq ▸ hgroup k' hk'

theorem holdingsOf_mergeAll (hne : Text.trim owner ≠ other) {groups : List (List Memory)}
    (deadline : Deadline) (report : ConsolidationReport) (hs : s.Sound)
    (hids : ∀ g ∈ groups, ∀ k ∈ g, k.id ≤ s.lastMemoryId)
    (hgroups : ∀ g ∈ groups, s.OfOthers other g) :
    (e.mergeAll now owner groups deadline (report, s)).2.holdingsOf other =
      s.holdingsOf other := by
  induction groups generalizing deadline report s with
  | nil => rfl
  | cons group rest ih =>
    have hkept : (e.mergeWithRetry now owner group s).2.holdingsOf other = s.holdingsOf other :=
      holdingsOf_mergeWithRetry hs hne (hgroups group List.mem_cons_self)
    have hwrites : Writes e.vocabulary s (e.mergeWithRetry now owner group s).2 :=
      writes_mergeWithRetry trivial (hids group List.mem_cons_self)
    unfold mergeAll
    split
    · rfl
    · generalize e.mergeWithRetry now owner group s = merged at hkept hwrites
      obtain ⟨done, s₁⟩ := merged
      have hrest (deadline : Deadline) (report : ConsolidationReport) :
          (e.mergeAll now owner rest deadline (report, s₁)).2.holdingsOf other =
            s₁.holdingsOf other :=
        ih deadline report (hs.writes hwrites)
          (fun g hg k hk => Int.le_trans (hids g (List.mem_cons_of_mem _ hg) k hk) hwrites.last_le)
          fun g hg => (hgroups g (List.mem_cons_of_mem _ hg)).congr hkept
      cases done with
      | some m => exact (hrest _ _).trans hkept
      | none => exact (hrest _ _).trans hkept

theorem holdingsOf_consolidateBy (hs : s.Sound) (hne : owner ≠ other)
    (htrim : Text.trim owner ≠ other) {deadline : Deadline} {report : ConsolidationReport}
    (h : e.consolidateBy now owner deadline s = .ok (report, s')) :
    s'.holdingsOf other = s.holdingsOf other := by
  obtain ⟨groups, deadline, report, hshows, rfl⟩ := consolidateBy_eq_ok h
  exact holdingsOf_mergeAll htrim deadline report hs (fun g hg => (hshows g hg).id_le hs)
    fun g hg => ofOthers_of_shows hs hne (hshows g hg)

/-! ## Lifecycle -/

theorem holdingsOf_ageAll {ms : List Memory} {n n' : Nat} (hms : s.OfOthers other ms)
    (h : ageAll now ms (n, s) = .ok (n', s')) : s'.holdingsOf other = s.holdingsOf other := by
  induction ms generalizing n s with
  | nil =>
    cases h
    rfl
  | cons m rest ih =>
    obtain ⟨⟨done, s₁⟩, hage, h⟩ := bind_eq_ok.mp h
    have hkept : s₁.holdingsOf other = s.holdingsOf other := by
      rcases Store.age_eq_ok hage with rfl | ⟨-, rfl⟩
      · rfl
      · exact Store.holdingsOf_modifyMemory (fun _ => rfl) hms.head
    exact (ih (hms.tail.congr hkept) h).trans hkept

theorem holdingsOf_archiveAll {ms : List Memory} (n : Nat) (hms : s.OfOthers other ms) :
    (archiveAll now ms (n, s)).2.holdingsOf other = s.holdingsOf other := by
  induction ms generalizing n s with
  | nil => rfl
  | cons m rest ih =>
    unfold archiveAll
    generalize harchive : s.archiveIfVersion now m.id m.version archivedAsAged = a
    obtain ⟨done, s₁⟩ := a
    have hkept := holdingsOf_archiveIfVersion hms.head harchive
    exact (ih _ (hms.tail.congr hkept)).trans hkept

/-- A walk over pages of one owner keeps what another has where its steps do. -/
theorem holdingsOf_walkPages {v : Vocabulary} {α : Type} (hs : s.Sound) (hne : owner ≠ other)
    {size : Nat} {step : List Memory → α × Store → Except Error (α × Store)}
    (hwrites : ∀ page a s a' s', step page (a, s) = .ok (a', s') → Writes v s s')
    (hstep : ∀ page a s a' s', s.OfOthers other page → step page (a, s) = .ok (a', s') →
      s'.holdingsOf other = s.holdingsOf other)
    {fuel : Nat} {deadline : Deadline} {after : Option MemoryId} {a : α} {p : Passed (α × Store)}
    (h : walkPages now owner size step fuel deadline after (a, s) = .ok p) :
    p.result.2.holdingsOf other = s.holdingsOf other := by
  let Kept (state : α × Store) : Prop :=
    state.2.Sound ∧ state.2.holdingsOf other = s.holdingsOf other
  have hkept : Kept p.result := by
    refine walkPages_keeps (P := Kept) (fun page state state' hshows hkept hdone => ?_) ⟨hs, rfl⟩ h
    have hothers := ofOthers_of_shows hkept.1 hne hshows
    exact ⟨hkept.1.writes (hwrites _ _ _ _ _ hdone),
      (hstep _ _ _ _ _ hothers hdone).trans hkept.2⟩
  exact hkept.2

theorem holdingsOf_agePass (hs : s.Sound) (hne : owner ≠ other) {clock : Instant}
    {deadline : Deadline} {p : Passed (Nat × Store)}
    (h : e.agePass clock now owner deadline s = .ok p) :
    p.result.2.holdingsOf other = s.holdingsOf other := by
  obtain ⟨w, -, h⟩ := bind_eq_ok.mp h
  refine holdingsOf_walkPages (v := e.vocabulary) hs hne
    (fun _ _ _ _ _ => writes_ageAll trivial trivial) (fun page n s n' s' hpage hstep => ?_) h
  exact holdingsOf_ageAll (fun m hm => hpage m (List.mem_filter.mp hm).1) hstep

theorem holdingsOf_archivePass (hs : s.Sound) (hne : owner ≠ other) {clock : Instant}
    {deadline : Deadline} {p : Passed (Nat × Store)}
    (h : e.archivePass clock now owner deadline s = .ok p) :
    p.result.2.holdingsOf other = s.holdingsOf other := by
  obtain ⟨w, -, h⟩ := bind_eq_ok.mp h
  have hsame {x : Nat × Store} {n' : Nat} {s' : Store}
      (hstep : (.ok x : Except Error (Nat × Store)) = .ok (n', s')) : x.2 = s' :=
    congrArg Prod.snd (Except.ok.inj hstep)
  refine holdingsOf_walkPages (v := e.vocabulary) hs hne (fun page n s n' s' hstep => ?_)
    (fun page n s n' s' hpage hstep => ?_) h
  · exact hsame hstep ▸ writes_archiveAll trivial _ n s
  · exact hsame hstep ▸ holdingsOf_archiveAll n fun m hm => hpage m (List.mem_filter.mp hm).1

/-! ## Deletion -/

theorem holdingsOf_deleteOwned (hs : s.Sound) (hne : owner ≠ other) {id : MemoryId}
    (h : deleteOwned owner id s = .ok s') :
    s'.holdingsOf other = (s.holdingsOf other).pruned s'.exists? := by
  obtain ⟨hdelete, m, hkept, rfl⟩ := deleteOwned_eq_ok h
  obtain ⟨-, rfl⟩ := Store.delete_eq_ok.mp hdelete
  obtain ⟨hm, rfl⟩ := Store.mem_of_kept? hkept
  have hother : s.owns other m.id = false := hs.not_owns hm hne
  rw [Store.remove_eq_removeAll]
  exact Store.holdingsOf_removeAll hs (by simpa using hother)

theorem exists?_deleteAll {ms : List Memory} {id : MemoryId} (hid : ∀ m ∈ ms, m.id ≠ id) (n : Nat)
    (s : Store) : (deleteAll ms (n, s)).2.exists? id = s.exists? id := by
  induction ms generalizing n s with
  | nil => rfl
  | cons m rest ih =>
    have hrest : ∀ k ∈ rest, k.id ≠ id := fun k hk => hid k (List.mem_cons_of_mem m hk)
    unfold deleteAll
    split
    · next s₁ hdelete =>
      obtain ⟨-, rfl⟩ := Store.delete_eq_ok.mp hdelete
      rw [ih hrest, Bool.eq_iff_iff, Store.exists?_remove]
      exact and_iff_left (Ne.symm (hid m List.mem_cons_self))
    · exact ih hrest n s

theorem exists?_removeDuplicates {groups : List (List Memory)} {id : MemoryId}
    (hid : ∀ g ∈ groups, ∀ m ∈ g, m.id ≠ id) (deadline : Deadline) (n : Nat) (s : Store) :
    (removeDuplicates groups deadline (n, s)).result.2.exists? id = s.exists? id := by
  induction groups generalizing deadline n s with
  | nil => rfl
  | cons group rest ih =>
    have hrest : ∀ g ∈ rest, ∀ m ∈ g, m.id ≠ id := fun g hg => hid g (List.mem_cons_of_mem _ hg)
    cases group with
    | nil => exact ih hrest deadline n s
    | cons m ms =>
      unfold removeDuplicates
      split
      · rfl
      · refine (ih hrest _ _ _).trans (exists?_deleteAll (fun k hk => ?_) n s)
        exact hid _ List.mem_cons_self k (List.mem_filter.mp hk).1

theorem exists?_deduplicatePass (hs : s.Sound) (hne : owner ≠ other) {deadline : Deadline}
    {p : Passed (Nat × Store)} (h : e.deduplicatePass now owner deadline s = .ok p)
    {id : MemoryId} (hid : s.owns other id = true) : p.result.2.exists? id = s.exists? id := by
  let Read (state : List Memory × Store) : Prop :=
    s.Shows now owner state.1 ∧ state.2 = s
  obtain ⟨⟨⟨ms, s₁⟩, deadline', aborted⟩, hwalk, hremove⟩ := bind_eq_ok.mp h
  have hread : Read (ms, s₁) := by
    refine walkPages_keeps (P := Read) (fun page state state' hpage hread hstep => ?_)
      ⟨.nil, rfl⟩ hwalk
    cases hstep
    exact ⟨hread.1.append (hread.2 ▸ hpage), hread.2⟩
  obtain ⟨hshows, rfl⟩ : s.Shows now owner ms ∧ s₁ = s := hread
  dsimp only at hremove
  split at hremove
  · cases hremove
    rfl
  · cases hremove
    refine exists?_removeDuplicates (fun g hg m hm heq => ?_) _ _ _
    obtain ⟨-, k, -, rfl⟩ := Lifecycle.mem_duplicates.mp hg
    have hother := ofOthers_of_shows hs hne hshows m (List.mem_filter.mp hm).1
    rw [heq, hid] at hother
    cases hother

theorem holdingsOf_deduplicatePass (hs : s.Sound) (hne : owner ≠ other) {deadline : Deadline}
    {p : Passed (Nat × Store)} (h : e.deduplicatePass now owner deadline s = .ok p) :
    p.result.2.holdingsOf other = (s.holdingsOf other).pruned p.result.2.exists? := by
  obtain ⟨ids, -, hex, heq⟩ := removed_deduplicatePass h
  have hids : ∀ id ∈ ids, s.owns other id = false := by
    intro id hid
    refine Bool.eq_false_iff.mpr fun howned => ?_
    have hsame := exists?_deduplicatePass hs hne h howned
    rw [hex id hid, heq] at hsame
    exact (Store.exists?_removeAll.mp hsame).2 hid
  rw [heq]
  exact Store.holdingsOf_removeAll hs hids

theorem holdingsOf_lifecycleAt (hs : s.Sound) (hne : owner ≠ other) {clock : Instant}
    {deadline : Deadline} {report : LifecycleReport}
    (h : e.lifecycleAt clock now owner deadline s = .ok (report, s')) :
    s'.holdingsOf other = (s.holdingsOf other).pruned s'.exists? := by
  obtain ⟨aging, haging, h⟩ := lifecycleAt_eq_ok h
  have hs₁ : aging.result.2.Sound :=
    hs.writes (writes_agePass (v := e.vocabulary) trivial trivial haging)
  have hkept₁ := holdingsOf_agePass hs hne haging
  rcases h with rfl | ⟨archival, harchival, h⟩
  · exact hs₁.holdingsOf_eq_pruned hkept₁
  · have hs₂ : archival.result.2.Sound :=
      hs₁.writes (writes_archivePass (v := e.vocabulary) trivial harchival)
    have hkept₂ := (holdingsOf_archivePass hs₁ hne harchival).trans hkept₁
    rcases h with rfl | ⟨removal, hremoval, rfl⟩
    · exact hs₂.holdingsOf_eq_pruned hkept₂
    · rw [← hkept₂]
      exact holdingsOf_deduplicatePass hs₂ hne hremoval

/-! ## Operations -/

section Operations

variable {op : Operation} (hs : s.Sound) (hne : owner ≠ other) (htrim : Text.trim owner ≠ other)
  (hop : op.CalledFor owner)
include hs hne htrim hop

/-- An operation that deletes nothing keeps what another owner has. -/
theorem holdingsOf_act (hdeletes : op.deletes = false) (h : e.act now s op = .ok s') :
    s'.holdingsOf other = s.holdingsOf other := by
  cases hop with
  | learn howner =>
    obtain rfl := Except.ok.inj h
    exact holdingsOf_learn (howner ▸ htrim) hs
  | retrieve query limit =>
    obtain ⟨ms, h⟩ := map_snd_eq_ok.mp h
    exact holdingsOf_retrieve hs hne h
  | retrieveContext query maxLength =>
    obtain ⟨text, h⟩ := map_snd_eq_ok.mp h
    obtain ⟨ms, h⟩ := retrieveContext_eq_ok h
    exact holdingsOf_retrieve hs hne h
  | consolidate deadline =>
    obtain ⟨_, -, h⟩ := bind_eq_ok.mp h
    obtain ⟨report, h⟩ := map_snd_eq_ok.mp h
    exact holdingsOf_consolidateBy hs hne htrim h
  | lifecycle asOf deadline => cases hdeletes
  | deleteOwned id => cases hdeletes

/-- Any of the operations leaves another owner all but the links to memories that are gone. -/
theorem holdingsOf_act_eq_pruned (h : e.act now s op = .ok s') :
    s'.holdingsOf other = (s.holdingsOf other).pruned s'.exists? := by
  have hs' : s'.Sound := hs.writes (e.writes_act hs h)
  cases hdeletes : op.deletes with
  | false => exact hs'.holdingsOf_eq_pruned (holdingsOf_act hs hne htrim hop hdeletes h)
  | true =>
    cases hop with
    | deleteOwned id => exact holdingsOf_deleteOwned hs hne h
    | lifecycle asOf deadline =>
      obtain ⟨_, -, h⟩ := bind_eq_ok.mp h
      obtain ⟨report, h⟩ := map_snd_eq_ok.mp h
      exact holdingsOf_lifecycleAt hs hne h
    | learn | retrieve | retrieveContext | consolidate => cases hdeletes

end Operations

section Perform

variable {w : World} {op : Operation} (hs : w.store.Sound) (hne : owner ≠ other)
  (htrim : Text.trim owner ≠ other) (hop : op.CalledFor owner)
include hs hne htrim hop

theorem holdingsOf_perform (hdeletes : op.deletes = false) :
    (e.perform op w).store.holdingsOf other = w.store.holdingsOf other := by
  unfold perform
  cases h : e.act w.clock w.store op with
  | error err => rfl
  | ok s => exact holdingsOf_act hs hne htrim hop hdeletes h

theorem holdingsOf_perform_eq_pruned :
    (e.perform op w).store.holdingsOf other =
      (w.store.holdingsOf other).pruned (e.perform op w).store.exists? := by
  unfold perform
  cases h : e.act w.clock w.store op with
  | error err => exact hs.pruned_holdingsOf.symm
  | ok s => exact holdingsOf_act_eq_pruned hs hne htrim hop h

end Perform

end Engine

namespace World

/-- Operations called for other owners, while the clock may move. -/
def RunsBeside (other : String) : World → World → Prop :=
  Relation.ReflTransGen fun w w' => ∃ (e : Engine) (op : Operation), w' = e.perform op w ∧
    ((∃ owner, op.CalledFor owner ∧ owner ≠ other ∧ Text.trim owner ≠ other) ∨
      ∃ millis, op = .moveClock millis)

theorem RunsBeside.runs {other : String} {w w' : World} (h : RunsBeside other w w') :
    Runs (fun _ => True) w w' := by
  refine Relation.ReflTransGen.mono ?_ _ _ h
  rintro w₁ w₂ ⟨e, op, rfl, -⟩
  exact ⟨e, op, trivial, rfl⟩

/-- Whatever is done for other owners, an owner keeps all but the links to memories that are gone
in the end. -/
theorem holdingsOf_of_runsBeside {other : String} {w w' : World} (hs : w.store.Sound)
    (h : RunsBeside other w w') :
    w'.store.holdingsOf other = (w.store.holdingsOf other).pruned w'.store.exists? := by
  induction h with
  | refl => exact hs.pruned_holdingsOf.symm
  | @tail w₁ w₂ hruns hstep ih =>
    have hs₁ : w₁.store.Sound := sound_of_runs hs (RunsBeside.runs hruns)
    have hlast := (evolves_of_runs hs (RunsBeside.runs hruns)).last_le
    obtain ⟨e, op, rfl, ⟨owner, hop, hne, htrim⟩ | ⟨millis, rfl⟩⟩ := hstep
    · rw [e.holdingsOf_perform_eq_pruned hs₁ hne htrim hop, ih, Holdings.pruned_pruned]
      refine Holdings.pruned_congr fun id hlink => ?_
      cases hid : w₁.store.exists? id with
      | true => exact Bool.true_and _
      | false =>
        -- a memory deleted earlier in the run does not come back
        have hevolves := Store.Evolves.writes hs₁ (e.writes_perform hs₁ op)
        have hle := Int.le_trans (hs.exists?_le (hs.exists?_of_linksTo hlink)) hlast
        exact (hevolves.gone hle hid).symm
    · exact ih

/-- Two owners, one memory each. The second memory has the first as its parent and an edge to it. -/
def sharedTeas : World :=
  [.create { tea 5 with owner := "bob", parent := some 1 },
    .relate { source := 2, target := 1 }].foldl
      (fun w op => Engine.oneTag.perform op w) (withTea ⟨0⟩ 5)

theorem reached_sharedTeas : sharedTeas.Reached (· = .oneTag) := by
  obtain ⟨clock, hrun⟩ := reached_withTea ⟨0⟩ 5
  exact ⟨clock, hrun.trans (runs_foldl (p := (· = .oneTag)) rfl _ _)⟩

/-- An operation called for a stored owner changes nothing that another owner has, but that links to
memories which it deletes are cut. -/
theorem others_keep_holdings {p : Engine → Prop} {w : World} (hw : w.Reached p)
    {owner other : String} (hstored : ∃ m ∈ w.store.memories, m.owner = owner)
    (hne : owner ≠ other) (e : Engine) {op : Operation} (hop : op.CalledFor owner) :
    (op.deletes = false →
      (e.perform op w).store.holdingsOf other = w.store.holdingsOf other) ∧
    (e.perform op w).store.holdingsOf other =
      (w.store.holdingsOf other).pruned (e.perform op w).store.exists? ∧
    ((e.perform op w).store.holdingsOf other = w.store.holdingsOf other ↔
      ∀ id, (w.store.holdingsOf other).LinksTo id → (e.perform op w).store.exists? id = true) := by
  have hs := hw.sound
  have htrim : Text.trim owner ≠ other := by
    obtain ⟨m, hm, rfl⟩ := hstored
    rwa [(hs.memories m hm).owner.2]
  have hpruned := e.holdingsOf_perform_eq_pruned hs hne htrim hop
  refine ⟨e.holdingsOf_perform hs hne htrim hop, hpruned, ?_⟩
  rw [hpruned]
  exact Holdings.pruned_eq_self_iff

theorem others_keep_holdings_sharedTeas :
    (sharedTeas.store.holdingsOf "bob").memories.map (·.parent) = [some 1] ∧
    (Engine.oneTag.perform (.retrieve "ann" "tea" none) sharedTeas).store.holdingsOf "bob" =
      sharedTeas.store.holdingsOf "bob" ∧
    ∃ s', Engine.deleteOwned "ann" 1 sharedTeas.store = .ok s' ∧ s'.exists? 1 = false ∧
      s'.holdingsOf "bob" = (sharedTeas.store.holdingsOf "bob").pruned s'.exists? := by
  have hstored : ∃ m ∈ sharedTeas.store.memories, m.owner = "ann" :=
    ⟨_, List.mem_cons_self, rfl⟩
  have hne : "ann" ≠ "bob" := by decide
  obtain ⟨hkept, -⟩ := others_keep_holdings reached_sharedTeas hstored hne Engine.oneTag
    (.retrieve "tea" none)
  obtain ⟨-, hpruned, -⟩ := others_keep_holdings reached_sharedTeas hstored hne Engine.oneTag
    (.deleteOwned 1)
  exact ⟨rfl, hkept rfl, _, rfl, rfl, hpruned⟩

theorem link_cut_by_another_owner :
    sharedTeas.Reached (· = .oneTag) ∧ sharedTeas.store.owners = ["ann", "bob"] ∧
    (sharedTeas.store.holdingsOf "bob").memories.map (·.parent) = [some 1] ∧
    (sharedTeas.store.holdingsOf "bob").relationships.length = 1 ∧
    ((Engine.oneTag.perform (.deleteOwned "ann" 1) sharedTeas).store.holdingsOf "bob").memories.map
      (·.parent) = [none] ∧
    ((Engine.oneTag.perform (.deleteOwned "ann" 1) sharedTeas).store.holdingsOf
      "bob").relationships.length = 0 :=
  ⟨reached_sharedTeas, by decide, rfl, rfl, rfl, rfl⟩

end World

end LongTermMemory
