import LongTermMemory.Proofs.Store.Altering
import LongTermMemory.Proofs.Survivor

/-!
The lifecycle run without pages. `Lifecycle.unpaged` ages, archives and removes the memories of an
owner all at once, each pass on the outcome of the one before; a run that is not stopped by its
deadline comes to just that, whatever the size of its pages.
-/

namespace LongTermMemory

namespace Lifecycle

/-- The active memories of an owner are the subject of all passes. -/
def subject (owner : String) (m : Memory) : Bool := m.owner = owner && !m.archived

/-- Whether a memory loses a point. Stamps count as they are read back. -/
def ages (now : Instant) (owner : String) (window : Int) (m : Memory) : Bool :=
  let seen := m.readAt now
  subject owner m && window < now.since (seen.lastAccessed.getD seen.createdAt) &&
    seen.lastAgedAt.all (fun t => window ≤ now.since t) && 1 < m.importance

/-- A memory with one point less. -/
def pointLost (now : Instant) (m : Memory) : Memory :=
  { m with
    importance := m.importance - 1
    dynamicImportance := Single.ofInt (m.importance - 1)
    lastAgedAt := some now
    lastModified := now
    version := m.version + 1 }

/-- Whether a memory is archived. -/
def archives (now : Instant) (owner : String) (minAge threshold : Int) (m : Memory) : Bool :=
  subject owner m && minAge < now.since (m.readAt now).createdAt && m.importance < threshold

/-- An archived memory. -/
def laidAside (now : Instant) (m : Memory) : Memory :=
  { m with
    archived := true
    archiveReason := some "low_importance_aged"
    lastModified := now
    version := m.version + 1 }

/-- Whether another active memory of the owner with the same content is greater by importance,
creation and id. -/
def outranked (now : Instant) (owner : String) (ms : List Memory) (m : Memory) : Bool :=
  subject owner m && ms.any fun k =>
    subject owner k && k.content = m.content &&
      (m.importance < k.importance || (m.importance = k.importance &&
        ((m.readAt now).createdAt < (k.readAt now).createdAt ||
          ((m.readAt now).createdAt = (k.readAt now).createdAt && m.id < k.id))))

def agedStore (c : LifecycleConfig) (now : Instant) (owner : String) (s : Store) : Store :=
  s.modifyWhere (ages now owner (c.agingWindowDays * Instant.millisPerDay)) (pointLost now)

def archivedStore (c : LifecycleConfig) (now : Instant) (owner : String) (s : Store) : Store :=
  s.modifyWhere
    (archives now owner (c.archiveAgeDays * Instant.millisPerDay) c.archiveImportanceBelow)
    (laidAside now)

def deduplicatedStore (now : Instant) (owner : String) (s : Store) : Store :=
  s.removeAll ((s.memories.filter (outranked now owner s.memories)).map (·.id))

/-- The three passes, each over all memories at once. -/
def unpaged (c : LifecycleConfig) (now : Instant) (owner : String) (s : Store) :
    LifecycleReport × Store :=
  let s₁ := agedStore c now owner s
  let s₂ := archivedStore c now owner s₁
  ({ aged := s.memories.countP (ages now owner (c.agingWindowDays * Instant.millisPerDay))
     archived := s₁.memories.countP
      (archives now owner (c.archiveAgeDays * Instant.millisPerDay) c.archiveImportanceBelow)
     deduplicated := s₂.memories.countP (outranked now owner s₂.memories) },
   deduplicatedStore now owner s₂)

end Lifecycle

namespace Lifecycle

variable (now : Instant) (owner : String)

theorem ages_eq (window : Int) :
    ages now owner window = fun m => subject owner m && dueForAging now window (m.readAt now) := by
  funext m
  simp only [ages, dueForAging, Bool.and_assoc]
  rfl

theorem archives_eq (minAge threshold : Int) : archives now owner minAge threshold =
    fun m => subject owner m && dueForArchival now minAge threshold (m.readAt now) := by
  funext m
  simp only [archives, dueForArchival, Bool.and_assoc]
  rfl

theorem outranked_eq (ms : List Memory) : outranked now owner ms = fun m => subject owner m &&
    ms.any fun k => subject owner k &&
      (k.content = m.content && outranks (k.readAt now) (m.readAt now)) := by
  funext m
  simp only [outranked, outranks, Bool.and_assoc]
  rfl

end Lifecycle

/-! ## What is read of the active memories -/

namespace Store

variable {s : Store} {now : Instant} {owner : String} {q : Memory → Bool}

theorem activeAt_eq (s : Store) (now : Instant) (owner : String) :
    s.activeAt now owner = (s.memories.filter (Lifecycle.subject owner)).map (·.readAt now) := rfl

theorem mem_activeAt {m : Memory} : m ∈ s.activeAt now owner ↔
    ∃ k ∈ s.memories, Lifecycle.subject owner k = true ∧ k.readAt now = m := by
  simp only [activeAt_eq, List.mem_map, List.mem_filter, and_assoc]

theorem length_filter_activeAt : ((s.activeAt now owner).filter q).length =
    s.memories.countP fun m => Lifecycle.subject owner m && q (m.readAt now) := by
  rw [activeAt_eq, List.filter_map, List.length_map, List.filter_filter,
    List.countP_eq_length_filter]
  congr 2
  funext m
  exact Bool.and_comm _ _

/-- The ids of the memories read that satisfy `q` are the ids of those kept that do. -/
theorem Sound.mem_ids_filter_activeAt (hs : s.Sound) {m : Memory} (hm : m ∈ s.memories) :
    m.id ∈ ((s.activeAt now owner).filter q).map (·.id) ↔
      (Lifecycle.subject owner m && q (m.readAt now)) = true := by
  simp only [List.mem_map, List.mem_filter, mem_activeAt, Bool.and_eq_true]
  constructor
  · rintro ⟨_, ⟨⟨k, hk, hsubject, rfl⟩, hq⟩, hid⟩
    have hkm : k = m := ById.inj hs.ascending hk hm hid
    exact hkm ▸ ⟨hsubject, hq⟩
  · rintro ⟨hsubject, hq⟩
    exact ⟨m.readAt now, ⟨⟨m, hm, hsubject, rfl⟩, hq⟩, rfl⟩

end Store

/-- An id of a memory done is not beyond the cursor. -/
theorem ById.le_last {done : List Memory} (h : ById done) {m : Memory} (hm : m ∈ done) :
    ∃ c, done.getLast?.map (·.id) = some c ∧ m.id ≤ c := by
  rcases List.eq_nil_or_concat done with rfl | ⟨front, last, rfl⟩
  · cases hm
  · refine ⟨last.id, by simp, ?_⟩
    rw [ById.iff_pairwise, List.concat_eq_append, List.pairwise_append] at h
    rw [List.concat_eq_append] at hm
    rcases List.mem_append.mp hm with hm | hm
    · exact Int.le_of_lt (h.2.2 m hm last (by simp))
    · exact Int.le_of_eq (congrArg (·.id) (List.mem_singleton.mp hm))

namespace Engine

open Lifecycle

variable {now : Instant} {owner : String} {s : Store}

/-! ## Loops over memories read -/

/-- A loop changes the memories that it is given by `f`, and counts them. It is given memories of
the store `s` that satisfy `due`, others having been changed before. -/
def Alters (s : Store) (now : Instant) (owner : String) (due : Memory → Bool) (f : Memory → Memory)
    (loop : List Memory → Nat × Store → Except Error (Nat × Store)) : Prop :=
  ∀ ids ms n, (ids ++ ms.map (·.id)).Nodup →
    (∀ m ∈ ms, due m = true ∧ m ∈ s.activeAt now owner) →
    loop ms (n, s.modifyWhere (·.id ∈ ids) f) =
      .ok (n + ms.length, s.modifyWhere (·.id ∈ ids ++ ms.map (·.id)) f)

/-- It is enough that the loop changes the first of the memories and goes on with the others. -/
theorem alters_of_cons (hs : s.Sound) {due : Memory → Bool} {f : Memory → Memory}
    {loop : List Memory → Nat × Store → Except Error (Nat × Store)}
    (hnil : ∀ state, loop [] state = .ok state)
    (hcons : ∀ k ms n (s' : Store), k ∈ s.memories → subject owner k = true →
      due (k.readAt now) = true → s'.kept? k.id = some k → ∃ g, g k = f k ∧
        loop (k.readAt now :: ms) (n, s') = loop ms (n + 1, s'.modifyMemory k.id g))
    (hid : ∀ m, (f m).id = m.id) : Alters s now owner due f loop := by
  intro ids ms n hnodup hms
  induction ms generalizing ids n with
  | nil => simp [hnil]
  | cons m ms ih =>
    obtain ⟨hdue, hactive⟩ := hms m (by simp)
    obtain ⟨k, hk, hsubject, rfl⟩ := Store.mem_activeAt.mp hactive
    have hnot : k.id ∉ ids := by
      intro hin
      exact (List.nodup_append.mp hnodup).2.2 _ hin _ (by simp) rfl
    have hkept := hs.kept?_of_mem hk
    have hkept' : (s.modifyWhere (·.id ∈ ids) f).kept? k.id = some k := by
      rw [Store.kept?_modifyWhere hid, hkept]
      simp [hnot]
    obtain ⟨g, hg, hstep⟩ := hcons k ms n _ hk hsubject hdue hkept'
    rw [hstep, Store.modifyWhere_modifyMemory hs hid hnot hkept hg,
      ih (ids ++ [k.id]) (n + 1) (by simpa using hnodup) fun x hx => hms x (by simp [hx])]
    simp only [List.length_cons, List.map_cons, List.append_assoc, List.cons_append,
      List.nil_append, Memory.readAt_id, Nat.add_assoc, Nat.add_comm 1]

/-- The time that counts may be another than the time at which the memories are read. -/
theorem alters_ageAll (hs : s.Sound) (clock : Instant) (window : Int) :
    Alters s clock owner (dueForAging now window) (pointLost now) (ageAll now) := by
  refine alters_of_cons hs (fun _ => rfl) (fun k ms n s' hk _ hdue hkept => ?_) fun _ => rfl
  have hrange : Store.importanceInRange (k.importance - 1) = true := by
    have hupper := (hs.memories k hk).importance.2
    have hlower : 1 < k.importance := of_decide_eq_true (Bool.and_eq_true_iff.mp hdue).2
    simp only [Store.importanceInRange, decide_eq_true_eq]
    omega
  have hage : s'.age now k.id k.version (k.importance - 1) =
      .ok (true, s'.modifyMemory k.id (Store.agedMemory now (k.importance - 1))) :=
    Store.age_of_kept hkept hrange
  refine ⟨Store.agedMemory now (k.importance - 1), rfl, ?_⟩
  change (s'.age now k.id k.version (k.importance - 1) >>= _) = _
  rw [hage]
  rfl

theorem alters_archiveAll (hs : s.Sound) (due : Memory → Bool) :
    Alters s now owner due (laidAside now) fun ms state => .ok (archiveAll now ms state) := by
  refine alters_of_cons hs (fun _ => rfl) (fun k ms n s' _ hsubject _ hkept => ?_) fun _ => rfl
  have hfree : k.archived = false := by
    simp only [subject, Bool.and_eq_true, Bool.not_eq_true'] at hsubject
    exact hsubject.2
  have harchive : s'.archiveIfVersion now k.id k.version archivedAsAged =
      (true, s'.modifyMemory k.id (laidAside now)) :=
    Store.archiveIfVersion_of_kept hkept hfree
  refine ⟨_, rfl, ?_⟩
  rw [archiveAll]
  simp only [Memory.readAt_id, Memory.readAt_version, harchive, ↓reduceIte]

/-! ## The passes -/

/-- What has come of a store when those of the memories `done` that are due are changed. -/
def Altered (s : Store) (due : Memory → Bool) (f : Memory → Memory) (done : List Memory)
    (state : Nat × Store) : Prop :=
  state = ((done.filter due).length, s.modifyWhere (·.id ∈ (done.filter due).map (·.id)) f)

theorem altered_nil (s : Store) (due : Memory → Bool) (f : Memory → Memory) :
    Altered s due f [] (0, s) := congrArg (Prod.mk 0) (Store.modifyWhere_none s f).symm

/-- Steps that alter the memories that are due can be taken page by page. -/
theorem walkable_altered {due : Memory → Bool} {f : Memory → Memory}
    {loop : List Memory → Nat × Store → Except Error (Nat × Store)}
    (halters : Alters s now owner due f loop) (hid : ∀ m, (f m).id = m.id)
    (hsound : ∀ ms n n' s', loop ms (n, s) = .ok (n', s') → s'.Sound) (hs : s.Sound) :
    Walkable now owner (s.activeAt now owner) (fun page state => loop (page.filter due) state)
      (Altered s due f) := by
  have hbyId := ById.activeAt hs now owner
  have hnodup {done rest : List Memory} (hall : s.activeAt now owner = done ++ rest) :
      ((done.filter due).map (·.id)).Nodup := by
    refine hbyId.nodup_ids.sublist ?_
    rw [hall]
    exact (List.filter_sublist.trans (List.sublist_append_left _ _)).map _
  have hdue {done rest : List Memory} (hall : s.activeAt now owner = done ++ rest) :
      ∀ m ∈ done.filter due, due m = true ∧ m ∈ s.activeAt now owner := by
    intro m hm
    obtain ⟨hm, hdue⟩ := List.mem_filter.mp hm
    exact ⟨hdue, hall ▸ List.mem_append_left _ hm⟩
  refine ⟨?_, ?_, ?_⟩
  · rintro done rest _ hall rfl
    have hloop := halters [] (done.filter due) 0 (hnodup hall) (hdue hall)
    rw [Store.modifyWhere_none] at hloop
    exact hsound _ _ _ _ hloop
  · rintro done rest _ hall rfl
    rw [Store.past_activeAt_modifyWhere hid, hall]
    · exact past_last (hall ▸ hbyId)
    · intro m _ hm
      obtain ⟨k, hk, hkid⟩ := List.mem_map.mp (of_decide_eq_true hm)
      have hdone : ById done := by
        refine hbyId.sublist ?_
        rw [hall]
        exact (List.sublist_append_left _ _).map _
      obtain ⟨c, hc, hle⟩ := hdone.le_last (List.mem_filter.mp hk).1
      exact ⟨c, hc, hkid ▸ hle⟩
  · rintro done page rest _ hall rfl
    refine ⟨_, halters _ _ _ ?_ ?_, ?_⟩
    · have hboth := hnodup hall
      rwa [List.filter_append, List.map_append] at hboth
    · intro m hm
      refine hdue hall m ?_
      rw [List.filter_append]
      exact List.mem_append_right _ hm
    · simp only [Altered, List.filter_append, List.length_append, List.map_append]

/-- A walk whose steps alter the memories that are due alters all that are. -/
theorem walk_alters {size : Nat} {due : Memory → Bool} {f : Memory → Memory}
    {loop : List Memory → Nat × Store → Except Error (Nat × Store)}
    (halters : Alters s now owner due f loop) (hid : ∀ m, (f m).id = m.id)
    (hsound : ∀ ms n n' s', loop ms (n, s) = .ok (n', s') → s'.Sound) (hs : s.Sound)
    (howner : Text.blank owner = false) (hpos : 0 < size) (hsize : size < 2 ^ 63)
    (deadline : Deadline) :
    ∃ p, walk now owner size (fun page state => loop (page.filter due) state) deadline (0, s) =
        .ok p ∧
      CameTo (· = (s.memories.countP fun m => subject owner m && due (m.readAt now),
        s.modifyWhere (fun m => subject owner m && due (m.readAt now)) f)) deadline p := by
  have hwalk : ∃ p, walk now owner size (fun page state => loop (page.filter due) state) deadline
      (0, s) = .ok p ∧ CameTo (Altered s due f (s.activeAt now owner)) deadline p :=
    walk_cameTo (walkable_altered halters hid hsound hs) howner hpos hsize (altered_nil s due f)
      Store.length_activeAt_le
  obtain ⟨p, hp, hcame⟩ := hwalk
  refine ⟨p, hp, fun hgoes => ?_, hcame.2⟩
  rw [hcame.1 hgoes, Store.length_filter_activeAt]
  congr 1
  refine Store.modifyWhere_congr (fun m hm => ?_) fun _ _ _ => rfl
  rw [Bool.eq_iff_iff, decide_eq_true_eq]
  exact hs.mem_ids_filter_activeAt hm

theorem window_of_le {days : Int} (hpos : 0 < days) (hmax : days ≤ Instant.maxDays) :
    window days = .ok (days * Instant.millisPerDay) := by
  have hlow : -Instant.maxDays ≤ days := by
    have hneg : -Instant.maxDays ≤ 0 := by decide
    omega
  simp [window, Instant.days?, hlow, hmax]

variable {e : Engine}

theorem agePass_spec (hs : s.Sound) (howner : Text.blank owner = false)
    (hpos : 0 < e.config.lifecycle.pageSize) (hsize : e.config.lifecycle.pageSize < 2 ^ 63)
    (hdays : 0 < e.config.lifecycle.agingWindowDays)
    (hmax : e.config.lifecycle.agingWindowDays ≤ Instant.maxDays) (deadline : Deadline) :
    ∃ p, e.agePass now now owner deadline s = .ok p ∧
      CameTo (· = ((unpaged e.config.lifecycle now owner s).1.aged,
        agedStore e.config.lifecycle now owner s)) deadline p := by
  have halters : Alters s now owner
      (dueForAging now (e.config.lifecycle.agingWindowDays * Instant.millisPerDay))
      (pointLost now) (ageAll now) := alters_ageAll hs now _
  have hsound : ∀ ms n n' s', ageAll now ms (n, s) = .ok (n', s') → s'.Sound :=
    fun ms n n' s' h => hs.writes (writes_ageAll (v := e.vocabulary) trivial trivial h)
  have hwalk := walk_alters halters (fun _ => rfl) hsound hs howner hpos hsize deadline
  unfold agePass
  dsimp only [unpaged, agedStore]
  rw [window_of_le hdays hmax, ages_eq]
  exact hwalk

theorem archivePass_spec (hs : s.Sound) (howner : Text.blank owner = false)
    (hpos : 0 < e.config.lifecycle.pageSize) (hsize : e.config.lifecycle.pageSize < 2 ^ 63)
    (hdays : 0 < e.config.lifecycle.archiveAgeDays)
    (hmax : e.config.lifecycle.archiveAgeDays ≤ Instant.maxDays) (deadline : Deadline) :
    ∃ p, e.archivePass now now owner deadline s = .ok p ∧
      CameTo (· = (s.memories.countP (archives now owner
          (e.config.lifecycle.archiveAgeDays * Instant.millisPerDay)
          e.config.lifecycle.archiveImportanceBelow),
        archivedStore e.config.lifecycle now owner s)) deadline p := by
  have halters : Alters s now owner
      (dueForArchival now (e.config.lifecycle.archiveAgeDays * Instant.millisPerDay)
        e.config.lifecycle.archiveImportanceBelow)
      (laidAside now)
      (fun ms state => .ok (archiveAll now ms state)) := alters_archiveAll hs _
  have hsound : ∀ ms (n n' : Nat) s',
      (.ok (archiveAll now ms (n, s)) : Except Error (Nat × Store)) = .ok (n', s') → s'.Sound := by
    intro ms n n' s' h
    have hstore : _ = s' := congrArg Prod.snd (Except.ok.inj h)
    exact hstore ▸ hs.writes (writes_archiveAll (v := e.vocabulary) trivial ms n s)
  have hwalk := walk_alters halters (fun _ => rfl) hsound hs howner hpos hsize deadline
  unfold archivePass
  dsimp only [archivedStore]
  rw [window_of_le hdays hmax, archives_eq]
  exact hwalk

/-! ## Removing duplicates -/

theorem deleteAll_eq {ms : List Memory} {ids : List MemoryId} {n : Nat}
    (hnodup : (ids ++ ms.map (·.id)).Nodup) (hexists : ∀ m ∈ ms, s.exists? m.id = true) :
    deleteAll ms (n, s.removeAll ids) = (n + ms.length, s.removeAll (ids ++ ms.map (·.id))) := by
  induction ms generalizing ids n with
  | nil => simp [deleteAll]
  | cons m ms ih =>
    have hnot : m.id ∉ ids := by
      intro hin
      exact (List.nodup_append.mp hnodup).2.2 _ hin _ (by simp) rfl
    have hdelete : (s.removeAll ids).delete m.id = .ok (s.removeAll (ids ++ [m.id])) :=
      Store.delete_eq_ok.mpr
        ⟨Store.exists?_removeAll.mpr ⟨hexists m (by simp), hnot⟩, Store.removeAll_remove s ids m.id⟩
    rw [deleteAll, hdelete]
    dsimp only
    rw [ih (by simpa using hnodup) fun x hx => hexists x (by simp [hx])]
    simp only [List.length_cons, List.map_cons, List.append_assoc, List.cons_append,
      List.nil_append, Nat.add_assoc, Nat.add_comm 1]

theorem removeDuplicates_cameTo {groups : List (List Memory)} {ids : List MemoryId} {n : Nat}
    {deadline : Deadline} (hnodup : (ids ++ (groups.flatMap losers).map (·.id)).Nodup)
    (hexists : ∀ m ∈ groups.flatMap losers, s.exists? m.id = true) :
    CameTo (· = (n + (groups.flatMap losers).length,
        s.removeAll (ids ++ (groups.flatMap losers).map (·.id)))) deadline
      (removeDuplicates groups deadline (n, s.removeAll ids)) := by
  induction groups generalizing ids n deadline with
  | nil => exact ⟨fun _ => by simp [removeDuplicates], fun hnever => ⟨rfl, hnever⟩⟩
  | cons group rest ih =>
    cases group with
    | nil => exact ih hnodup hexists
    | cons m ms =>
      unfold removeDuplicates
      split
      · next deadline' hcheck =>
        refine ⟨fun hgoes => (by cases hgoes), fun hnever => ?_⟩
        exact absurd (Deadline.check_of_never hcheck hnever).1 (by simp)
      · next deadline' hcheck =>
        rw [List.flatMap_cons, List.map_append, ← List.append_assoc] at hnodup
        have hdelete : deleteAll (losers (m :: ms)) (n, s.removeAll ids) =
            (n + (losers (m :: ms)).length,
              s.removeAll (ids ++ (losers (m :: ms)).map (·.id))) :=
          deleteAll_eq (List.nodup_append.mp hnodup).1 fun x hx => hexists x (by simp [hx])
        change CameTo _ deadline
          (removeDuplicates rest deadline' (deleteAll (losers (m :: ms)) (n, s.removeAll ids)))
        rw [hdelete, List.flatMap_cons, List.map_append, ← List.append_assoc, List.length_append,
          ← Nat.add_assoc]
        have hrest : ∀ x ∈ rest.flatMap losers, s.exists? x.id = true := fun x hx =>
          hexists x (List.flatMap_cons ▸ List.mem_append_right _ hx)
        exact (ih hnodup hrest).imp_right fun hlater hnever =>
          hlater (Deadline.check_of_never hcheck hnever).2

/-- The duplicates removed are the memories outranked. -/
theorem losers_are_outranked (hs : s.Sound) (now : Instant) (owner : String) :
    (allLosers (s.activeAt now owner)).length = s.memories.countP (outranked now owner s.memories) ∧
      ∀ id, id ∈ (allLosers (s.activeAt now owner)).map (·.id) ↔
        id ∈ (s.memories.filter (outranked now owner s.memories)).map (·.id) := by
  have hbyId := ById.activeAt hs now owner
  let q (m : Memory) : Bool :=
    (s.activeAt now owner).any fun k => k.content = m.content && outranks k m
  have hq : outranked now owner s.memories = fun m => subject owner m && q (m.readAt now) := by
    rw [outranked_eq]
    funext m
    simp only [q, Store.activeAt_eq, List.any_map, List.any_filter]
    rfl
  have hperm : (allLosers (s.activeAt now owner)).Perm ((s.activeAt now owner).filter q) := by
    refine (List.perm_ext_iff_of_nodup (nodup_allLosers hbyId)
      (hbyId.nodup_ids.of_map.filter q)).mpr fun m => ?_
    rw [mem_allLosers hbyId, List.mem_filter]
    simp [q]
  refine ⟨?_, fun id => ?_⟩
  · rw [hperm.length_eq, Store.length_filter_activeAt, hq]
  · rw [(hperm.map (·.id)).mem_iff, hq, Store.activeAt_eq, List.filter_map, List.map_map,
      List.filter_filter]
    have hcomm : (fun m => (q ∘ Memory.readAt now) m && subject owner m) =
        fun m => subject owner m && q (m.readAt now) := by
      funext m
      exact Bool.and_comm _ _
    rw [hcomm]
    rfl

theorem deduplicatePass_spec (hs : s.Sound) (howner : Text.blank owner = false)
    (hpos : 0 < e.config.lifecycle.pageSize) (hsize : e.config.lifecycle.pageSize < 2 ^ 63)
    (deadline : Deadline) :
    ∃ p, e.deduplicatePass now owner deadline s = .ok p ∧
      CameTo (· = (s.memories.countP (outranked now owner s.memories),
        deduplicatedStore now owner s)) deadline p := by
  let Q (done : List Memory) (state : List Memory × Store) : Prop := state = (done, s)
  have hbyId := ById.activeAt hs now owner
  have hwalkable : Walkable now owner (s.activeAt now owner)
      (fun page state => .ok (state.1 ++ page, state.2)) Q := by
    refine ⟨?_, ?_, ?_⟩
    · rintro done rest _ hall rfl
      exact hs
    · rintro done rest _ hall rfl
      dsimp only
      rw [hall]
      exact past_last (hall ▸ hbyId)
    · rintro done page rest _ hall rfl
      exact ⟨_, rfl, rfl⟩
  have hwalk : ∃ p, walk now owner e.config.lifecycle.pageSize
      (fun page state => .ok (state.1 ++ page, state.2)) deadline (([] : List Memory), s) =
        .ok p ∧
        CameTo (Q (s.activeAt now owner)) deadline p :=
    walk_cameTo hwalkable howner hpos hsize rfl Store.length_activeAt_le
  obtain ⟨⟨state, deadline', aborted⟩, hp, hcame⟩ := hwalk
  unfold deduplicatePass
  rw [hp]
  cases aborted with
  | true =>
    refine ⟨_, rfl, fun hgoes => (by cases hgoes), fun hnever => ?_⟩
    exact absurd (hcame.2 hnever).1 (by simp)
  | false =>
    have hstate : state = (s.activeAt now owner, s) := hcame.1 rfl
    subst hstate
    obtain ⟨hcount, hids⟩ := losers_are_outranked hs now owner
    have hnodup : ((allLosers (s.activeAt now owner)).map (·.id)).Nodup :=
      (List.nodup_map_iff_inj_on (nodup_allLosers hbyId)).mpr fun a ha b hb hid =>
        hbyId.inj ((mem_allLosers hbyId).mp ha).1 ((mem_allLosers hbyId).mp hb).1 hid
    have hexists : ∀ m ∈ allLosers (s.activeAt now owner), s.exists? m.id = true := by
      intro m hm
      obtain ⟨k, hk, -, rfl⟩ := Store.mem_activeAt.mp ((mem_allLosers hbyId).mp hm).1
      exact Store.exists?_iff.mpr ⟨k, hk, rfl⟩
    have hremove : CameTo (· = (0 + (allLosers (s.activeAt now owner)).length,
        s.removeAll ([] ++ (allLosers (s.activeAt now owner)).map (·.id)))) deadline'
        (removeDuplicates (duplicates (s.activeAt now owner)) deadline' (0, s.removeAll [])) :=
      removeDuplicates_cameTo hnodup hexists
    rw [Store.removeAll_nil] at hremove
    refine ⟨_, rfl, fun hgoes => ?_, fun hnever => hremove.2 (hcame.2 hnever).2⟩
    rw [hremove.1 hgoes]
    exact Prod.ext ((Nat.zero_add _).trans hcount) (Store.removeAll_congr hids)

/-! ## The run -/

end Engine

/-- Positive windows that are spans of time, and pages whose size a limit can tell. -/
structure LifecycleConfig.Runnable (c : LifecycleConfig) : Prop where
  agingWindow : 0 < c.agingWindowDays ∧ c.agingWindowDays ≤ Instant.maxDays
  archiveAge : 0 < c.archiveAgeDays ∧ c.archiveAgeDays ≤ Instant.maxDays
  pageSize : 0 < c.pageSize ∧ c.pageSize < 2 ^ 63

namespace Engine

open Lifecycle

variable {owner : String} {s : Store}

/-- A run on a sound store gives a report; it comes to the outcome without pages unless its deadline
stops it. -/
theorem lifecycleAt_spec {e : Engine} (hs : s.Sound) (howner : Text.blank owner = false)
    (hc : e.config.lifecycle.Runnable) (now : Instant) (deadline : Deadline) :
    ∃ report s', e.lifecycleAt now now owner deadline s = .ok (report, s') ∧
      (report.aborted = false → (report, s') = unpaged e.config.lifecycle now owner s) ∧
      (deadline = .never → report.aborted = false) := by
  obtain ⟨hpos, hsize⟩ := hc.pageSize
  obtain ⟨⟨⟨aged, s₁⟩, deadline₁, stopped⟩, haging, haged⟩ :=
    agePass_spec hs howner hpos hsize hc.agingWindow.1 hc.agingWindow.2 deadline
  have hs₁ : s₁.Sound := hs.writes (writes_agePass (v := e.vocabulary) trivial trivial haging)
  unfold lifecycleAt
  rw [haging]
  simp only [Bind.bind, Except.bind]
  cases stopped with
  | true =>
    exact ⟨{ aged, aborted := true }, s₁, rfl, by simp, fun hnever => (haged.2 hnever).1⟩
  | false =>
    obtain ⟨⟨⟨archived, s₂⟩, deadline₂, stopped⟩, harchival, harchived⟩ :=
      archivePass_spec hs₁ howner hpos hsize hc.archiveAge.1 hc.archiveAge.2 deadline₁
    have hs₂ : s₂.Sound := hs₁.writes (writes_archivePass (v := e.vocabulary) trivial harchival)
    rw [if_neg (by simp), harchival]
    dsimp only
    cases stopped with
    | true =>
      exact ⟨{ aged, archived, aborted := true }, s₂, rfl, by simp,
        fun hnever => (harchived.2 (haged.2 hnever).2).1⟩
    | false =>
      obtain ⟨⟨⟨deduplicated, s₃⟩, deadline₃, stopped⟩, hremoval, hremoved⟩ :=
        deduplicatePass_spec hs₂ howner hpos hsize deadline₂
      rw [if_neg (by simp), hremoval]
      refine ⟨{ aged, archived, deduplicated, aborted := stopped }, s₃, rfl, fun hgoes => ?_,
        fun hnever => (hremoved.2 (harchived.2 (haged.2 hnever).2).2).1⟩
      dsimp only at hgoes
      subst hgoes
      cases haged.1 rfl
      cases harchived.1 rfl
      cases hremoved.1 rfl
      rfl

end Engine

namespace World

open Lifecycle

def fortyDays : Instant := ⟨40 * Instant.millisPerDay⟩

theorem runnable_default : ({} : LifecycleConfig).Runnable := ⟨by decide, by decide, by decide⟩

end World

end LongTermMemory
