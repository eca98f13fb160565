import LongTermMemory.Proofs.View

/-!
Passes of different owners commute. A pass changes nothing in the view of another owner, so that it
is all one to the other's passes whether it comes before or after them; and what two passes do to
the store can be done in either order.
-/

namespace LongTermMemory

variable {now : Instant} {owner other : String} {s : Store}

/-! ## Lifecycle runs -/

namespace Lifecycle

variable {c : LifecycleConfig}

/-- A run deletes memories of its owner only. -/
theorem owner_of_removed {id : MemoryId}
    (hid : id ∈ removedOf c now owner (s.viewOf owner)) :
    ∃ m ∈ s.memories, m.id = id ∧ m.owner = owner := by
  rw [Store.viewOf, removedOf_seenBy] at hid
  obtain ⟨m, hm, rfl⟩ := List.mem_map.mp hid
  obtain ⟨hm, houtranked⟩ := List.mem_filter.mp hm
  obtain ⟨k, hk, rfl⟩ := List.mem_map.mp hm
  exact ⟨k, hk, (keepsPlace_settle.id k).symm, (owner_settle k).symm.trans
    (owner_of_outranked houtranked)⟩

/-- A run changes nothing in the views of others. -/
theorem viewOf_tidied_of_ne (hs : s.Sound) (hne : owner ≠ other) :
    (tidied c now owner s).viewOf other = s.viewOf other := by
  rw [tidied, Store.viewOf_removeAll, Store.viewOf_mapMemories keepsPlace_settle owner_settle]
  have hsettled : (s.viewOf other).map (settle c now owner) = s.viewOf other := by
    refine (List.map_congr_left fun m hm => ?_).trans (List.map_id' _)
    exact settle_of_other fun heq => hne (heq.symm.trans (Store.mem_viewOf hm).1)
  rw [hsettled]
  refine List.filter_eq_self.mpr fun m hm => decide_eq_true fun hin => ?_
  obtain ⟨-, k, hk, hkid, hkowner⟩ := Store.mem_viewOf hm
  obtain ⟨k', hk', hkid', hkowner'⟩ := owner_of_removed hin
  have hsame : k' = k := ById.inj hs.ascending hk' hk (hkid'.trans hkid.symm)
  exact hne (hkowner'.symm.trans (hsame ▸ hkowner))

theorem settle_comm (hne : owner ≠ other) (m : Memory) :
    settle c now other (settle c now owner m) = settle c now owner (settle c now other m) := by
  by_cases howner : m.owner = owner
  · have hother : m.owner ≠ other := howner ▸ hne
    rw [settle_of_other hother, settle_of_other fun heq => hother ((owner_settle m).symm.trans heq)]
  · rw [settle_of_other howner, settle_of_other fun heq => howner ((owner_settle m).symm.trans heq)]

theorem tidied_tidied (hs : s.Sound) (hne : owner ≠ other) :
    tidied c now other (tidied c now owner s) =
      ((s.mapMemories (settle c now owner)).mapMemories (settle c now other)).removeAll
        (removedOf c now owner (s.viewOf owner) ++ removedOf c now other (s.viewOf other)) := by
  have hview : (tidied c now owner s).viewOf other = s.viewOf other := viewOf_tidied_of_ne hs hne
  rw [tidied, hview, tidied, ← Store.removeAll_mapMemories keepsPlace_settle,
    Store.removeAll_removeAll]

/-- The runs of two owners can change places. -/
theorem tidied_comm (hs : s.Sound) (hne : owner ≠ other) :
    tidied c now other (tidied c now owner s) = tidied c now owner (tidied c now other s) := by
  rw [tidied_tidied hs hne, tidied_tidied hs hne.symm, Store.mapMemories_comm (settle_comm hne)]
  refine Store.removeAll_congr fun id => ?_
  rw [List.mem_append, List.mem_append, or_comm]

end Lifecycle

/-! ## Consolidations -/

namespace Engine

variable {e : Engine}

theorem ne_nil_of_mem_groupsIn (hs : s.Sound) {group : List Memory}
    (hgroup : group ∈ e.groupsIn (s.viewOf owner)) : group ≠ [] := by
  have hread := (List.take_sublist e.config.consolidation.maxMemoriesPerPass
    ((s.viewOf owner).filter fun m => !m.archived)).trans List.filter_sublist
  have hascending := (ById.viewOf hs owner).sublist (hread.map _)
  exact (ConsolidationConfig.areComponents_findGroups hascending).nonempty hgroup

theorem mem_replacements {groups : List (List Memory)} {r : Replacement}
    (hr : r ∈ e.replacements owner groups) : ∃ group ∈ groups,
      e.prepare (e.config.consolidation.mergedRequest owner group) = .ok r.request ∧
      r.ids = group.map (·.id) := by
  obtain ⟨group, hgroup, hprepare⟩ := List.mem_filterMap.mp hr
  split at hprepare
  · next request hrequest =>
    cases hprepare
    exact ⟨group, hgroup, hrequest, rfl⟩
  · cases hprepare

/-- A pass replaces memories of its owner only. -/
theorem of_mem_replacementsIn (hs : s.Sound) {r : Replacement}
    (hr : r ∈ e.replacementsIn owner (s.viewOf owner)) : r.Of owner s := by
  obtain ⟨group, hgroup, hprepare, hids⟩ := mem_replacements hr
  have hseen : ∀ m ∈ group, ∃ k ∈ s.memories, k.id = m.id ∧ k.owner = owner := by
    intro m hm
    have hread := List.mem_of_mem_take (mem_of_mem_findGroups hgroup hm)
    exact (Store.mem_viewOf (List.mem_filter.mp hread).1).2
  have hnonempty : group ≠ [] := ne_nil_of_mem_groupsIn hs hgroup
  obtain ⟨tags, -, hrequest⟩ := prepare_eq_ok hprepare
  refine ⟨?_, by rw [hrequest]; rfl, fun id hid => ?_, fun m hm hid => ?_⟩
  · obtain ⟨k, hk, -, rfl⟩ := hseen _ (List.head_mem hnonempty)
    rw [hrequest]
    exact (hs.memories k hk).owner.2
  · obtain ⟨m, hm, rfl⟩ := List.mem_map.mp (hids ▸ hid)
    obtain ⟨k, hk, hkid, -⟩ := hseen m hm
    exact hkid ▸ hs.bounded k hk
  · obtain ⟨m', hm', hid'⟩ := List.mem_map.mp (hids ▸ hid)
    obtain ⟨k, hk, hkid, howner⟩ := hseen m' hm'
    have hsame : k = m := ById.inj hs.ascending hk hm (hkid.trans hid')
    exact hsame ▸ howner

/-- A pass changes nothing in the views of others. -/
theorem viewOf_replacing_of_ne (hs : s.Sound) (hne : owner ≠ other) :
    (s.replacing now (e.replacementsIn owner (s.viewOf owner))).viewOf other = s.viewOf other := by
  have hrs : ∀ r ∈ e.replacementsIn owner (s.viewOf owner), r.Of owner s :=
    fun r => of_mem_replacementsIn hs
  have hmemories := Store.memoriesOf_replacing hrs hne now
  rw [Store.memoriesOf_eq, Store.memoriesOf_eq] at hmemories
  rw [Store.viewOf, seenBy, hmemories]
  rfl

/-- The consolidation of one owner and the lifecycle run of another can change places. -/
theorem tidied_replacing (hs : s.Sound) (hne : owner ≠ other) {c : LifecycleConfig} :
    Lifecycle.tidied c now other (s.replacing now (e.replacementsIn owner (s.viewOf owner))) =
      (Lifecycle.tidied c now other s).replacing now
        (e.replacementsIn owner ((Lifecycle.tidied c now other s).viewOf owner)) := by
  have hrs : ∀ r ∈ e.replacementsIn owner (s.viewOf owner), r.Of owner s :=
    fun r => of_mem_replacementsIn hs
  have hleaves : ∀ m : Memory, m.owner = owner → Lifecycle.settle c now other m = m :=
    fun m howner => Lifecycle.settle_of_other (howner ▸ hne)
  rw [Lifecycle.viewOf_tidied_of_ne hs hne.symm, Lifecycle.tidied, viewOf_replacing_of_ne hs hne,
    Store.mapMemories_replacing hrs Lifecycle.keepsPlace_settle hleaves]
  refine Store.removeAll_replacing (fun r hr => (hrs r hr).mapMemories
    Lifecycle.keepsPlace_settle.id Lifecycle.owner_settle) (fun id hid => ?_)
    (fun r hr id hid hin => ?_) now
  · obtain ⟨m, hm, rfl, -⟩ := Lifecycle.owner_of_removed hid
    exact hs.bounded m hm
  · obtain ⟨m, hm, rfl, howner⟩ := Lifecycle.owner_of_removed hid
    exact hne (((hrs r hr).members m hm hin).symm.trans howner)

end Engine

/-! ## Passes in turn -/

/-- One pass and then another. -/
def inTurn {α β : Type} (f : Store → Except Error (α × Store))
    (g : Store → Except Error (β × Store)) (s : Store) : Except Error ((α × β) × Store) := do
  let (a, s) ← f s
  let (b, s) ← g s
  .ok ((a, b), s)

/-- In either order two passes give the same reports and leave the same store. -/
def CommuteAt {α β : Type} (s : Store) (f : Store → Except Error (α × Store))
    (g : Store → Except Error (β × Store)) : Prop :=
  ∀ a b s', inTurn f g s = .ok ((a, b), s') ↔ inTurn g f s = .ok ((b, a), s')

/-- On sound stores a pass works just when `p` holds, and its report and what it leaves are
functions of the store. -/
structure AmountsTo {α : Type} (f : Store → Except Error (α × Store)) (p : Prop)
    (report : Store → α) (leaves : Store → Store) : Prop where
  eq_ok : ∀ s : Store, s.Sound → ∀ a s', f s = .ok (a, s') ↔ p ∧ a = report s ∧ s' = leaves s
  sound : ∀ s : Store, s.Sound → ∀ a s', f s = .ok (a, s') → s'.Sound

namespace AmountsTo

variable {α β : Type} {f : Store → Except Error (α × Store)}
  {g : Store → Except Error (β × Store)} {p q : Prop} {reportf : Store → α} {reportg : Store → β}
  {leavesf leavesg : Store → Store}

theorem leaves_sound (hf : AmountsTo f p reportf leavesf) (hs : s.Sound) (hp : p) :
    (leavesf s).Sound :=
  hf.sound s hs _ _ ((hf.eq_ok s hs _ _).mpr ⟨hp, rfl, rfl⟩)

theorem inTurn_eq_ok (hf : AmountsTo f p reportf leavesf) (hg : AmountsTo g q reportg leavesg)
    (hs : s.Sound) {a : α} {b : β} {s' : Store} : inTurn f g s = .ok ((a, b), s') ↔
      p ∧ q ∧ a = reportf s ∧ b = reportg (leavesf s) ∧ s' = leavesg (leavesf s) := by
  constructor
  · intro h
    obtain ⟨⟨_, s₁⟩, hfirst, h⟩ := bind_eq_ok.mp h
    obtain ⟨⟨_, _⟩, hsecond, h⟩ := bind_eq_ok.mp h
    cases h
    have hs₁ := hf.sound s hs _ _ hfirst
    obtain ⟨hp, ha, rfl⟩ := (hf.eq_ok s hs _ _).mp hfirst
    obtain ⟨hq, hb, hleaves⟩ := (hg.eq_ok _ hs₁ _ _).mp hsecond
    exact ⟨hp, hq, ha, hb, hleaves⟩
  · rintro ⟨hp, hq, rfl, rfl, rfl⟩
    have hfirst := (hf.eq_ok s hs _ _).mpr ⟨hp, rfl, rfl⟩
    have hsecond := (hg.eq_ok _ (hf.leaves_sound hs hp) _ _).mpr ⟨hq, rfl, rfl⟩
    rw [inTurn, hfirst]
    simp only [Bind.bind, Except.bind]
    rw [hsecond]

/-- Passes commute where neither changes what the other reports and their effects do. -/
theorem commuteAt (hf : AmountsTo f p reportf leavesf) (hg : AmountsTo g q reportg leavesg)
    (hs : s.Sound) (hreportg : reportg (leavesf s) = reportg s)
    (hreportf : reportf (leavesg s) = reportf s)
    (hleaves : leavesg (leavesf s) = leavesf (leavesg s)) : CommuteAt s f g := by
  intro a b s'
  rw [hf.inTurn_eq_ok hg hs, hg.inTurn_eq_ok hf hs, hreportg, hreportf, hleaves]
  constructor
  · rintro ⟨hp, hq, ha, hb, hs'⟩
    exact ⟨hq, hp, hb, ha, hs'⟩
  · rintro ⟨hq, hp, hb, ha, hs'⟩
    exact ⟨hp, hq, ha, hb, hs'⟩

end AmountsTo

namespace Engine

variable {e : Engine}

theorem amountsTo_lifecycle (hc : e.config.Checked) (hsize : e.config.Sized) (now : Instant)
    (owner : String) :
    AmountsTo (e.lifecycle now owner) (Text.blank owner = false ∧ e.config.lifecycle.Runnable)
      (fun s => Lifecycle.reportOf e.config.lifecycle now owner (s.viewOf owner))
      (Lifecycle.tidied e.config.lifecycle now owner) := by
  refine ⟨fun _ hs _ _ => lifecycle_eq_ok hc hsize hs, fun _ hs _ _ h => ?_⟩
  obtain ⟨_, -, h⟩ := bind_eq_ok.mp h
  exact hs.writes (writes_lifecycleAt (v := e.vocabulary) h)

theorem amountsTo_consolidate (hc : e.config.Checked) (hsize : e.config.Sized) (now : Instant)
    (owner : String) :
    AmountsTo (e.consolidate now owner)
      (Text.blank owner = false ∧ min e.config.consolidation.pageSize
        e.config.consolidation.maxMemoriesPerPass < 2 ^ 63)
      (fun s => e.mergeReportOf owner s.lastMemoryId (s.viewOf owner))
      (fun s => s.replacing now (e.replacementsIn owner (s.viewOf owner))) :=
  ⟨fun _ hs _ _ => consolidate_eq_ok hc hsize hs, fun _ hs _ _ h =>
    hs.writes (writes_consolidate hs trivial h)⟩

variable (hc : e.config.Checked) (hsize : e.config.Sized) (hs : s.Sound) (hne : owner ≠ other)
include hc hsize hs hne

theorem commuteAt_lifecycle : CommuteAt s (e.lifecycle now owner) (e.lifecycle now other) := by
  refine (amountsTo_lifecycle hc hsize now owner).commuteAt (amountsTo_lifecycle hc hsize now other)
    hs ?_ ?_ (Lifecycle.tidied_comm hs hne)
  · rw [Lifecycle.viewOf_tidied_of_ne hs hne]
  · rw [Lifecycle.viewOf_tidied_of_ne hs hne.symm]

theorem commuteAt_consolidate_lifecycle :
    CommuteAt s (e.consolidate now owner) (e.lifecycle now other) := by
  refine (amountsTo_consolidate hc hsize now owner).commuteAt
    (amountsTo_lifecycle hc hsize now other) hs ?_ ?_ (tidied_replacing hs hne)
  · rw [viewOf_replacing_of_ne hs hne]
  · rw [Lifecycle.viewOf_tidied_of_ne hs hne.symm]
    rfl

/-- What a consolidation gives after that of another owner, but for the new ids, it gives without
it. -/
theorem consolidate_after_consolidate {report report' : ConsolidationReport} {s₁ s₂ : Store}
    (hfirst : e.consolidate now owner s = .ok (report, s₁))
    (halone : e.consolidate now other s = .ok (report', s₂)) :
    ∃ s₃, e.consolidate now other s₁ = .ok (report'.renumbered report.groupsMerged, s₃) := by
  have hs₁ : s₁.Sound := hs.writes (writes_consolidate hs trivial hfirst)
  obtain ⟨-, rfl, rfl⟩ := (consolidate_eq_ok hc hsize hs).mp hfirst
  obtain ⟨hworks, rfl, -⟩ := (consolidate_eq_ok hc hsize hs).mp halone
  refine ⟨_, (consolidate_eq_ok hc hsize hs₁).mpr ⟨hworks, ?_, rfl⟩⟩
  rw [viewOf_replacing_of_ne hs hne, Store.lastMemoryId_replacing, mergeReportOf_add]
  rfl

end Engine

end LongTermMemory
