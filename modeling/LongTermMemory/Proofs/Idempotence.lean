import LongTermMemory.Proofs.Configuration
import LongTermMemory.Proofs.Workable

/-!
A lifecycle run repeated at the same instant. A run leaves a settled store, in which no memory is
due for any of the passes, and a pass over a settled store changes nothing. That a memory has lost
its point shows by its stamp alone, so the stamp must be one that is read back.
-/

namespace LongTermMemory

theorem Store.modifyWhere_of_none {s : Store} {p : Memory → Bool} {f : Memory → Memory}
    (h : ∀ m ∈ s.memories, p m = false) : s.modifyWhere p f = s :=
  (modifyWhere_congr (fun m hm => by simpa using h m hm) fun _ _ _ => rfl).trans
    (modifyWhere_none s f)

namespace Lifecycle

/-- No memory is due for aging, for archival or for removal. -/
structure Settled (c : LifecycleConfig) (now : Instant) (owner : String) (s : Store) : Prop where
  aging : ∀ m ∈ s.memories,
    ages now owner (c.agingWindowDays * Instant.millisPerDay) m = false
  archival : ∀ m ∈ s.memories,
    archives now owner (c.archiveAgeDays * Instant.millisPerDay) c.archiveImportanceBelow m = false
  removal : ∀ m ∈ s.memories, outranked now owner s.memories m = false

variable {c : LifecycleConfig} {now : Instant} {owner : String} {s : Store}

/-- A run on a settled store finds nothing to do. -/
theorem Settled.unpaged_eq (h : Settled c now owner s) : unpaged c now owner s = ({}, s) := by
  have haged : agedStore c now owner s = s := Store.modifyWhere_of_none h.aging
  have harchived : archivedStore c now owner s = s := Store.modifyWhere_of_none h.archival
  have hdeduplicated : deduplicatedStore now owner s = s := by
    rw [deduplicatedStore, List.filter_eq_nil_iff.mpr (by simpa using h.removal), List.map_nil,
      Store.removeAll_nil]
  have hnone : ∀ p : Memory → Bool, (∀ m ∈ s.memories, p m = false) → s.memories.countP p = 0 := by
    intro p hp
    exact List.countP_eq_zero.mpr fun m hm => by simp [hp m hm]
  simp only [unpaged, haged, harchived, hdeduplicated, hnone _ h.aging, hnone _ h.archival,
    hnone _ h.removal]

/-! ## What each pass leaves -/

/-- A memory that has just lost a point is not due for losing another. -/
theorem ages_pointLost {window : Int} (hwindow : 0 < window) (hread : now.readable = true)
    (m : Memory) : ages now owner window (pointLost now m) = false := by
  have hsince : now.since now = 0 := Int.sub_self _
  have hwithin : ¬window ≤ 0 := by omega
  simp [ages, pointLost, Memory.readAt, Option.filter, hread, hsince, hwithin]

theorem archives_laidAside (minAge threshold : Int) (m : Memory) :
    archives now owner minAge threshold (laidAside now m) = false := by
  simp [archives, subject, laidAside]

theorem ages_laidAside (window : Int) (m : Memory) :
    ages now owner window (laidAside now m) = false := by
  simp [ages, subject, laidAside]

theorem ages_agedStore (hwindow : 0 < c.agingWindowDays)
    (hread : now.readable = true ∨ s.memories.countP
      (ages now owner (c.agingWindowDays * Instant.millisPerDay)) = 0) :
    ∀ m ∈ (agedStore c now owner s).memories,
      ages now owner (c.agingWindowDays * Instant.millisPerDay) m = false := by
  have hspan : 0 < c.agingWindowDays * Instant.millisPerDay := Int.mul_pos hwindow (by decide)
  intro m hm
  rw [agedStore, Store.memories_modifyWhere] at hm
  obtain ⟨k, hk, rfl⟩ := List.mem_map.mp hm
  split
  · next hages =>
    rcases hread with hread | hnone
    · exact ages_pointLost hspan hread k
    · exact absurd hages (List.countP_eq_zero.mp hnone k hk)
  · next hages => exact Bool.eq_false_iff.mpr hages

/-- Archival archives all that it is due for, and makes no memory due for aging. -/
theorem archivedStore_settles
    (haging : ∀ m ∈ s.memories,
      ages now owner (c.agingWindowDays * Instant.millisPerDay) m = false) :
    ∀ m ∈ (archivedStore c now owner s).memories,
      ages now owner (c.agingWindowDays * Instant.millisPerDay) m = false ∧
      archives now owner (c.archiveAgeDays * Instant.millisPerDay) c.archiveImportanceBelow m =
        false := by
  intro m hm
  rw [archivedStore, Store.memories_modifyWhere] at hm
  obtain ⟨k, hk, rfl⟩ := List.mem_map.mp hm
  split
  · exact ⟨ages_laidAside _ k, archives_laidAside _ _ k⟩
  · next harchives => exact ⟨haging k hk, Bool.eq_false_iff.mpr harchives⟩

/-- What the duplicate pass leaves was there before and was not outranked; only its parent may be
gone. -/
theorem mem_deduplicatedStore {m : Memory}
    (hm : m ∈ (deduplicatedStore now owner s).memories) : ∃ k ∈ s.memories, ∃ parent,
      m = { k with parent } ∧ outranked now owner s.memories k = false := by
  rw [deduplicatedStore, Store.memories_removeAll] at hm
  obtain ⟨k, hk, rfl⟩ := List.mem_map.mp hm
  obtain ⟨hk, hkept⟩ := List.mem_filter.mp hk
  refine ⟨k, hk, _, rfl, Bool.eq_false_iff.mpr fun houtranked => ?_⟩
  exact of_decide_eq_true hkept (List.mem_map_of_mem (List.mem_filter.mpr ⟨hk, houtranked⟩))

/-- Removing memories leaves nobody outranked who was not outranked before. -/
theorem outranked_deduplicatedStore {m : Memory}
    (hm : m ∈ (deduplicatedStore now owner s).memories) :
    outranked now owner (deduplicatedStore now owner s).memories m = false := by
  obtain ⟨k, hk, parent, rfl, hfirst⟩ := mem_deduplicatedStore hm
  refine Bool.eq_false_iff.mpr fun hagain => ?_
  simp only [outranked, Bool.and_eq_true, List.any_eq_true] at hagain
  obtain ⟨hsubject, j, hj, hgreater⟩ := hagain
  obtain ⟨i, hi, parent', rfl, -⟩ := mem_deduplicatedStore hj
  have houtranked : outranked now owner s.memories k = true := by
    simp only [outranked, Bool.and_eq_true, List.any_eq_true]
    exact ⟨hsubject, i, hi, hgreater⟩
  exact Bool.false_ne_true (hfirst.symm.trans houtranked)

/-- A run leaves a settled store, if it wrote no stamp that cannot be read back. -/
theorem settled_unpaged (hwindow : 0 < c.agingWindowDays)
    (hread : now.readable = true ∨ (unpaged c now owner s).1.aged = 0) :
    Settled c now owner (unpaged c now owner s).2 := by
  have hages := ages_agedStore hwindow hread
  have hsettles := archivedStore_settles (c := c) hages
  refine ⟨?_, ?_, fun m hm => outranked_deduplicatedStore hm⟩
  · intro m hm
    obtain ⟨k, hk, parent, rfl, -⟩ := mem_deduplicatedStore hm
    exact (hsettles k hk).1
  · intro m hm
    obtain ⟨k, hk, parent, rfl, -⟩ := mem_deduplicatedStore hm
    exact (hsettles k hk).2

end Lifecycle

/-! ## Runs that are not stopped -/

namespace Engine

variable {e : Engine} {clock now : Instant} {owner : String} {deadline : Deadline} {s s' : Store}

/-- A walk that was not stopped has read a page. -/
theorem size_of_walk {α : Type} {size : Nat} (hsize : size < 2 ^ 64)
    {step : List Memory → α × Store → Except Error (α × Store)} {state : α × Store}
    {p : Passed (α × Store)} (h : walk clock owner size step deadline state = .ok p)
    (hgoes : p.aborted = false) : size < 2 ^ 63 := by
  unfold walk walkPages at h
  split at h
  · cases h
    cases hgoes
  · obtain ⟨page, hpage, -⟩ := bind_eq_ok.mp h
    exact size_of_activePage hsize hpage

theorem days_of_window {days w : Int} (hpos : 0 < days) (h : window days = .ok w) :
    days ≤ Instant.maxDays :=
  (worksWhen_window hpos).holds h

/-- A run that was not stopped went through all three passes. -/
theorem lifecycleAt_goes {report : LifecycleReport}
    (h : e.lifecycleAt clock now owner deadline s = .ok (report, s'))
    (hgoes : report.aborted = false) : ∃ aging archival,
      e.agePass clock now owner deadline s = .ok aging ∧ aging.aborted = false ∧
      e.archivePass clock now owner aging.deadline aging.result.2 = .ok archival := by
  obtain ⟨aging, haging, h⟩ := bind_eq_ok.mp h
  dsimp only at h
  split at h
  · cases h
    cases hgoes
  · next haborted =>
    obtain ⟨archival, harchival, -⟩ := bind_eq_ok.mp h
    exact ⟨aging, archival, haging, Bool.eq_false_iff.mpr haborted, harchival⟩

/-- Where a run goes to its end, its windows and the size of its pages are in range. -/
theorem runnable_of_lifecycleAt {report : LifecycleReport} (hc : e.config.Checked)
    (hsize : e.config.lifecycle.pageSize < 2 ^ 64)
    (h : e.lifecycleAt clock now owner deadline s = .ok (report, s'))
    (hgoes : report.aborted = false) : e.config.lifecycle.Runnable := by
  obtain ⟨aging, archival, haging, hgoes, harchival⟩ := lifecycleAt_goes h hgoes
  obtain ⟨_, hagingWindow, hwalk⟩ := bind_eq_ok.mp haging
  obtain ⟨_, harchiveWindow, -⟩ := bind_eq_ok.mp harchival
  obtain ⟨hagingDays, harchiveDays⟩ := hc.lifecycleWindows
  exact ⟨⟨hagingDays, days_of_window hagingDays hagingWindow⟩,
    ⟨harchiveDays, days_of_window harchiveDays harchiveWindow⟩,
    ⟨hc.lifecyclePageSize, size_of_walk hsize hwalk hgoes⟩⟩

open Lifecycle

/-- Without a deadline a run always comes to its end. -/
theorem lifecycle_of_runnable (hs : s.Sound) (howner : Text.blank owner = false)
    (hc : e.config.lifecycle.Runnable) :
    e.lifecycle now owner s = .ok (unpaged e.config.lifecycle now owner s) := by
  obtain ⟨report, s', hrun, heffect, hnever⟩ := lifecycleAt_spec hs howner hc now .never
  rw [lifecycle, Invalid.raise_checkOwner howner, ← heffect (hnever rfl)]
  exact hrun

/-- A deadline that did not stop a run has changed nothing. -/
theorem lifecycle_of_lifecycleAt (hs : s.Sound) (howner : Text.blank owner = false)
    (hc : e.config.Checked) (hsize : e.config.lifecycle.pageSize < 2 ^ 64)
    {report : LifecycleReport}
    (h : e.lifecycleAt now now owner deadline s = .ok (report, s'))
    (hgoes : report.aborted = false) : e.lifecycle now owner s = .ok (report, s') := by
  have hrunnable := runnable_of_lifecycleAt hc hsize h hgoes
  obtain ⟨_, _, hrun, heffect, -⟩ := lifecycleAt_spec hs howner hrunnable now deadline
  cases h.symm.trans hrun
  rw [lifecycle_of_runnable hs howner hrunnable, ← heffect hgoes]

end Engine

namespace World

open Lifecycle

/-- A lifecycle run that was not stopped, repeated with nothing in between, finds nothing to do and
leaves the store as it is, unless it aged memories at an instant that is not read back. -/
theorem lifecycle_idempotent {p : Engine → Prop} {w : World} (hw : w.Reached p) {c : Config}
    {e : Engine} (he : Engine.ofConfig c = .ok e) (hsize : c.lifecycle.pageSize < 2 ^ 64)
    {owner : String} (howner : Text.blank owner = false) {now : Instant} {deadline : Deadline}
    {report : LifecycleReport} {s' : Store}
    (hrun : e.lifecycleAt now now owner deadline w.store = .ok (report, s'))
    (hgoes : report.aborted = false) (hread : now.readable = true ∨ report.aged = 0) :
    e.lifecycle now owner s' = .ok ({}, s') ∧
      ∀ deadline', ∃ report' s'',
        e.lifecycleAt now now owner deadline' s' = .ok (report', s'') ∧
        (report'.aborted = false → report' = {} ∧ s'' = s') := by
  obtain ⟨hchecked, rfl⟩ := Engine.ofConfig_eq_ok.mp he
  have hc := Engine.runnable_of_lifecycleAt hchecked hsize hrun hgoes
  have hs' : s'.Sound := hw.sound.writes (Engine.writes_lifecycleAt (v := .ofList []) hrun)
  obtain ⟨_, _, hfirst, heffect, -⟩ := Engine.lifecycleAt_spec hw.sound howner hc now deadline
  cases hrun.symm.trans hfirst
  obtain ⟨rfl, rfl⟩ := Prod.mk.inj (heffect hgoes)
  have hsettled := settled_unpaged hc.agingWindow.1 hread
  refine ⟨?_, fun deadline' => ?_⟩
  · rw [Engine.lifecycle_of_runnable hs' howner hc]
    exact congrArg Except.ok hsettled.unpaged_eq
  · obtain ⟨report', s'', hagain, heffect', -⟩ :=
      Engine.lifecycleAt_spec hs' howner hc now deadline'
    exact ⟨report', s'', hagain, fun hgoes' =>
      Prod.mk.inj ((heffect' hgoes').trans hsettled.unpaged_eq)⟩

theorem lifecycle_idempotent_fortyDays : ∃ s',
    Engine.oneTag.lifecycle fortyDays "ann" (withTea ⟨0⟩ 5).store = .ok ({ aged := 1 }, s') ∧
      Engine.oneTag.lifecycle fortyDays "ann" s' = .ok ({}, s') := by
  have howner : Text.blank "ann" = false := by decide
  have hreached := reached_withTea ⟨0⟩ 5
  have hreport : (unpaged {} fortyDays "ann" (withTea ⟨0⟩ 5).store).1 = { aged := 1 } := by
    decide
  obtain ⟨report, s', hrun, heffect, hnever⟩ :=
    Engine.lifecycleAt_spec (e := .oneTag) hreached.sound howner runnable_default fortyDays .never
  have hgoes := hnever rfl
  obtain ⟨hagain, -⟩ := lifecycle_idempotent hreached Engine.ofConfig_oneTag (by decide) howner
    hrun hgoes (.inl (by decide))
  refine ⟨s', ?_, hagain⟩
  rw [Engine.lifecycle_of_runnable hreached.sound howner runnable_default, ← hreport]
  exact congrArg (fun s => Except.ok (_, s)) (Prod.mk.inj (heffect hgoes)).2.symm

/-! ## An instant that is not read back -/

/-- The first instant of the year 10000. -/
def year10000 : Instant := ⟨253402300800000⟩

/-- What a run with the default settings leaves of a store. -/
def leftAt (now : Instant) (s : Store) : Store := (unpaged {} now "ann" s).2

/-- In the year 10000 a memory loses a point in each of two runs at one instant. -/
theorem aged_twice_at_once : ∃ (e : Engine) (w : World) (s₁ s₂ : Store),
    Engine.ofConfig .oneTag = .ok e ∧ w.Reached (· = e) ∧ Text.blank "ann" = false ∧
    e.lifecycle year10000 "ann" w.store = .ok ({ aged := 1 }, s₁) ∧
    e.lifecycle year10000 "ann" s₁ = .ok ({ aged := 1 }, s₂) ∧
    s₁.memories.map (·.importance) = [4] ∧ s₂.memories.map (·.importance) = [3] := by
  have howner : Text.blank "ann" = false := by decide
  have hruns : ∀ s : Store, s.Sound → (unpaged {} year10000 "ann" s).1 = { aged := 1 } →
      Engine.oneTag.lifecycle year10000 "ann" s = .ok ({ aged := 1 }, leftAt year10000 s) := by
    intro s hs hreport
    rw [Engine.lifecycle_of_runnable hs howner runnable_default, ← hreport]
    rfl
  have hs := (reached_withTea ⟨0⟩ 5).sound
  have hfirst := hruns _ hs (by decide)
  obtain ⟨_, -, hrun⟩ := bind_eq_ok.mp hfirst
  have hs₁ := hs.writes (Engine.writes_lifecycleAt (v := .ofList []) hrun)
  have hsecond := hruns _ hs₁ (by decide)
  exact ⟨.oneTag, withTea ⟨0⟩ 5, _, _, rfl, reached_withTea ⟨0⟩ 5, howner, hfirst, hsecond,
    by decide, by decide⟩

end World

end LongTermMemory
