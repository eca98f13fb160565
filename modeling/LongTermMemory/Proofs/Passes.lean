import LongTermMemory.Proofs.Workable

/-!
Consolidation without its pages and its deadline: a pass that was not stopped has merged the groups
found among the first active memories, one after another, as a pass without a deadline does.
-/

namespace LongTermMemory

namespace Engine

variable {e : Engine} {now : Instant} {owner : String} {s s' : Store}
  {report : ConsolidationReport}

/-! ## Reading -/

/-- For a blank owner nothing is read, and nothing is kept either. -/
theorem result_of_loadActive (hs : s.Sound) (hpos : 0 < e.config.consolidation.pageSize)
    (hsize : e.config.consolidation.pageSize < 2 ^ 64) {deadline : Deadline}
    {p : Passed (List Memory)} (h : e.loadActive now owner deadline s = .ok p)
    (hgoes : p.aborted = false) :
    p.result = (s.activeAt now owner).take e.config.consolidation.maxMemoriesPerPass := by
  cases howner : Text.blank owner with
  | false => exact loadActive_eq hs howner hpos hsize h hgoes
  | true =>
    have hnone : s.activeAt now owner = [] := by
      refine List.eq_nil_iff_forall_not_mem.mpr fun m hm => ?_
      obtain ⟨k, hk, rfl, -⟩ := Store.mem_activeAt_iff.mp hm
      rw [(hs.memories k hk).owner.1] at howner
      cases howner
    rw [hnone, List.take_nil]
    unfold loadActive loadPages at h
    split at h
    · cases h
      cases hgoes
    · dsimp only at h
      split at h
      · cases h
        rfl
      · obtain ⟨page, hpage, -⟩ := bind_eq_ok.mp h
        obtain ⟨_, hcheck, -⟩ := bind_eq_ok.mp hpage
        simp [Invalid.checkOwner, howner] at hcheck

theorem loadPages_never {c : ConsolidationConfig} {fuel : Nat} {after : Option MemoryId}
    {read : List Memory} {p : Passed (List Memory)}
    (h : loadPages c now owner s fuel .never after read = .ok p) :
    p.aborted = false ∧ p.deadline = .never := by
  induction fuel generalizing after read with
  | zero =>
    cases h
    exact ⟨rfl, rfl⟩
  | succ fuel ih =>
    unfold loadPages at h
    simp only [Deadline.check] at h
    split at h
    · cases h
      exact ⟨rfl, rfl⟩
    · obtain ⟨page, -, h⟩ := bind_eq_ok.mp h
      split at h
      · exact ih h
      · cases h
        exact ⟨rfl, rfl⟩

/-! ## Merging -/

theorem aborted_mergeAll_never (groups : List (List Memory)) (report : ConsolidationReport)
    (s : Store) : (e.mergeAll now owner groups .never (report, s)).1.aborted = report.aborted := by
  induction groups generalizing report s with
  | nil => rfl
  | cons group groups ih =>
    unfold mergeAll
    simp only [Deadline.check]
    split <;> exact ih _ _

/-- A deadline that stopped nothing changed nothing. -/
theorem mergeAll_eq_never {groups : List (List Memory)} {deadline : Deadline}
    (hgoes : (e.mergeAll now owner groups deadline (report, s)).1.aborted = false) :
    e.mergeAll now owner groups deadline (report, s) =
      e.mergeAll now owner groups .never (report, s) := by
  induction groups generalizing deadline report s with
  | nil => rfl
  | cons group groups ih =>
    unfold mergeAll
    unfold mergeAll at hgoes
    split at hgoes
    · cases hgoes
    · simp only [Deadline.check]
      split at hgoes <;> exact ih hgoes

/-! ## The pass -/

/-- The pass over the active memories that it reads. -/
def mergeFound (e : Engine) (now : Instant) (owner : String) (s : Store) :
    ConsolidationReport × Store :=
  let groups := e.config.consolidation.findGroups
    ((s.activeAt now owner).take e.config.consolidation.maxMemoriesPerPass)
  e.mergeAll now owner groups .never ({ groupsFound := groups.length }, s)

theorem consolidateBy_eq_mergeFound (hs : s.Sound) (hpos : 0 < e.config.consolidation.pageSize)
    (hsize : e.config.consolidation.pageSize < 2 ^ 64) {deadline : Deadline}
    (h : e.consolidateBy now owner deadline s = .ok (report, s'))
    (hgoes : report.aborted = false) : e.mergeFound now owner s = (report, s') := by
  obtain ⟨read, hread, h⟩ := bind_eq_ok.mp h
  dsimp only at h
  split at h
  · cases h
    cases hgoes
  · next hread' =>
    have hresult := result_of_loadActive hs hpos hsize hread (by simpa using hread')
    have hmerge := Except.ok.inj h
    rw [hresult] at hmerge
    have hunstopped := congrArg (fun r => r.1.aborted) hmerge
    exact (mergeAll_eq_never (hunstopped.trans hgoes)).symm.trans hmerge

theorem aborted_consolidateBy_never (h : e.consolidateBy now owner .never s = .ok (report, s')) :
    report.aborted = false := by
  obtain ⟨read, hread, h⟩ := bind_eq_ok.mp h
  obtain ⟨hgoes, hdeadline⟩ := loadPages_never hread
  dsimp only at h
  rw [hgoes, hdeadline] at h
  have hreport := congrArg (fun r => r.1.aborted) (Except.ok.inj h)
  exact hreport.symm.trans (aborted_mergeAll_never _ _ _)

theorem consolidate_eq_mergeFound (hs : s.Sound) (hpos : 0 < e.config.consolidation.pageSize)
    (hsize : e.config.consolidation.pageSize < 2 ^ 64)
    (h : e.consolidate now owner s = .ok (report, s')) :
    e.mergeFound now owner s = (report, s') := by
  obtain ⟨_, -, h⟩ := bind_eq_ok.mp h
  exact consolidateBy_eq_mergeFound hs hpos hsize h (aborted_consolidateBy_never h)

/-- A read that was not stopped has read a page, if it was to read anything. -/
theorem size_of_loadActive (hsize : e.config.consolidation.pageSize < 2 ^ 64)
    {deadline : Deadline} {p : Passed (List Memory)}
    (h : e.loadActive now owner deadline s = .ok p) (hgoes : p.aborted = false) :
    min e.config.consolidation.pageSize e.config.consolidation.maxMemoriesPerPass < 2 ^ 63 := by
  unfold loadActive loadPages at h
  split at h
  · cases h
    cases hgoes
  · dsimp only at h
    split at h
    · next hnone =>
      have hzero : e.config.consolidation.maxMemoriesPerPass = 0 := Nat.le_zero.mp hnone
      omega
    · obtain ⟨page, hpage, -⟩ := bind_eq_ok.mp h
      exact size_of_activePage (Nat.lt_of_le_of_lt (Nat.min_le_left _ _) hsize) hpage

/-- A deadline that did not stop a pass has changed nothing. -/
theorem consolidate_of_consolidateBy (hs : s.Sound) (howner : Text.blank owner = false)
    (hpos : 0 < e.config.consolidation.pageSize)
    (hsize : e.config.consolidation.pageSize < 2 ^ 64) {deadline : Deadline}
    (h : e.consolidateBy now owner deadline s = .ok (report, s'))
    (hgoes : report.aborted = false) : e.consolidate now owner s = .ok (report, s') := by
  have hmerge := consolidateBy_eq_mergeFound hs hpos hsize h hgoes
  obtain ⟨read, hread, h⟩ := bind_eq_ok.mp h
  dsimp only at h
  split at h
  · cases h
    cases hgoes
  · next hread' =>
    have hsmall := size_of_loadActive hsize hread (by simpa using hread')
    obtain ⟨⟨report', s''⟩, hrun⟩ := (worksWhen_consolidate e howner hsize now s).works hsmall
    have hsame := (consolidate_eq_mergeFound hs hpos hsize hrun).symm.trans hmerge
    exact hrun.trans (congrArg Except.ok hsame)

end Engine

end LongTermMemory
