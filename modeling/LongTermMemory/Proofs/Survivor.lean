import LongTermMemory.Engine.Lifecycle
import LongTermMemory.Proofs.Distinct
import LongTermMemory.Proofs.Page

/-!
Duplicates: of memories with one content the greatest by importance, creation and id survives, and
each of the others is outranked by it.
-/

namespace LongTermMemory.Lifecycle

theorem outranks_iff {a b : Memory} : outranks a b = true ↔
    b.importance < a.importance ∨ b.importance = a.importance ∧
      (b.createdAt.millis < a.createdAt.millis ∨
        b.createdAt.millis = a.createdAt.millis ∧ b.id < a.id) := by
  have hlt : b.createdAt < a.createdAt ↔ b.createdAt.millis < a.createdAt.millis := Iff.rfl
  have heq : b.createdAt = a.createdAt ↔ b.createdAt.millis = a.createdAt.millis := by
    cases a.createdAt
    cases b.createdAt
    simp
  simp [outranks, hlt, heq]

/-- The order of ranks is total on memories with different ids. -/
theorem outranks_of_not {a b : Memory} (h : outranks a b = false) (hid : a.id ≠ b.id) :
    outranks b a = true := by
  rw [Bool.eq_false_iff, ne_eq, outranks_iff] at h
  rw [outranks_iff]
  dsimp only [MemoryId] at *
  omega

theorem not_outranks_trans {a b c : Memory} (hab : outranks a b = false)
    (hbc : outranks b c = false) : outranks a c = false := by
  rw [Bool.eq_false_iff, ne_eq, outranks_iff] at *
  dsimp only [MemoryId] at *
  omega

theorem not_outranks_of_outranks {a b : Memory} (h : outranks a b = true) :
    outranks b a = false := by
  rw [outranks_iff] at h
  rw [Bool.eq_false_iff, ne_eq, outranks_iff]
  dsimp only [MemoryId] at *
  omega

/-- The survivor is one of the memories, and none of them outranks it. -/
theorem survivor_spec (first : Memory) (rest : List Memory) :
    survivor first rest ∈ first :: rest ∧
      ∀ m ∈ first :: rest, outranks m (survivor first rest) = false := by
  unfold survivor
  induction rest generalizing first with
  | nil =>
    refine ⟨by simp, fun m hm => ?_⟩
    rw [List.mem_singleton.mp hm, Bool.eq_false_iff, ne_eq, outranks_iff]
    simp
  | cons k rest ih =>
    rw [List.foldl_cons]
    by_cases hk : outranks k first = true
    · rw [if_pos hk]
      obtain ⟨hmem, hgreatest⟩ := ih k
      refine ⟨List.mem_cons_of_mem _ hmem, fun m hm => ?_⟩
      rcases List.mem_cons.mp hm with rfl | hm
      · exact not_outranks_trans (not_outranks_of_outranks hk) (hgreatest k (by simp))
      · exact hgreatest m hm
    · rw [if_neg hk]
      obtain ⟨hmem, hgreatest⟩ := ih first
      refine ⟨?_, fun m hm => ?_⟩
      · rcases List.mem_cons.mp hmem with heq | hmem
        · simp [heq]
        · simp [hmem]
      · rcases List.mem_cons.mp hm with rfl | hm
        · exact hgreatest m (by simp)
        · rcases List.mem_cons.mp hm with rfl | hm
          · exact not_outranks_trans (by simpa using hk) (hgreatest first (by simp))
          · exact hgreatest m (by simp [hm])

/-- All of some memories but the survivor. -/
def losers : List Memory → List Memory
  | [] => []
  | m :: ms => (m :: ms).filter fun x => x.id ≠ (survivor m ms).id

/-- The losers are the memories that another one outranks. -/
theorem mem_losers {group : List Memory} (h : ById group) {m : Memory} :
    m ∈ losers group ↔ m ∈ group ∧ ∃ k ∈ group, outranks k m = true := by
  cases group with
  | nil => simp [losers]
  | cons first rest =>
    obtain ⟨hmem, hgreatest⟩ := survivor_spec first rest
    unfold losers
    rw [List.mem_filter, decide_eq_true_eq]
    refine and_congr_right fun hm => ⟨fun hne => ?_, ?_⟩
    · exact ⟨_, hmem, outranks_of_not (hgreatest m hm) hne⟩
    · rintro ⟨k, hk, hout⟩ hid
      rw [h.inj hm hmem hid, hgreatest k hk] at hout
      cases hout

theorem losers_sublist (group : List Memory) : (losers group).Sublist group := by
  cases group with
  | nil => exact .slnil
  | cons m ms => exact List.filter_sublist

/-- The sets of duplicates are the memories of one content each, where there are several. -/
theorem mem_duplicates {ms group : List Memory} : group ∈ duplicates ms ↔
    1 < group.length ∧ ∃ k ∈ ms, group = ms.filter fun m => m.content = k.content := by
  simp only [duplicates, List.mem_filter, List.mem_map, List.mem_eraseDups, decide_eq_true_eq]
  constructor
  · rintro ⟨⟨content, ⟨k, hk, rfl⟩, rfl⟩, hlength⟩
    exact ⟨hlength, k, hk, rfl⟩
  · rintro ⟨hlength, k, hk, rfl⟩
    exact ⟨⟨k.content, ⟨k, hk, rfl⟩, rfl⟩, hlength⟩

/-- All duplicates that do not survive. -/
def allLosers (ms : List Memory) : List Memory := (duplicates ms).flatMap losers

theorem mem_allLosers {ms : List Memory} (h : ById ms) {m : Memory} :
    m ∈ allLosers ms ↔
      m ∈ ms ∧ ∃ k ∈ ms, k.content = m.content ∧ outranks k m = true := by
  have hgroup (k : Memory) : ById (ms.filter fun m => m.content = k.content) :=
    h.sublist (List.filter_sublist.map _)
  simp only [allLosers, List.mem_flatMap, mem_duplicates]
  constructor
  · rintro ⟨group, ⟨-, k, hk, rfl⟩, hm⟩
    obtain ⟨hm, l, hl, hout⟩ := (mem_losers (hgroup k)).mp hm
    simp only [List.mem_filter, decide_eq_true_eq] at hm hl
    exact ⟨hm.1, l, hl.1, hl.2.trans hm.2.symm, hout⟩
  · rintro ⟨hm, k, hk, hcontent, hout⟩
    have hmg : m ∈ ms.filter fun x => x.content = m.content := by simp [hm]
    have hkg : k ∈ ms.filter fun x => x.content = m.content := by simp [hk, hcontent]
    refine ⟨_, ⟨?_, m, hm, rfl⟩, (mem_losers (hgroup m)).mpr ⟨hmg, k, hkg, hout⟩⟩
    -- the memory and the one that outranks it are two
    have hne : k ≠ m := by
      rintro rfl
      rw [not_outranks_of_outranks hout] at hout
      cases hout
    generalize (ms.filter fun x => x.content = m.content) = group at hmg hkg
    match group, hmg, hkg with
    | [x], hmg, hkg =>
      exact absurd ((List.mem_singleton.mp hkg).trans (List.mem_singleton.mp hmg).symm) hne
    | x :: y :: rest, _, _ => simp

theorem nodup_allLosers {ms : List Memory} (h : ById ms) : (allLosers ms).Nodup := by
  have hnodup : ms.Nodup := h.nodup_ids.of_map
  refine List.nodup_flatMap.mpr ⟨fun group hgroup => ?_, ?_⟩
  · obtain ⟨-, k, -, rfl⟩ := mem_duplicates.mp hgroup
    exact (hnodup.filter _).sublist (losers_sublist _)
  · have hcontents : (ms.map (·.content)).eraseDups.Pairwise (· ≠ ·) := nodup_eraseDups _
    refine List.Pairwise.filter _ (List.pairwise_map.mpr (hcontents.imp fun {a b} hne => ?_))
    intro m ha hb
    have ha := (losers_sublist _).subset ha
    have hb := (losers_sublist _).subset hb
    simp only [List.mem_filter, decide_eq_true_eq] at ha hb
    exact hne (ha.2.symm.trans hb.2)

end LongTermMemory.Lifecycle
