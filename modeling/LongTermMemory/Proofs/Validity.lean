import LongTermMemory.Proofs.Operations
import LongTermMemory.Proofs.Ranking
import LongTermMemory.Proofs.Store.Tags

/-!
Validity: under one configuration every memory kept is what the checks of requests ask for, on
whichever path it came to the store. Tags stand in the order of names, which ends at a NUL; it is
the order of bytes when no tag of the vocabulary has a NUL.
-/

namespace LongTermMemory

/-- What holds of every memory kept under one vocabulary. -/
structure Memory.Valid (v : Vocabulary) (m : Memory) : Prop extends Memory.Sound m where
  tags : v.Keeps m.tags
  tagsInByteOrder : (∀ t ∈ v.tags, ∀ c ∈ t.toList, c.toNat ≠ 0) → m.tags.Pairwise (· < ·)

/-- What holds of every store kept under one vocabulary. -/
structure Store.Valid (v : Vocabulary) (s : Store) : Prop where
  memories : ∀ m ∈ s.memories, m.Valid v
  contexts : ∀ c ∈ s.contexts, c.confidence.inUnit = true
  relationships : ∀ r ∈ s.relationships, r.strength.inUnit = true

/-- The part of validity that depends on the vocabulary, with the names that later tags will be
spelled by. -/
structure Store.Tagged (v : Vocabulary) (s : Store) : Prop where
  memories : ∀ m ∈ s.memories, v.Keeps m.tags
  names : v.Spells s.tagNames

namespace Store

variable {v : Vocabulary} {s : Store}

theorem tagged_empty : empty.Tagged v :=
  ⟨by simp [empty, Store.memories], ⟨by simp [empty], by simp [empty]⟩⟩

namespace Tagged

variable (h : s.Tagged v)
include h

/-- A change of one memory that keeps its tags, or gives it others fit to be kept. -/
theorem edit {s' : Store} {id : MemoryId} {f : Memory → Memory}
    (hm : s'.memories = s.memories.map (·.editAt id f))
    (htags : ∀ m, v.Keeps m.tags → v.Keeps (f m).tags) (hn : v.Spells s'.tagNames) :
    s'.Tagged v := by
  refine ⟨?_, hn⟩
  intro m' hm'
  obtain ⟨m, hmem, rfl⟩ := List.mem_map.mp (hm ▸ hm')
  unfold Memory.editAt
  split
  · exact htags m (h.memories m hmem)
  · exact h.memories m hmem

theorem withChanges {now : Instant} {id : MemoryId} {c : Changes} (hc : c.Normal v) :
    (s.withChanges now id c).Tagged v := by
  have hchanged : (∀ ts, (s.changedTags c).1 = some ts → v.Keeps ts) ∧
      v.Spells (s.changedTags c).2 := by
    unfold changedTags
    cases ht : c.tags with
    | none => exact ⟨by simp, h.names⟩
    | some ts =>
      obtain ⟨hkeeps, hspells⟩ := keepTags_spec h.names (hc.tags ts ht)
      refine ⟨fun kept hkept => ?_, hspells⟩
      cases hkept
      exact hkeeps
  refine h.edit (memories_withChanges ..) (fun m hm => ?_) hchanged.2
  cases ht : (s.changedTags c).1 with
  | none => exact hm
  | some ts => exact hchanged.1 ts ht

theorem write {s' : Store} (hw : Write v s s') : s'.Tagged v := by
  cases hw with
  | @create now r hr hp =>
    obtain ⟨hkeeps, hspells⟩ := keepTags_spec h.names hr.tags
    refine ⟨?_, by rwa [tagNames_withNewcomer]⟩
    intro m hm
    rw [memories_withNewcomer] at hm
    rcases List.mem_append.mp hm with hm | hm
    · exact h.memories m hm
    · rw [List.mem_singleton.mp hm]
      exact hkeeps
  | update hc => exact h.withChanges hc
  | @remove id =>
    refine ⟨?_, h.names⟩
    intro m' hm'
    rw [memories_remove] at hm'
    obtain ⟨m, hm, rfl⟩ := List.mem_map.mp hm'
    have hkeeps := h.memories m (List.mem_filter.mp hm).1
    unfold Memory.orphanedBy
    split <;> exact hkeeps
  | access => exact h.edit (memories_withAccess ..) (fun _ hm => hm) h.names
  | context => exact ⟨h.memories, h.names⟩
  | relate => exact ⟨h.memories, h.names⟩
  | archive => exact h.edit (memories_modifyMemory ..) (fun _ hm => hm) h.names
  | age => exact h.edit (memories_modifyMemory ..) (fun _ hm => hm) h.names

end Tagged

end Store

namespace World

theorem tagged_of_runs {e : Engine} {clock : Instant} {w : World}
    (h : (start clock).store.Tagged e.vocabulary) (hr : Runs (· = e) (start clock) w) :
    w.store.Tagged e.vocabulary := by
  refine Reached.holds (p := (· = e)) h (fun he _ htagged hwrite => ?_) ⟨clock, hr⟩
  exact htagged.write (he ▸ hwrite)

/-- Whatever operations one engine performs on an empty store, what is kept is valid. -/
theorem reached_store_valid {c : Config} {e : Engine} {w : World} (he : Engine.ofConfig c = .ok e)
    (hw : w.Reached (· = e)) : w.store.Valid e.vocabulary := by
  have hsound := hw.sound
  obtain ⟨clock, hr⟩ := hw
  have htagged : w.store.Tagged e.vocabulary := tagged_of_runs Store.tagged_empty hr
  obtain ⟨_, -, he⟩ := bind_eq_ok.mp he
  cases he
  refine ⟨fun m hm => ?_, hsound.confidences, hsound.strengths⟩
  exact
    { hsound.memories m hm with
      tags := htagged.memories m hm
      tagsInByteOrder := (htagged.memories m hm).pairwise_lt }

/-- One memory, of an owner given with blanks and a tag given with a capital. -/
def afterCreation : World :=
  Engine.oneTag.perform
    (.create { owner := " ann ", content := "tea", importance := 5, tags := ["Food"] }) (start ⟨0⟩)

theorem reached_store_valid_afterCreation :
    afterCreation.store.memories.length = 1 ∧
      afterCreation.store.Valid Engine.oneTag.vocabulary :=
  ⟨rfl, reached_store_valid Engine.ofConfig_oneTag ⟨⟨0⟩, .single ⟨_, _, rfl, rfl⟩⟩⟩

/-! ## Tags with a NUL -/

def nulConfig : Config := { vocabulary := ["a\x00zz", "a\x00bbb"] }

/-- A memory with two tags that are alike up to their NULs. -/
def nulRequest : NewMemory :=
  { owner := "u1"
    content := "x"
    tags := ["a\x00zz", "a\x00bbb"]
    type := some .insight
    category := some "general"
    importance := 5 }

/-- Kept tags need not stand in the order of bytes: of two names alike up to a NUL the shorter one
comes first. -/
theorem tags_out_of_byte_order : ∃ (e : Engine) (w : World), Engine.ofConfig nulConfig = .ok e ∧
    w.Reached (· = e) ∧ ∃ m ∈ w.store.memories,
      m.tags = ["a\x00zz", "a\x00bbb"] ∧ ¬ m.tags.Pairwise (· < ·) := by
  have htags : (((Engine.ofUnchecked nulConfig).perform (.create nulRequest)
      (start ⟨0⟩)).store.memories.map (·.tags)) =
        [["a\x00bbb", "a\x00zz"].mergeSort Text.NoCase.le] := rfl
  rw [mergeSort_pair, if_neg (by decide)] at htags
  refine ⟨_, _, rfl, ⟨⟨0⟩, .single ⟨_, .create nulRequest, rfl, rfl⟩⟩, ?_⟩
  obtain ⟨m, hm, heq⟩ := List.mem_map.mp (htags ▸ List.mem_singleton.mpr rfl)
  exact ⟨m, hm, heq, by rw [heq]; decide⟩

end World

end LongTermMemory
