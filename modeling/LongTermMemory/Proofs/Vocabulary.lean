import LongTermMemory.Proofs.Ascending
import LongTermMemory.Proofs.Text.Lower
import LongTermMemory.Vocabulary

/-!
Tags in normal form: they hold no capitals of ASCII, normalizing them again changes nothing, and
what `validate` lets pass is a strictly ascending list of tags of the vocabulary, not empty.
-/

namespace LongTermMemory

@[simp] theorem normalizeTag_normalizeTag (t : String) :
    normalizeTag (normalizeTag t) = normalizeTag t := by
  unfold normalizeTag
  rw [Text.trim_lowercase (Text.trim_trim t), Text.lowercase_lowercase]

namespace Vocabulary

theorem pairwise_normalForms (tags : List String) : (normalForms tags).Pairwise (· < ·) :=
  Ascending.pairwise_ofList _

theorem mem_normalForms (t : String) (tags : List String) :
    t ∈ normalForms tags ↔ t ≠ "" ∧ ∃ u ∈ tags, normalizeTag u = t := by
  simp [normalForms, and_comm]

theorem validate_eq_ok {v : Vocabulary} {tags ts : List String} :
    v.validate tags = .ok ts ↔ ts = normalForms tags ∧ ts ≠ [] ∧ ∀ t ∈ ts, t ∈ v.tags := by
  unfold validate
  dsimp only
  constructor
  · intro h
    split at h
    · cases h
    · next hne =>
      split at h
      · next hunknown =>
        cases h
        exact ⟨rfl, by simpa using hne, by simpa using hunknown⟩
      · cases h
  · rintro ⟨rfl, hne, hknown⟩
    rw [if_neg (by simpa using hne), if_pos (by simpa using hknown)]

/-- Checked tags are a strictly ascending list of tags of the vocabulary, not empty. -/
theorem validate_ok {v : Vocabulary} {tags ts : List String} (h : v.validate tags = .ok ts) :
    ts ≠ [] ∧ ts.Pairwise (· < ·) ∧ ∀ t ∈ ts, t ∈ v.tags := by
  obtain ⟨rfl, hne, hknown⟩ := validate_eq_ok.mp h
  exact ⟨hne, pairwise_normalForms tags, hknown⟩

/-- The tags of a vocabulary are normal forms. -/
theorem normal_of_mem_ofList {l : List String} {t : String} (h : t ∈ (ofList l).tags) :
    t ≠ "" ∧ normalizeTag t = t := by
  obtain ⟨hne, u, -, rfl⟩ := (mem_normalForms t l).mp h
  exact ⟨hne, normalizeTag_normalizeTag u⟩

theorem mem_normalForms_of_normal {tags : List String}
    (h : ∀ t ∈ tags, t ≠ "" ∧ normalizeTag t = t) (t : String) :
    t ∈ normalForms tags ↔ t ∈ tags := by
  rw [mem_normalForms]
  constructor
  · rintro ⟨-, u, hu, rfl⟩
    rwa [(h u hu).2]
  · intro ht
    exact ⟨(h t ht).1, t, ht, (h t ht).2⟩

/-- Ascending tags in normal form are their own normal forms. -/
theorem normalForms_eq_self {tags : List String} (h : ∀ t ∈ tags, t ≠ "" ∧ normalizeTag t = t)
    (hascending : tags.Pairwise (· < ·)) : normalForms tags = tags :=
  Ascending.eq_of_mem_iff (pairwise_normalForms tags) hascending (mem_normalForms_of_normal h)

/-- Tags in normal form pass just when there is one and all are in the vocabulary. -/
theorem exists_validate_eq_ok {v : Vocabulary} {tags : List String}
    (h : ∀ t ∈ tags, t ≠ "" ∧ normalizeTag t = t) :
    (∃ ts, v.validate tags = .ok ts) ↔ tags ≠ [] ∧ ∀ t ∈ tags, t ∈ v.tags := by
  have hsame := mem_normalForms_of_normal h
  have hempty : normalForms tags = [] ↔ tags = [] := by
    simp only [List.eq_nil_iff_forall_not_mem, hsame]
  simp only [validate_eq_ok, exists_eq_left, ne_eq, hempty, hsame]

theorem mem_filter {v : Vocabulary} {tags : List String} {t : String} :
    t ∈ v.filter tags ↔ t ∈ v.tags ∧ ∃ u ∈ tags, normalizeTag u = t := by
  simp [filter, and_comm]

/-- A tag of a vocabulary made from texts without NUL is plain. -/
theorem plain_of_mem_ofList {l : List String} {t : String} (ht : t ∈ (ofList l).tags)
    (hnul : ∀ c ∈ t.toList, c.toNat ≠ 0) : Text.NoCase.Plain t := by
  obtain ⟨-, u, -, rfl⟩ := (mem_normalForms t l).mp ht
  intro c hc
  exact ⟨hnul c hc, Text.lowercase_not_capital _ c hc⟩

end Vocabulary

end LongTermMemory
