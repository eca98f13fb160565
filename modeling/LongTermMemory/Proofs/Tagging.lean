import LongTermMemory.Proofs.Text.ByteOrder
import LongTermMemory.Proofs.Text.Recasing
import LongTermMemory.Proofs.Vocabulary

/-!
Checking tags and filtering them. Both know a tag by its normal form alone, so neither tells
spellings of it apart; what passes the check is what the filter keeps, and both leave their own
results as they are.
-/

namespace LongTermMemory

/-! ## Spellings of a tag -/

/-- Two spellings of a tag: blanks around it, or letters in another case. -/
inductive Respelled : String → String → Prop
  | padded (t : String) {a b : String} (ha : Text.blank a = true) (hb : Text.blank b = true) :
    Respelled t (a ++ t ++ b)
  | lowered (t : String) : Respelled t (Text.lowercase t)
  | recased {t u : String} (h : List.Forall₂ Text.Recased t.toList u.toList) : Respelled t u

theorem normalizeTag_eq_empty {t : String} : normalizeTag t = "" ↔ Text.blank t = true := by
  rw [normalizeTag, Text.lowercase_eq_empty, Text.blank, beq_iff_eq]

theorem normalizeTag_lowercase (t : String) :
    normalizeTag (Text.lowercase t) = normalizeTag t := by
  rw [normalizeTag, normalizeTag, ← Text.lowercase_trim, Text.lowercase_lowercase]

theorem Respelled.normalizeTag_eq {t u : String} (h : Respelled t u) :
    normalizeTag u = normalizeTag t := by
  cases h with
  | padded ha hb => rw [normalizeTag, Text.trim_append t ha hb, normalizeTag]
  | lowered => exact normalizeTag_lowercase t
  | recased h =>
    rw [← normalizeTag_lowercase u, ← Text.lowercase_recased h, normalizeTag_lowercase]

theorem map_normalizeTag_of_respelled {tags tags' : List String}
    (h : List.Forall₂ Respelled tags tags') : tags'.map normalizeTag = tags.map normalizeTag := by
  induction h with
  | nil => rfl
  | cons hspelling _ ih => rw [List.map_cons, List.map_cons, hspelling.normalizeTag_eq, ih]

namespace Vocabulary

variable {v : Vocabulary} {l tags tags' ts : List String}

/-! ## What is checked and what is kept -/

theorem contains_iff {t : String} : v.contains t = true ↔ normalizeTag t ∈ v.tags := by
  simp [contains]

theorem forall_mem_normalForms {p : String → Prop} : (∀ s ∈ normalForms tags, p s) ↔
    ∀ t ∈ tags, Text.blank t = false → p (normalizeTag t) := by
  simp only [mem_normalForms, ← Bool.not_eq_true, ← normalizeTag_eq_empty]
  constructor
  · intro h t ht hne
    exact h _ ⟨hne, t, ht, rfl⟩
  · rintro h s ⟨hne, t, ht, rfl⟩
    exact h t ht hne

theorem normalForms_ne_nil : normalForms tags ≠ [] ↔ ∃ t ∈ tags, Text.blank t = false := by
  rw [ne_eq, List.eq_nil_iff_forall_not_mem, forall_mem_normalForms (p := fun _ => False)]
  simp

theorem validate_passes_iff : (∃ ts, v.validate tags = .ok ts) ↔
    (∃ t ∈ tags, Text.blank t = false) ∧
      ∀ t ∈ tags, Text.blank t = false → v.contains t = true := by
  simp only [validate_eq_ok, exists_eq_left, normalForms_ne_nil, forall_mem_normalForms,
    contains_iff]

theorem pairwise_filter : (v.filter tags).Pairwise (· < ·) := Ascending.pairwise_ofList _

theorem mem_filter_iff_contains {s : String} :
    s ∈ v.filter tags ↔ ∃ t ∈ tags, v.contains t = true ∧ normalizeTag t = s := by
  rw [mem_filter]
  constructor
  · rintro ⟨hs, t, ht, rfl⟩
    exact ⟨t, ht, contains_iff.mpr hs, rfl⟩
  · rintro ⟨t, ht, hcontains, rfl⟩
    exact ⟨contains_iff.mp hcontains, t, ht, rfl⟩

/-- Of a vocabulary the filter keeps the normal forms that are in it. -/
theorem filter_ofList (l tags : List String) :
    (ofList l).filter tags = (normalForms tags).filter (ofList l).tags.contains := by
  refine Ascending.eq_of_mem_iff pairwise_filter ((pairwise_normalForms tags).filter _) fun s => ?_
  rw [mem_filter, List.mem_filter, mem_normalForms, List.contains_iff_mem]
  constructor
  · rintro ⟨hs, hspelled⟩
    exact ⟨⟨(normal_of_mem_ofList hs).1, hspelled⟩, hs⟩
  · rintro ⟨⟨-, hspelled⟩, hs⟩
    exact ⟨hs, hspelled⟩

theorem filter_eq_of_validate (h : (ofList l).validate tags = .ok ts) :
    (ofList l).filter tags = ts := by
  obtain ⟨rfl, -, hknown⟩ := validate_eq_ok.mp h
  rw [filter_ofList, List.filter_eq_self]
  exact fun s hs => List.contains_iff_mem.mpr (hknown s hs)

/-! ## Results given back -/

/-- Ascending tags of a vocabulary are their own normal forms, and all of them are kept. -/
theorem fixed_of_known (hascending : ts.Pairwise (· < ·)) (hknown : ∀ t ∈ ts, t ∈ (ofList l).tags) :
    (ofList l).filter ts = ts ∧
      (ofList l).validate ts = if ts = [] then .error .noTags else .ok ts := by
  have hnormal := normalForms_eq_self (fun t ht => normal_of_mem_ofList (hknown t ht)) hascending
  have hall : ∀ t ∈ ts, (ofList l).tags.contains t = true :=
    fun t ht => List.contains_iff_mem.mpr (hknown t ht)
  refine ⟨?_, ?_⟩
  · rw [filter_ofList, hnormal, List.filter_eq_self.mpr hall]
  · split
    · next hnil =>
      rw [hnil]
      rfl
    · next hne => exact validate_eq_ok.mpr ⟨hnormal.symm, hne, hknown⟩

/-! ## Other lists of the same tags -/

theorem normalForms_congr
    (h : ∀ s, s ≠ "" → (s ∈ tags'.map normalizeTag ↔ s ∈ tags.map normalizeTag)) :
    normalForms tags' = normalForms tags := by
  refine Ascending.ofList_congr fun s => ?_
  rw [List.mem_filter, List.mem_filter]
  constructor <;> rintro ⟨hs, hne⟩
  · exact ⟨(h s (of_decide_eq_true hne)).mp hs, hne⟩
  · exact ⟨(h s (of_decide_eq_true hne)).mpr hs, hne⟩

/-- Neither way of handling tags looks at more of them than their normal forms. -/
theorem congr_of_normalForms (h : normalForms tags' = normalForms tags) :
    (ofList l).validate tags' = (ofList l).validate tags ∧
      (ofList l).filter tags' = (ofList l).filter tags := by
  rw [filter_ofList, filter_ofList, validate, validate, h]
  exact ⟨rfl, rfl⟩

/-! ## Refusals -/

theorem validate_eq_error {err : Invalid} (h : v.validate tags = .error err)
    (hne : normalForms tags ≠ []) :
    err = .unknownTags ((normalForms tags).filter fun t => !v.tags.contains t) := by
  unfold validate at h
  dsimp only at h
  rw [if_neg (by simpa using hne)] at h
  split at h
  · cases h
  · cases h
    rfl

theorem mem_unknown {s : String} : s ∈ ((normalForms tags).filter fun t => !v.tags.contains t) ↔
    ∃ t ∈ tags, Text.blank t = false ∧ v.contains t = false ∧ normalizeTag t = s := by
  rw [List.mem_filter, mem_normalForms, Bool.not_eq_true']
  constructor
  · rintro ⟨⟨hne, t, ht, rfl⟩, hunknown⟩
    exact ⟨t, ht, Bool.eq_false_iff.mpr (mt normalizeTag_eq_empty.mpr hne), hunknown, rfl⟩
  · rintro ⟨t, ht, hblank, hunknown, rfl⟩
    exact ⟨⟨mt normalizeTag_eq_empty.mp (Bool.eq_false_iff.mp hblank), t, ht, rfl⟩, hunknown⟩

/-! ## Agreement -/

/-- The strict and the lenient way to handle the same tags. -/
structure Agrees (v : Vocabulary) (tags : List String) : Prop where
  passes : (∃ ts, v.validate tags = .ok ts) ↔ (∃ t ∈ tags, Text.blank t = false) ∧
    ∀ t ∈ tags, Text.blank t = false → v.contains t = true
  same : ∀ ts, v.validate tags = .ok ts → v.filter tags = ts
  ascending : (v.filter tags).Pairwise fun s t => Text.bytes s < Text.bytes t
  kept : ∀ s, s ∈ v.filter tags ↔ ∃ t ∈ tags, v.contains t = true ∧ normalizeTag t = s
  /-- What passed the check is left as it is by both. -/
  checkedAgain : ∀ ts, v.validate tags = .ok ts → v.validate ts = .ok ts ∧ v.filter ts = ts
  /-- So is what was kept, but that the check demands a tag. -/
  filteredAgain : v.filter (v.filter tags) = v.filter tags ∧
    v.validate (v.filter tags) =
      if v.filter tags = [] then .error .noTags else .ok (v.filter tags)
  /-- Other lists of the same normal forms have the same results, blank tags not counting. -/
  sameSet : ∀ tags', (∀ s, s ≠ "" → (s ∈ tags'.map normalizeTag ↔ s ∈ tags.map normalizeTag)) →
    v.validate tags' = v.validate tags ∧ v.filter tags' = v.filter tags
  respelled : ∀ tags', List.Forall₂ Respelled tags tags' →
    v.validate tags' = v.validate tags ∧ v.filter tags' = v.filter tags
  /-- A refusal names all that is outside of the vocabulary. -/
  refused : ∀ err, v.validate tags = .error err → (∃ t ∈ tags, Text.blank t = false) →
    ∃ unknown : List String, err = .unknownTags unknown ∧
      err.message = "unknown tags: " ++ ", ".intercalate unknown ∧
      unknown.Pairwise (fun s t => Text.bytes s < Text.bytes t) ∧
      ∀ s, s ∈ unknown ↔
        ∃ t ∈ tags, Text.blank t = false ∧ v.contains t = false ∧ normalizeTag t = s

/-- Whatever the vocabulary is made of and whatever the tags are, checking and filtering agree. -/
theorem validate_agrees_with_filter (l tags : List String) : (ofList l).Agrees tags where
  passes := validate_passes_iff
  same ts := filter_eq_of_validate
  ascending := pairwise_filter.imp Text.bytes_lt_bytes.mpr
  kept s := mem_filter_iff_contains
  checkedAgain ts h := by
    obtain ⟨hne, hascending, hknown⟩ := validate_ok h
    have hfixed := fixed_of_known hascending hknown
    rw [if_neg hne] at hfixed
    exact hfixed.symm
  filteredAgain := fixed_of_known pairwise_filter fun t ht => (mem_filter.mp ht).1
  sameSet tags' h := congr_of_normalForms (normalForms_congr h)
  respelled tags' h := by
    refine congr_of_normalForms ?_
    rw [normalForms, map_normalizeTag_of_respelled h, normalForms]
  refused err h hsome := by
    have herr := validate_eq_error h (normalForms_ne_nil.mpr hsome)
    refine ⟨_, herr, by rw [herr]; rfl, ((pairwise_normalForms tags).filter _).imp
      Text.bytes_lt_bytes.mpr, fun s => mem_unknown⟩

end Vocabulary

end LongTermMemory
