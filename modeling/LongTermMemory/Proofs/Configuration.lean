import LongTermMemory.Engine
import LongTermMemory.Proofs.Outcome

/-!
Checked configurations: an engine is made of a configuration exactly when it has what the check
asks for.
-/

namespace LongTermMemory

namespace Config

/-- What is asked of a configuration before an engine is made of it. -/
structure Checked (c : Config) : Prop where
  vocabulary : c.vocabulary ≠ []
  thresholds : c.consolidation.tagThreshold.inUnit = true ∧
    c.consolidation.contentThreshold.inUnit = true
  consolidationSizes : 0 < c.consolidation.pageSize ∧ 0 < c.consolidation.maxItemsPerType
  lifecyclePageSize : 0 < c.lifecycle.pageSize
  lifecycleWindows : 0 < c.lifecycle.agingWindowDays ∧ 0 < c.lifecycle.archiveAgeDays
  weights : c.retrieval.tagWeight.inUnit = true ∧ c.retrieval.contentWeight.inUnit = true ∧
    c.retrieval.importanceWeight.inUnit = true ∧ c.retrieval.recencyWeight.inUnit = true
  candidatePool : 0 < c.retrieval.candidatePoolSize
  recencyValues : ∀ b ∈ c.retrieval.recencyBuckets, b.value.inUnit = true
  explicitConfidence : c.learning.explicitConfidence.inUnit = true
  learnedImportance : c.learning.minLearnedImportance ≤ c.learning.maxLearnedImportance

@[simp] theorem require_eq_ok {p : Bool} {cause : Misconfigured} {u : Unit} :
    require p cause = .ok u ↔ p = true := by
  cases p <;> simp [require]

theorem check_eq_ok {c : Config} {u : Unit} : c.check = .ok u ↔ c.Checked := by
  simp only [check, requireUnit, bind_eq_ok, forM_eq_ok, require_eq_ok, exists_const,
    Bool.and_eq_true, decide_eq_true_eq, Bool.not_eq_true', List.isEmpty_eq_false_iff]
  constructor
  · rintro ⟨hvocabulary, htag, hcontent, hsizes, hpage, hwindows, hw₁, hw₂, hw₃, hw₄, hpool,
      hvalues, hconfidence, hlearned⟩
    exact ⟨hvocabulary, ⟨htag, hcontent⟩, hsizes, hpage, hwindows, ⟨hw₁, hw₂, hw₃, hw₄⟩, hpool,
      hvalues, hconfidence, hlearned⟩
  · intro h
    obtain ⟨hw₁, hw₂, hw₃, hw₄⟩ := h.weights
    exact ⟨h.vocabulary, h.thresholds.1, h.thresholds.2, h.consolidationSizes, h.lifecyclePageSize,
      h.lifecycleWindows, hw₁, hw₂, hw₃, hw₄, h.candidatePool, h.recencyValues,
      h.explicitConfidence, h.learnedImportance⟩

end Config

theorem Engine.ofConfig_eq_ok {c : Config} {e : Engine} :
    ofConfig c = .ok e ↔ c.Checked ∧ e = ofUnchecked c := by
  have hvalidate : c.validate = .ok () ↔ c.Checked := by
    have hcheck : c.validate = .ok () ↔ c.check = .ok () := by
      unfold Config.validate
      cases c.check <;> simp
    exact hcheck.trans Config.check_eq_ok
  rw [ofConfig, bind_eq_ok]
  constructor
  · rintro ⟨_, hchecked, he⟩
    exact ⟨hvalidate.mp hchecked, (Except.ok.inj he).symm⟩
  · rintro ⟨hchecked, rfl⟩
    exact ⟨(), hvalidate.mpr hchecked, rfl⟩

end LongTermMemory
