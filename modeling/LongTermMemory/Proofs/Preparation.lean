import LongTermMemory.Engine
import LongTermMemory.Proofs.Outcome
import LongTermMemory.Proofs.Text.Trim
import LongTermMemory.Proofs.Vocabulary

/-!
Prepared requests: what the engine hands to the store is in normal form, whatever it was given.
-/

namespace LongTermMemory

/-- A text that is not blank and has no blanks at its ends. -/
def Text.Neat (s : String) : Prop := blank s = false ∧ trim s = s

/-- Tags of the vocabulary, at least one, strictly ascending. -/
def Vocabulary.Accepts (v : Vocabulary) (tags : List String) : Prop :=
  tags ≠ [] ∧ tags.Pairwise (· < ·) ∧ ∀ t ∈ tags, t ∈ v.tags

/-- A request for a memory in normal form. -/
structure NewMemory.Normal (v : Vocabulary) (r : NewMemory) : Prop where
  owner : Text.Neat r.owner
  content : Text.blank r.content = false
  tags : v.Accepts r.tags
  category : ∃ c, r.category = some c ∧ Text.Neat c
  importance : 1 ≤ r.importance ∧ r.importance ≤ 10
  confidence : r.confidence.inUnit = true
  contexts : ∀ c ∈ r.contexts, c.confidence.inUnit = true

/-- Changes to a memory in normal form. -/
structure Changes.Normal (v : Vocabulary) (c : Changes) : Prop where
  content : ∀ x, c.content = some x → Text.blank x = false
  tags : ∀ ts, c.tags = some ts → v.Accepts ts
  category : ∀ x, c.category = some x → Text.Neat x
  importance : ∀ i, c.importance = some i → 1 ≤ i ∧ i ≤ 10
  confidence : ∀ x, c.confidence = some x → x.inUnit = true

namespace Text

theorem neat_trim {s : String} (h : blank s = false) : Neat (trim s) :=
  ⟨by rw [blank_trim, h], trim_trim s⟩

end Text

namespace Classifier

theorem foldl_better_mem (tokens : List String) (entries : List (String × List String))
    (best : Option (String × Nat)) (x : String × Nat)
    (h : entries.foldl (better tokens) best = some x) :
    (∃ b, best = some b ∧ b.1 = x.1) ∨ ∃ entry ∈ entries, entry.1 = x.1 := by
  induction entries generalizing best with
  | nil => exact Or.inl ⟨x, h, rfl⟩
  | cons entry entries ih =>
    rcases ih (better tokens best entry) h with ⟨b, hb, hbx⟩ | ⟨f, hf, hfx⟩
    · unfold better at hb
      dsimp only at hb
      split at hb
      · cases hb
        exact Or.inr ⟨entry, by simp, hbx⟩
      · exact Or.inl ⟨b, hb, hbx⟩
    · exact Or.inr ⟨f, by simp [hf], hfx⟩

theorem categories_neat : ∀ c ∈ generalCategory :: categoryKeywords.map (·.1),
    Text.blank c = false ∧ Text.trim c = c := by
  decide

/-- The category of a text is one of the known categories. -/
theorem neat_classifyCategory (content : String) : Text.Neat (classifyCategory content) := by
  refine categories_neat _ ?_
  unfold classifyCategory
  cases hbest : categoryKeywords.foldl (better (Text.tokenSet content)) none with
  | none => exact List.mem_cons_self
  | some x =>
    rcases foldl_better_mem _ _ _ _ hbest with ⟨b, hb, -⟩ | ⟨entry, hentry, hx⟩
    · cases hb
    · exact List.mem_cons_of_mem _ (List.mem_map.mpr ⟨entry, hentry, hx⟩)

end Classifier

theorem NewContext.inUnit_of_check {c : NewContext} {u : Unit} (h : c.check = .ok u) :
    c.confidence.inUnit = true := by
  obtain ⟨_, -, h⟩ := bind_eq_ok.mp h
  exact Invalid.ensure_eq_ok.mp h

theorem NewMemory.check_eq_ok {r : NewMemory} {v : Vocabulary} {tags : List String} :
    r.check v = .ok tags ↔ Text.blank r.owner = false ∧ Text.blank r.content = false ∧
      v.validate r.tags = .ok tags ∧ (1 ≤ r.importance ∧ r.importance ≤ 10) ∧
      r.confidence.inUnit = true ∧ (∀ c, r.category = some c → Text.blank c = false) ∧
      ∀ c ∈ r.contexts, c.check = .ok () := by
  simp only [check, Invalid.checkOwner, Invalid.checkContent, Invalid.checkImportance,
    Invalid.checkUnit, Invalid.checkCategory, bind_eq_ok, forM_eq_ok, Invalid.ensure_eq_ok,
    Invalid.ifPresent_eq_ok, exists_const, Bool.not_eq_true', decide_eq_true_eq]
  constructor
  · rintro ⟨howner, hcontent, ts, htags, himportance, hconfidence, hcategory, hcontexts, heq⟩
    cases heq
    exact ⟨howner, hcontent, htags, himportance, hconfidence, hcategory, hcontexts⟩
  · rintro ⟨howner, hcontent, htags, himportance, hconfidence, hcategory, hcontexts⟩
    exact ⟨howner, hcontent, tags, htags, himportance, hconfidence, hcategory, hcontexts, rfl⟩

theorem NewRelationship.check_eq_ok {r : NewRelationship} {u : Unit} (h : r.check = .ok u) :
    r.source ≠ r.target ∧ r.strength.inUnit = true := by
  obtain ⟨_, hne, h⟩ := bind_eq_ok.mp h
  exact ⟨of_decide_eq_true (Invalid.ensure_eq_ok.mp hne), Invalid.ensure_eq_ok.mp h⟩

/-- Changes in normal form. -/
def Changes.normalized (c : Changes) : Changes :=
  { c with tags := c.tags.map Vocabulary.normalForms, category := c.category.map Text.trim }

theorem Changes.check_eq_ok {c : Changes} {v : Vocabulary} {tags : Option (List String)}
    (h : c.check v = .ok tags) :
    tags = c.tags.map Vocabulary.normalForms ∧ (∀ ts, tags = some ts → v.Accepts ts) ∧
      Invalid.ifPresent Invalid.checkContent c.content = .ok () ∧
      Invalid.ifPresent Invalid.checkImportance c.importance = .ok () ∧
      Invalid.ifPresent (Invalid.checkUnit "confidence_score") c.confidence = .ok () ∧
      Invalid.ifPresent Invalid.checkCategory c.category = .ok () := by
  obtain ⟨_, hcontent, h⟩ := bind_eq_ok.mp h
  have hrest : ∃ ts, (ts = c.tags.map Vocabulary.normalForms ∧
      ∀ valid, ts = some valid → v.Accepts valid) ∧
      (do
        Invalid.ifPresent Invalid.checkImportance c.importance
        Invalid.ifPresent (Invalid.checkUnit "confidence_score") c.confidence
        Invalid.ifPresent Invalid.checkCategory c.category
        .ok ts) = (.ok tags : Except Invalid _) := by
    cases hc : c.tags with
    | none =>
      rw [hc] at h
      exact ⟨none, ⟨rfl, by simp⟩, h⟩
    | some given =>
      rw [hc] at h
      obtain ⟨ts, htags, h⟩ := bind_eq_ok.mp h
      obtain ⟨valid, hvalid, heq⟩ := bind_eq_ok.mp htags
      cases heq
      have haccepts : v.Accepts valid := Vocabulary.validate_ok hvalid
      obtain ⟨rfl, -⟩ := Vocabulary.validate_eq_ok.mp hvalid
      exact ⟨some _, ⟨rfl, fun _ hts => Option.some.inj hts ▸ haccepts⟩, h⟩
  obtain ⟨ts, ⟨htags, haccepts⟩, h⟩ := hrest
  obtain ⟨_, himportance, h⟩ := bind_eq_ok.mp h
  obtain ⟨_, hconfidence, h⟩ := bind_eq_ok.mp h
  obtain ⟨_, hcategory, h⟩ := bind_eq_ok.mp h
  cases h
  exact ⟨htags, haccepts, hcontent, himportance, hconfidence, hcategory⟩

namespace Engine

variable {e : Engine}

theorem prepare_eq_ok {r r' : NewMemory} (h : e.prepare r = .ok r') :
    ∃ tags, r.check e.vocabulary = .ok tags ∧ r' =
      { r with
        owner := Text.trim r.owner
        tags
        type := some (r.type.getD (e.classifier.classifyType r.content))
        category := some (r.category.elim (Classifier.classifyCategory r.content) Text.trim) } := by
  obtain ⟨tags, htags, h⟩ := bind_eq_ok.mp h
  exact ⟨tags, Invalid.raise_eq_ok.mp htags, (Except.ok.inj h).symm⟩

theorem isOk_prepare {r : NewMemory} :
    (e.prepare r).isOk = true ↔ ∃ tags, r.check e.vocabulary = .ok tags := by
  unfold prepare
  cases r.check e.vocabulary <;>
    simp [Invalid.raise, Bind.bind, Except.bind, Except.isOk, Except.toBool]

/-- What the engine hands to the store is in normal form. -/
theorem normal_of_prepare {r r' : NewMemory} (h : e.prepare r = .ok r') :
    r'.Normal e.vocabulary := by
  obtain ⟨tags, hcheck, rfl⟩ := prepare_eq_ok h
  obtain ⟨howner, hcontent, htags, himportance, hconfidence, hcategory, hcontexts⟩ :=
    NewMemory.check_eq_ok.mp hcheck
  refine
    { owner := Text.neat_trim howner
      content := hcontent
      tags := Vocabulary.validate_ok htags
      category := ⟨_, rfl, ?_⟩
      importance := himportance
      confidence := hconfidence
      contexts := fun c hc => NewContext.inUnit_of_check (hcontexts c hc) }
  cases hc : r.category with
  | none => exact Classifier.neat_classifyCategory r.content
  | some c => exact Text.neat_trim (hcategory c hc)

theorem prepareChanges_eq_ok {c c' : Changes} :
    e.prepareChanges c = .ok c' ↔
      (∃ tags, c.check e.vocabulary = .ok tags) ∧ c' = c.normalized := by
  unfold prepareChanges
  cases hcheck : c.check e.vocabulary with
  | error cause => simp [Invalid.raise, Bind.bind, Except.bind]
  | ok tags =>
    obtain ⟨rfl, -⟩ := Changes.check_eq_ok hcheck
    simp [Invalid.raise, Bind.bind, Except.bind, Changes.normalized, eq_comm]

theorem normal_of_prepareChanges {c c' : Changes} (h : e.prepareChanges c = .ok c') :
    c'.Normal e.vocabulary ∧ c'.expectedVersion = c.expectedVersion := by
  obtain ⟨⟨tags, hcheck⟩, rfl⟩ := prepareChanges_eq_ok.mp h
  obtain ⟨rfl, haccepts, hcontent, himportance, hconfidence, hcategory⟩ :=
    Changes.check_eq_ok hcheck
  refine ⟨⟨?_, haccepts, ?_, ?_, ?_⟩, rfl⟩
  · intro x hx
    simpa using Invalid.ensure_eq_ok.mp (Invalid.ifPresent_eq_ok.mp hcontent x hx)
  · intro x hx
    obtain ⟨y, hy, rfl⟩ := Option.map_eq_some_iff.mp hx
    have hblank := Invalid.ensure_eq_ok.mp (Invalid.ifPresent_eq_ok.mp hcategory y hy)
    exact Text.neat_trim (by simpa using hblank)
  · intro i hi
    simpa using Invalid.ensure_eq_ok.mp (Invalid.ifPresent_eq_ok.mp himportance i hi)
  · intro x hx
    exact Invalid.ensure_eq_ok.mp (Invalid.ifPresent_eq_ok.mp hconfidence x hx)

end Engine

end LongTermMemory
