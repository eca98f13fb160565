import Mathlib.Data.List.Pairwise
import LongTermMemory.Proofs.Configuration
import LongTermMemory.Proofs.Learning
import LongTermMemory.Proofs.Text.ShortForm

/-!
Drafts: what each detector puts into one, and which of them pass the checks of requests. Besides
what the check of a configuration asks for it takes importances between one and ten, and the
general tag in the vocabulary, since it stands in where a turn has no tag of the vocabulary.
-/

namespace LongTermMemory

namespace LearningConfig

/-- The most matches that a draft is rated by. -/
def mostMatches (c : LearningConfig) : Nat :=
  max 3 (max c.personalPatterns.length c.learningPhrases.length)

/-- The importances that drafts come with. -/
inductive Rates (c : LearningConfig) : Int → Prop
  | explicit : Rates c c.explicitImportance
  | urgent : Rates c c.explicitUrgentImportance
  | scaled {matched : Nat} (h : matched ≤ c.mostMatches) : Rates c (c.scaledImportance matched)

end LearningConfig

/-- What holds of a draft, whichever detector made it. -/
structure Draft.Fits (c : LearningConfig) (d : Draft) : Prop where
  content : d.content = "" ∨ Text.blank d.content = false
  importance : c.Rates d.importance
  confidence : d.confidence.inUnit = true

/-- What a configuration needs beyond its check for every draft to be acceptable. -/
structure Config.Teachable (c : Config) : Prop where
  general : generalCategory ∈ (Vocabulary.ofList c.vocabulary).tags
  explicit : 1 ≤ c.learning.explicitImportance ∧ c.learning.explicitImportance ≤ 10
  urgent : 1 ≤ c.learning.explicitUrgentImportance ∧ c.learning.explicitUrgentImportance ≤ 10
  learned : 1 ≤ c.learning.minLearnedImportance ∧ c.learning.maxLearnedImportance ≤ 10
  steps : c.learning.minLearnedImportance + (c.learning.mostMatches - 1 : Nat) ≤
    IntegerRange.int32.high

/-! ## Detectors -/

theorem Detector.enabled_sublist (c : DetectorConfig) :
    (enabled c).Sublist [.explicitRequest, .preference, .pattern, .insight] := by
  obtain ⟨explicitRequest, preference, pattern, insight⟩ := c
  cases explicitRequest <;> cases preference <;> cases pattern <;> cases insight <;> decide

theorem inUnit_matchedShare (matched total : Nat) : (matchedShare matched total).inUnit = true := by
  unfold matchedShare
  split
  · exact Single.inUnit_zero
  · exact Single.inUnit_clampUnit (Single.isNaN_ofQuotient _ _ _)

theorem Text.PhraseSet.length_found_le (phrases : List String) (text : String) :
    ((ofList phrases).found text).length ≤ phrases.length :=
  calc ((ofList phrases).found text).length
      ≤ (ofList phrases).phrases.length := List.length_filter_le _ _
    _ ≤ (phrases.map fun p => lowercase (trim p)).length := List.length_filter_le _ _
    _ = phrases.length := List.length_map _

namespace Detector

variable {c : LearningConfig} {k : Classifier} {i : Interaction} {d : Draft}

/-- The text of a turn that the draft of a detector is cut from. -/
def source (i : Interaction) : Detector → String
  | .explicitRequest => i.userInput
  | .preference => i.userInput
  | .pattern => i.toolResult.elim "" fun o => usage (Text.trim o.tool) (Text.trim o.output)
  | .insight => i.agentResponse

/-- A draft names the detector that made it, and its content is a text of the turn, shortened. -/
theorem detect_spec {detector : Detector} (h : detect? c k i detector = some d) :
    d.detector = detector ∧ d.content = Text.shorten c.maxContentChars (detector.source i) := by
  cases detector with
  | explicitRequest =>
    simp only [detect?, explicitRequest?] at h
    split at h
    · cases h
    · cases h
      refine ⟨rfl, ?_⟩
      dsimp only [source]
  | preference =>
    simp only [detect?, preference?] at h
    split at h
    · cases h
    · cases h
      refine ⟨rfl, ?_⟩
      dsimp only [source]
  | pattern =>
    simp only [detect?, pattern?] at h
    split at h
    · cases h
    · next outcome houtcome =>
      split at h
      · cases h
      · cases h
        refine ⟨rfl, ?_⟩
        dsimp only [source]
        rw [houtcome, Option.elim_some]
  | insight =>
    simp only [detect?, insight?] at h
    split at h
    · cases h
    · cases h
      refine ⟨rfl, ?_⟩
      dsimp only [source]

theorem rates_explicitRequest (hc : c.explicitConfidence.inUnit = true)
    (h : explicitRequest? c i = some d) : c.Rates d.importance ∧ d.confidence.inUnit = true := by
  unfold explicitRequest? at h
  dsimp only at h
  split at h
  · cases h
  · cases h
    refine ⟨?_, hc⟩
    dsimp only
    split
    · exact .urgent
    · exact .explicit

theorem rates_preference (h : preference? c k i = some d) :
    c.Rates d.importance ∧ d.confidence.inUnit = true := by
  unfold preference? at h
  dsimp only at h
  split at h
  · cases h
  · cases h
    have hfound := Text.PhraseSet.length_found_le c.personalPatterns i.userInput
    refine ⟨.scaled ?_, inUnit_matchedShare _ _⟩
    unfold LearningConfig.mostMatches
    omega

theorem rates_pattern (h : pattern? c i = some d) :
    c.Rates d.importance ∧ d.confidence.inUnit = true := by
  unfold pattern? at h
  split at h
  · cases h
  · split at h
    · cases h
    · dsimp only at h
      cases h
      refine ⟨.scaled ?_, ?_⟩
      · unfold LearningConfig.mostMatches
        split <;> split <;> omega
      · dsimp only
        exact inUnit_matchedShare _ _

theorem rates_insight (h : insight? c i = some d) :
    c.Rates d.importance ∧ d.confidence.inUnit = true := by
  unfold insight? at h
  dsimp only at h
  split at h
  · cases h
  · cases h
    have hfound := Text.PhraseSet.length_found_le c.learningPhrases i.agentResponse
    refine ⟨.scaled ?_, inUnit_matchedShare _ _⟩
    unfold LearningConfig.mostMatches
    omega

theorem rates_detect (hc : c.explicitConfidence.inUnit = true) {detector : Detector}
    (h : detect? c k i detector = some d) :
    c.Rates d.importance ∧ d.confidence.inUnit = true := by
  cases detector with
  | explicitRequest => exact rates_explicitRequest hc h
  | preference => exact rates_preference h
  | pattern => exact rates_pattern h
  | insight => exact rates_insight h

theorem fits_detect (hc : c.explicitConfidence.inUnit = true) {detector : Detector}
    (h : detect? c k i detector = some d) : d.Fits c := by
  obtain ⟨hrates, hconfidence⟩ := rates_detect hc h
  obtain ⟨-, hcontent⟩ := detect_spec h
  exact ⟨hcontent ▸ Text.shorten_cases _ _, hrates, hconfidence⟩

end Detector

/-! ## Collecting -/

/-- What some detectors add to the drafts collected before, the user having asked for a memory or
not. -/
structure Collected (detect? : Detector → Option Draft) (detectors : List Detector) (asked : Bool)
    (drafts new : List Draft) : Prop where
  ordered : (new.map (·.detector)).Sublist detectors
  made : ∀ d ∈ new, d.content ≠ "" ∧ detect? d.detector = some d
  unlike : (drafts.map (·.content)).Nodup → ((drafts ++ new).map (·.content)).Nodup
  unasked : asked = true → ∀ d ∈ new, d.detector ≠ .preference
  suppressed : new.Pairwise fun a b => a.detector = .explicitRequest → b.detector ≠ .preference

namespace Collected

variable {detect? : Detector → Option Draft} {detector : Detector} {detectors : List Detector}
  {asked : Bool} {drafts new : List Draft}

theorem nil : Collected detect? [] asked drafts [] where
  ordered := List.Sublist.refl []
  made := by simp
  unlike := by simp
  unasked := by simp
  suppressed := List.Pairwise.nil

/-- A detector that adds nothing may still be a request of the user. -/
theorem skip {asked' : Bool} (hasked : asked = true → asked' = true)
    (h : Collected detect? detectors asked' drafts new) :
    Collected detect? (detector :: detectors) asked drafts new :=
  { h with
    ordered := h.ordered.cons detector
    unasked := fun ha => h.unasked (hasked ha) }

theorem add {d : Draft} (hname : d.detector = detector) (hdetect : detect? detector = some d)
    (hcontent : d.content ≠ "") (hallowed : asked = true → detector ≠ .preference)
    (hunlike : ∀ k ∈ drafts, k.content ≠ d.content)
    (h : Collected detect? detectors (asked || detector = .explicitRequest) (drafts ++ [d]) new) :
    Collected detect? (detector :: detectors) asked drafts (d :: new) := by
  refine ⟨?_, ?_, fun hnodup => ?_, fun ha k hk => ?_, ?_⟩
  · rw [List.map_cons, hname]
    exact h.ordered.cons_cons detector
  · exact List.forall_mem_cons.mpr ⟨⟨hcontent, hname ▸ hdetect⟩, h.made⟩
  · rw [List.append_cons]
    refine h.unlike ?_
    rw [List.map_append]
    refine List.nodup_append.mpr ⟨hnodup, List.pairwise_singleton _ _, ?_⟩
    rintro x hx y hy rfl
    obtain ⟨k, hk, heq⟩ := List.mem_map.mp hx
    exact hunlike k hk (heq.trans (List.mem_singleton.mp hy))
  · rcases List.mem_cons.mp hk with rfl | hk
    · exact hname ▸ hallowed ha
    · exact h.unasked (by simp [ha]) k hk
  · refine List.pairwise_cons.mpr ⟨fun k hk hexplicit => ?_, h.suppressed⟩
    exact h.unasked (by simp [← hname, hexplicit]) k hk

/-- What holds of the drafts added holds of those of them that are kept. -/
theorem sublist {kept : List Draft} (h : Collected detect? detectors asked drafts new)
    (hsub : kept.Sublist new) : Collected detect? detectors asked drafts kept where
  ordered := (hsub.map _).trans h.ordered
  made d hd := h.made d (hsub.subset hd)
  unlike hnodup := (h.unlike hnodup).sublist ((List.Sublist.append_left hsub drafts).map _)
  unasked ha d hd := h.unasked ha d (hsub.subset hd)
  suppressed := h.suppressed.sublist hsub

/-- A request of the user and a statement about themselves are not both made drafts of: a request
suppresses what comes after it, and it is looked for first. -/
theorem not_both (h : Collected detect? detectors asked drafts new)
    (hdetectors : detectors.Sublist [.explicitRequest, .preference, .pattern, .insight]) :
    ¬(.explicitRequest ∈ new.map (·.detector) ∧ .preference ∈ new.map (·.detector)) := by
  rintro ⟨hexplicit, hpreference⟩
  have hafter : (new.map (·.detector)).Pairwise fun a b =>
      a = .explicitRequest → b ≠ .preference :=
    List.pairwise_map.mpr h.suppressed
  have hbefore : (new.map (·.detector)).Pairwise fun a b =>
      a = .preference → b ≠ .explicitRequest :=
    List.Pairwise.sublist (h.ordered.trans hdetectors) (by decide)
  have hsymm : Std.Symm fun a b : Detector =>
      (a = .explicitRequest → b ≠ .preference) ∧ (a = .preference → b ≠ .explicitRequest) :=
    ⟨fun a b h => ⟨fun hb ha => h.2 ha hb, fun hb ha => h.1 ha hb⟩⟩
  exact ((hafter.and hbefore).forall hexplicit hpreference (by decide)).1 rfl rfl

end Collected

/-- Collecting goes on from the drafts that were made, by detectors that name themselves. -/
theorem collected_collectDrafts {detect? : Detector → Option Draft}
    (hname : ∀ detector d, detect? detector = some d → d.detector = detector)
    (detectors : List Detector) (asked : Bool) (drafts : List Draft) :
    ∃ new, collectDrafts detect? detectors asked drafts = drafts ++ new ∧
      Collected detect? detectors asked drafts new := by
  induction detectors generalizing asked drafts with
  | nil => exact ⟨[], (List.append_nil drafts).symm, .nil⟩
  | cons detector rest ih =>
    have hskip (asked' : Bool) (hasked : asked = true → asked' = true) :
        ∃ new, collectDrafts detect? rest asked' drafts = drafts ++ new ∧
          Collected detect? (detector :: rest) asked drafts new := by
      obtain ⟨new, heq, hnew⟩ := ih asked' drafts
      exact ⟨new, heq, hnew.skip hasked⟩
    unfold collectDrafts
    split
    · exact hskip asked id
    · next hallowed =>
      cases hdetect : detect? detector with
      | none => exact hskip asked id
      | some d =>
        dsimp only
        split
        · exact hskip asked id
        · next hcontent =>
          split
          · exact hskip _ fun ha => by simp [ha]
          · next hunlike =>
            obtain ⟨new, heq, hnew⟩ := ih (asked || detector = .explicitRequest) (drafts ++ [d])
            refine ⟨d :: new, by rw [heq, List.append_assoc]; rfl, hnew.add (hname _ _ hdetect)
              hdetect hcontent (fun ha hpreference => ?_) fun k hk heq => ?_⟩
            · exact hallowed (by simp [ha, hpreference])
            · exact hunlike (List.any_eq_true.mpr ⟨k, hk, by simp [heq]⟩)

theorem collected_draftsOf (c : LearningConfig) (k : Classifier) (i : Interaction) :
    Collected (Detector.detect? c k i) (Detector.enabled c.detectors) false []
      (draftsOf c k i) := by
  obtain ⟨new, heq, hnew⟩ := collected_collectDrafts
    (fun _ _ h => (Detector.detect_spec (c := c) (k := k) (i := i) h).1)
    (Detector.enabled c.detectors) false []
  rw [draftsOf, heq]
  exact hnew

/-! ## Tags -/

namespace Classifier

/-- The tags of a text are of the vocabulary, or it has none but the general one. -/
theorem extractTags_cases (content : String) (given : List String) (type : MemoryType)
    (category : String) (v : Vocabulary) :
    extractTags content given type category v ≠ [] ∧
      ((∀ t ∈ extractTags content given type category v, t ∈ v.tags) ∨
        extractTags content given type category v = [generalCategory]) := by
  unfold extractTags
  dsimp only
  split
  · exact ⟨by simp, Or.inr rfl⟩
  · next hne => exact ⟨by simpa using hne, Or.inl fun t ht => (Vocabulary.mem_filter.mp ht).1⟩

theorem normal_generalCategory : normalizeTag generalCategory = generalCategory := by
  decide

theorem normal_extractTags {content : String} {given : List String} {type : MemoryType}
    {category : String} {l : List String} :
    ∀ t ∈ extractTags content given type category (.ofList l), t ≠ "" ∧ normalizeTag t = t := by
  intro t ht
  rcases (extractTags_cases content given type category (.ofList l)).2 with hknown | hgeneral
  · exact Vocabulary.normal_of_mem_ofList (hknown t ht)
  · rw [hgeneral] at ht
    rw [List.mem_singleton.mp ht]
    exact ⟨by decide, normal_generalCategory⟩

end Classifier

/-! ## Importance -/

theorem IntegerRange.wrap_of_contains {r : IntegerRange} {n : Int} (h : r.contains n = true) :
    r.wrap n = n := by
  obtain ⟨hlow, hhigh⟩ := of_decide_eq_true h
  rw [wrap, Int.emod_eq_of_lt (by omega) (by omega)]
  omega

namespace Config.Teachable

variable {c : Config} (h : c.Teachable)
include h

theorem steps_fit {matched : Nat} (hmatched : matched ≤ c.learning.mostMatches) :
    IntegerRange.int32.contains (c.learning.minLearnedImportance + (matched - 1 : Nat)) = true := by
  have hsteps := h.steps
  have hlow := h.learned.1
  refine decide_eq_true ⟨?_, ?_⟩
  · simp only [IntegerRange.int32]
    omega
  · omega

theorem scaledImportance_eq {matched : Nat} (hmatched : matched ≤ c.learning.mostMatches) :
    c.learning.scaledImportance matched =
      min (c.learning.minLearnedImportance + (matched - 1 : Nat))
        c.learning.maxLearnedImportance := by
  rw [LearningConfig.scaledImportance, wrapImportance,
    IntegerRange.wrap_of_contains (h.steps_fit hmatched)]

theorem exact_of_rates {n : Int} (hn : c.learning.Rates n) :
    n = c.learning.explicitImportance ∨ n = c.learning.explicitUrgentImportance ∨
      ∃ step : Nat, IntegerRange.int32.contains (c.learning.minLearnedImportance + step) = true ∧
        n = min (c.learning.minLearnedImportance + step) c.learning.maxLearnedImportance := by
  cases hn with
  | explicit => exact Or.inl rfl
  | urgent => exact Or.inr (Or.inl rfl)
  | @scaled matched hmatched =>
    exact Or.inr (Or.inr ⟨matched - 1, h.steps_fit hmatched, h.scaledImportance_eq hmatched⟩)

theorem importance_of_rates (hc : c.Checked) {n : Int} (hn : c.learning.Rates n) :
    1 ≤ n ∧ n ≤ 10 := by
  cases hn with
  | explicit => exact h.explicit
  | urgent => exact h.urgent
  | scaled hmatched =>
    rw [h.scaledImportance_eq hmatched]
    have hlearned := h.learned
    have hordered := hc.learnedImportance
    omega

end Config.Teachable

/-! ## Learning -/

namespace Engine

variable {c : Config} {e : Engine} {i : Interaction} {d : Draft}

theorem fits_of_mem_drafts (he : ofConfig c = .ok e) (hd : d ∈ e.drafts i) :
    d.Fits c.learning ∧ d.content ≠ "" := by
  obtain ⟨hchecked, rfl⟩ := ofConfig_eq_ok.mp he
  obtain ⟨hcontent, hdetect⟩ := (collected_draftsOf _ _ i).made d hd
  exact ⟨Detector.fits_detect hchecked.explicitConfidence hdetect, hcontent⟩

/-- A draft of an owner is refused for its importance or its tags, and for nothing else. -/
theorem acceptable_iff (he : ofConfig c = .ok e) (howner : Text.blank i.owner = false)
    (hd : d ∈ e.drafts i) : e.acceptable i d = true ↔ (1 ≤ d.importance ∧ d.importance ≤ 10) ∧
      ∀ t ∈ (e.requestOf i d).tags, t ∈ e.vocabulary.tags := by
  obtain ⟨hfits, hcontent⟩ := fits_of_mem_drafts he hd
  have hcategory := (Classifier.neat_classifyCategory d.content).1
  obtain ⟨-, rfl⟩ := ofConfig_eq_ok.mp he
  have hne : ((ofUnchecked c).requestOf i d).tags ≠ [] := (Classifier.extractTags_cases ..).1
  have hnormal : ∀ t ∈ ((ofUnchecked c).requestOf i d).tags, t ≠ "" ∧ normalizeTag t = t :=
    Classifier.normal_extractTags
  have htags := Vocabulary.exists_validate_eq_ok (v := (ofUnchecked c).vocabulary) hnormal
  rw [acceptable, isOk_prepare]
  simp only [NewMemory.check_eq_ok]
  constructor
  · rintro ⟨tags, -, -, hvalid, himportance, -⟩
    exact ⟨himportance, (htags.mp ⟨tags, hvalid⟩).2⟩
  · rintro ⟨himportance, hknown⟩
    obtain ⟨tags, hvalid⟩ := htags.mpr ⟨hne, hknown⟩
    refine ⟨tags, howner, hfits.content.resolve_left hcontent, hvalid, himportance,
      hfits.confidence, ?_, ?_⟩
    · intro category hsome
      cases hsome
      exact hcategory
    · intro context hcontext
      cases hcontext

/-- A draft that is accepted is stored by the pass that comes to it, unless it is known by then. -/
theorem learned_or_known (hd : e.acceptable i d = true) (now : Instant) (s : Store)
    (front later : List Draft) :
    known (e.requestOf i d) (e.learnDrafts now i front s).2 = true ∨
      ∃ m s', e.create now (e.requestOf i d) (e.learnDrafts now i front s).2 = .ok (m, s') ∧
        m ∈ (e.learnDrafts now i (front ++ d :: later) s).1 := by
  generalize hs : (e.learnDrafts now i front s).2 = s₁
  cases hknown : known (e.requestOf i d) s₁ with
  | true => exact Or.inl rfl
  | false =>
    obtain ⟨m, s', hcreate, -⟩ := create_of_acceptable hd now s₁
    refine Or.inr ⟨m, s', hcreate, ?_⟩
    rw [learnDrafts_append, hs, learnDrafts_of_create hknown hcreate]
    simp

/-- Every draft of a turn has tags and a confidence that requests may have. It is accepted just when
its importance lies between one and ten and its tags are all of the vocabulary. Under a teachable
configuration that holds of every draft, none of its importances wraps around, and what learning
the turn does not store was known when its time came. -/
theorem drafts_learned (he : ofConfig c = .ok e) (howner : Text.blank i.owner = false) :
    (∀ d ∈ e.drafts i, d.confidence.inUnit = true ∧ (e.requestOf i d).tags ≠ [] ∧
      (e.acceptable i d = true ↔ (1 ≤ d.importance ∧ d.importance ≤ 10) ∧
        ∀ t ∈ (e.requestOf i d).tags, t ∈ e.vocabulary.tags)) ∧
    (c.Teachable → ∀ d ∈ e.drafts i, (1 ≤ d.importance ∧ d.importance ≤ 10) ∧
      (∀ t ∈ (e.requestOf i d).tags, t ∈ e.vocabulary.tags) ∧ e.acceptable i d = true ∧
      (d.importance = c.learning.explicitImportance ∨
        d.importance = c.learning.explicitUrgentImportance ∨
        ∃ step : Nat,
          IntegerRange.int32.contains (c.learning.minLearnedImportance + step) = true ∧
          d.importance =
            min (c.learning.minLearnedImportance + step) c.learning.maxLearnedImportance)) ∧
    (c.Teachable → ∀ (now : Instant) (s : Store) (front later : List Draft) (d : Draft),
      e.drafts i = front ++ d :: later → ∃ s', (e.learnDrafts now i front s).2 = s' ∧
        (known (e.requestOf i d) s' = true ∨ ∃ m s'',
          e.create now (e.requestOf i d) s' = .ok (m, s'') ∧ m ∈ (e.learn now i s).1)) := by
  have haccepted (hc : c.Teachable) {d : Draft} (hd : d ∈ e.drafts i) :
      (1 ≤ d.importance ∧ d.importance ≤ 10) ∧
        ∀ t ∈ (e.requestOf i d).tags, t ∈ e.vocabulary.tags := by
    refine ⟨hc.importance_of_rates (ofConfig_eq_ok.mp he).1 (fits_of_mem_drafts he hd).1.importance,
      fun t ht => ?_⟩
    obtain ⟨-, rfl⟩ := ofConfig_eq_ok.mp he
    rcases (Classifier.extractTags_cases ..).2 with hknown | hgeneral
    · exact hknown t ht
    · rw [requestOf, Draft.toRequest, hgeneral] at ht
      rw [List.mem_singleton.mp ht]
      exact hc.general
  refine ⟨fun d hd => ⟨(fits_of_mem_drafts he hd).1.confidence, (Classifier.extractTags_cases ..).1,
    acceptable_iff he howner hd⟩, fun hc d hd => ?_, fun hc now s front later d hdrafts => ?_⟩
  · obtain ⟨himportance, htags⟩ := haccepted hc hd
    exact ⟨himportance, htags, (acceptable_iff he howner hd).mpr ⟨himportance, htags⟩,
      hc.exact_of_rates (fits_of_mem_drafts he hd).1.importance⟩
  · have hd : d ∈ e.drafts i := by simp [hdrafts]
    have hlearn : e.learn now i s = e.learnDrafts now i (front ++ d :: later) s := by
      simp [learn, howner, hdrafts]
    rw [hlearn]
    exact ⟨_, rfl, learned_or_known ((acceptable_iff he howner hd).mpr (haccepted hc hd)) now s
      front later⟩

/-- A turn in which an owner asks for a memory of a meeting at work. -/
def standup : Interaction :=
  { owner := "ann", userInput := "Save this: standup moved to 10", agentResponse := "" }

/-- A vocabulary of the general tag is enough to learn. -/
def generalOnly : Config := { vocabulary := ["general"] }

theorem drafts_learned_standup :
    ((ofUnchecked generalOnly).drafts standup).map (·.content) =
      ["Save this: standup moved to 10"] ∧
    (∀ d ∈ (ofUnchecked generalOnly).drafts standup,
      (ofUnchecked generalOnly).acceptable standup d = true) ∧
    ((ofUnchecked generalOnly).learn ⟨0⟩ standup .empty).1.map (·.content) =
      ["Save this: standup moved to 10"] := by
  have hteachable : generalOnly.Teachable :=
    ⟨by decide, by decide, by decide, by decide, by decide⟩
  obtain ⟨-, haccepted, -⟩ := drafts_learned (c := generalOnly) (e := ofUnchecked generalOnly)
    (i := standup) rfl (by decide)
  exact ⟨by decide, fun d hd => (haccepted hteachable d hd).2.2.1, by decide⟩

/-- A vocabulary without the general tag passes the check of configurations. A turn that has no tag
of it makes a draft, and learning the turn drops the draft and leaves the store as it is. -/
theorem draft_dropped : ∃ (c : Config) (e : Engine) (i : Interaction) (d : Draft),
    ofConfig c = .ok e ∧ Text.blank i.owner = false ∧ e.drafts i = [d] ∧
      known (e.requestOf i d) .empty = false ∧ (e.requestOf i d).tags = ["general"] ∧
      "general" ∉ e.vocabulary.tags ∧ e.learn ⟨0⟩ i .empty = ([], .empty) :=
  ⟨.oneTag, .oneTag, standup, _, rfl, by decide, rfl, rfl, by decide,
    by decide, rfl⟩

end Engine

end LongTermMemory
