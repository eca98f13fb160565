import LongTermMemory.Proofs.Distinct
import LongTermMemory.Proofs.Drafts
import LongTermMemory.Proofs.Validity

/-!
The request for the memory of a group. Made of valid memories of one owner it is in normal form
already: the summary names its display groups, the mean of some importances is no further out than
they are, and tags, category and confidence are those of members.
-/

namespace LongTermMemory

/-! ## The summary -/

theorem mem_intercalate {α : Type} {a : α} (sep : List α) {l : List α} {ls : List (List α)}
    (hl : l ∈ ls) (ha : a ∈ l) : a ∈ sep.intercalate ls := by
  induction ls with
  | nil => cases hl
  | cons first rest ih =>
    cases rest with
    | nil =>
      rw [List.mem_singleton.mp hl] at ha
      rwa [List.intercalate_singleton]
    | cons second rest =>
      rw [List.intercalate_cons_cons]
      rcases List.mem_cons.mp hl with rfl | hl
      · exact List.mem_append_left _ (List.mem_append_left _ ha)
      · exact List.mem_append_right _ (ih hl)

/-- A colon stands after the name of a display group. -/
theorem colon_mem_summarizeGroup (maxItems : Nat) (group : DisplayGroup) (members : List Memory) :
    ':' ∈ (summarizeGroup maxItems group members).toList := by
  unfold summarizeGroup
  split <;> simp

theorem not_blank_synthesize (maxItems : Nat) {memories : List Memory} (hne : memories ≠ []) :
    Text.blank (synthesize maxItems memories) = false := by
  obtain ⟨m, hm⟩ := List.exists_mem_of_ne_nil memories hne
  refine Text.not_blank_of_mem (c := ':') ?_ (by decide)
  have hgroup : DisplayGroup.ofMemory m ∈ (memories.map DisplayGroup.ofMemory).eraseDups :=
    List.mem_eraseDups.mpr (List.mem_map_of_mem hm)
  unfold synthesize
  rw [String.toList_intercalate]
  exact mem_intercalate _ (List.mem_map_of_mem (List.mem_map_of_mem hgroup))
    (colon_mem_summarizeGroup _ _ _)

/-! ## Importance -/

theorem total_bounds {values : List Int} {low high : Int}
    (h : ∀ v ∈ values, low ≤ v ∧ v ≤ high) :
    low * values.length ≤ total values ∧ total values ≤ high * values.length := by
  induction values with
  | nil => simp [total]
  | cons v rest ih =>
    obtain ⟨hlow, hhigh⟩ := ih fun w hw => h w (by simp [hw])
    have hv := h v (by simp)
    have hcons : total (v :: rest) = v + total rest := rfl
    rw [hcons, List.length_cons, Int.natCast_succ, Int.mul_add, Int.mul_add]
    omega

/-- The mean lies between bounds of the values. -/
theorem roundedMean_bounds {values : List Int} {low high : Nat} (hne : values ≠ [])
    (h : ∀ v ∈ values, (low : Int) ≤ v ∧ v ≤ high) :
    low ≤ roundedMean values ∧ roundedMean values ≤ high := by
  have hpos : 0 < values.length := List.length_pos_of_ne_nil hne
  obtain ⟨hlow, hhigh⟩ := total_bounds h
  have hsum : 0 ≤ total values :=
    Int.le_trans (Int.mul_nonneg (Int.natCast_nonneg _) (Int.natCast_nonneg _)) hlow
  obtain ⟨sum, hsum⟩ := Int.eq_ofNat_of_zero_le hsum
  rw [hsum] at hlow hhigh
  unfold roundedMean
  dsimp only
  rw [if_neg (by omega), hsum, if_neg (by omega), Int.natAbs_natCast]
  generalize values.length = n at hpos hlow hhigh
  norm_cast at hlow hhigh ⊢
  constructor
  · rw [Nat.le_div_iff_mul_le (by omega), Nat.mul_left_comm]
    omega
  · rw [← Nat.lt_succ_iff, Nat.div_lt_iff_lt_mul (by omega), Nat.mul_left_comm, Nat.succ_mul high]
    omega

theorem mergedImportance_bounds {memories : List Memory} (hne : memories ≠ [])
    (h : ∀ m ∈ memories, 1 ≤ m.importance ∧ m.importance ≤ 10) :
    1 ≤ mergedImportance memories ∧ mergedImportance memories ≤ 10 := by
  have hvalues : ∀ v ∈ memories.map (·.importance), ((1 : Nat) : Int) ≤ v ∧ v ≤ (10 : Nat) := by
    simpa using h
  have hmean := roundedMean_bounds (by simpa using hne) hvalues
  generalize hvalue : roundedMean (memories.map (·.importance)) = mean at hmean
  have hfits : IntegerRange.int32.contains (mean + 1) = true := by
    refine decide_eq_true ⟨?_, ?_⟩ <;> simp only [IntegerRange.int32] <;> omega
  rw [mergedImportance, hvalue, wrapImportance, IntegerRange.wrap_of_contains hfits]
  omega

/-! ## Confidence and category -/

theorem Single.inUnit_foldl_max {values : List Single} {x : Single} (hx : x.inUnit = true)
    (h : ∀ y ∈ values, y.inUnit = true) : (values.foldl Single.max x).inUnit = true := by
  have hall : ∀ y ∈ x :: values, y.inUnit = true := List.forall_mem_cons.mpr ⟨hx, h⟩
  exact hall _ (foldl_max_mem x values)

/-- Of the most frequent values the one that comes first. -/
structure IsMode {α : Type} [DecidableEq α] (values : List α) (v : α) : Prop where
  mem : v ∈ values
  most : ∀ w, values.count w ≤ values.count v
  earliest : ∀ w, values.count w = values.count v → values.idxOf v ≤ values.idxOf w

/-- A pass over candidates that gives up the best so far only for a better one ends with the best,
and of several with the first. -/
theorem exists_foldl_best {α : Type} {R : α → α → Prop} {f : α → Nat} {candidates : List α}
    (hpos : ∀ c ∈ candidates, 0 < f c) (hordered : candidates.Pairwise R)
    (hne : candidates ≠ []) : ∃ v ∈ candidates,
      candidates.foldl (fun best v => if best.elim 0 f < f v then some v else best) none = some v ∧
        ∀ w ∈ candidates, f w ≤ f v ∧ (f w = f v → w = v ∨ R v w) := by
  -- From the end: before the last candidate the pass has come to the best of those before it.
  induction candidates using List.reverseRecOn with
  | nil => exact absurd rfl hne
  | append_singleton front c ih =>
    obtain ⟨hfront, -, hlast⟩ := List.pairwise_append.mp hordered
    have hc := hpos c (by simp)
    rw [List.foldl_append, List.foldl_cons, List.foldl_nil]
    by_cases hnil : front = []
    · rw [hnil]
      exact ⟨c, by simp, by simp [hc], by simp⟩
    · obtain ⟨v, hv, hbest, hmost⟩ := ih (fun b hb => hpos b (by simp [hb])) hfront hnil
      rw [hbest, Option.elim_some]
      split
      · next hgreater =>
        refine ⟨c, by simp, rfl, fun w hw => ?_⟩
        rcases List.mem_append.mp hw with hw | hw
        · have := (hmost w hw).1
          exact ⟨by omega, fun hsame => by omega⟩
        · rw [List.mem_singleton.mp hw]
          exact ⟨Nat.le_refl _, fun _ => Or.inl rfl⟩
      · next hless =>
        refine ⟨v, by simp [hv], rfl, fun w hw => ?_⟩
        rcases List.mem_append.mp hw with hw | hw
        · exact hmost w hw
        · rw [List.mem_singleton.mp hw]
          exact ⟨Nat.not_lt.mp hless, fun _ => Or.inr (hlast v hv c (by simp))⟩

theorem exists_mostFrequent {α : Type} [DecidableEq α] {values : List α} (hne : values ≠ []) :
    ∃ v, mostFrequent values = some v ∧ IsMode values v := by
  have hseen := firstSeen_eraseDups values
  obtain ⟨first, hfirst⟩ := List.exists_mem_of_ne_nil values hne
  obtain ⟨v, hv, hbest, hmost⟩ := exists_foldl_best (f := fun w => values.count w)
    (fun c hc => List.count_pos_iff.mpr ((hseen.mem c).mp hc)) hseen.ordered
    (List.ne_nil_of_mem ((hseen.mem first).mpr hfirst))
  have hmem := (hseen.mem v).mp hv
  have hpos := List.count_pos_iff.mpr hmem
  refine ⟨v, hbest, hmem, fun w => ?_, fun w hsame => ?_⟩
  · by_cases hw : w ∈ values
    · exact (hmost w ((hseen.mem w).mpr hw)).1
    · rw [List.count_eq_zero.mpr hw]
      exact Nat.zero_le _
  · have hw : w ∈ values := List.count_pos_iff.mp (hsame ▸ hpos)
    rcases (hmost w ((hseen.mem w).mpr hw)).2 hsame with rfl | hless
    · exact Nat.le_refl _
    · exact Nat.le_of_lt hless

/-- The category of a merged memory is that of a member, or the general one. -/
theorem neat_mergedCategory {group : List Memory} (hsound : ∀ m ∈ group, m.Sound) :
    Text.Neat ((mostFrequent (group.map (·.category))).getD generalCategory) := by
  by_cases hnil : group = []
  · rw [hnil]
    exact Classifier.categories_neat _ List.mem_cons_self
  · have hsome : group.map (·.category) ≠ [] := mt List.map_eq_nil_iff.mp hnil
    obtain ⟨category, hbest, hmode⟩ := exists_mostFrequent hsome
    obtain ⟨m, hm, rfl⟩ := List.mem_map.mp hmode.mem
    rw [hbest]
    exact (hsound m hm).category

/-! ## Normal forms -/

namespace Engine

variable {e : Engine} {l : List String}

/-- What is prepared of a request whose parts are in normal form is the request itself. -/
theorem prepare_eq_self {r r' : NewMemory} (h : e.prepare r = .ok r')
    (howner : Text.trim r.owner = r.owner) (htags : ∀ t ∈ r.tags, t ≠ "" ∧ normalizeTag t = t)
    (hascending : r.tags.Pairwise (· < ·)) (htype : r.type.isSome = true)
    (hcategory : ∃ c, r.category = some c ∧ Text.trim c = c) : r' = r := by
  obtain ⟨tags, hcheck, rfl⟩ := prepare_eq_ok h
  obtain ⟨-, -, hvalid, -⟩ := NewMemory.check_eq_ok.mp hcheck
  obtain ⟨rfl, -, -⟩ := Vocabulary.validate_eq_ok.mp hvalid
  obtain ⟨type, htype⟩ := Option.isSome_iff_exists.mp htype
  obtain ⟨category, hcategory, htrim⟩ := hcategory
  rw [Vocabulary.normalForms_eq_self htags hascending]
  cases r
  cases hcategory
  cases htype
  simp [howner, htrim]

/-- Of a request in normal form nothing is left to be changed. -/
theorem prepare_of_normal {r : NewMemory} (hr : r.Normal e.vocabulary)
    (htags : ∀ t ∈ r.tags, t ≠ "" ∧ normalizeTag t = t) (htype : r.type.isSome = true)
    (hcontexts : ∀ c ∈ r.contexts, c.check = .ok ()) : e.prepare r = .ok r := by
  obtain ⟨category, hcategory, hneat⟩ := hr.category
  obtain ⟨hne, hascending, hknown⟩ := hr.tags
  obtain ⟨tags, hvalid⟩ := (Vocabulary.exists_validate_eq_ok htags).mpr ⟨hne, hknown⟩
  have hcheck : r.check e.vocabulary = .ok tags := by
    refine NewMemory.check_eq_ok.mpr ⟨hr.owner.1, hr.content, hvalid, hr.importance, hr.confidence,
      fun c hc => ?_, hcontexts⟩
    cases hcategory.symm.trans hc
    exact hneat.1
  cases hprepare : e.prepare r with
  | error err =>
    have hok := isOk_prepare.mpr ⟨tags, hcheck⟩
    rw [hprepare] at hok
    cases hok
  | ok r' =>
    rw [prepare_eq_self hprepare hr.owner.2 htags hascending htype ⟨category, hcategory, hneat.2⟩]

/-- A prepared request is its own normal form. -/
theorem prepare_prepare {r r' : NewMemory} (h : e.prepare r = .ok r') : e.prepare r' = .ok r' := by
  have hnormal := normal_of_prepare h
  obtain ⟨tags, hcheck, rfl⟩ := prepare_eq_ok h
  obtain ⟨-, -, hvalid, -, -, -, hcontexts⟩ := NewMemory.check_eq_ok.mp hcheck
  obtain ⟨rfl, -, -⟩ := Vocabulary.validate_eq_ok.mp hvalid
  refine prepare_of_normal hnormal (fun t ht => ?_) rfl hcontexts
  obtain ⟨hne, u, -, rfl⟩ := (Vocabulary.mem_normalForms t r.tags).mp ht
  exact ⟨hne, normalizeTag_normalizeTag u⟩

/-- What is prepared of the request for the memory of a group is that request, whatever the
vocabulary is. -/
theorem eq_mergedRequest_of_prepare {owner : String} {group : List Memory} {r : NewMemory}
    (h : e.prepare (e.config.consolidation.mergedRequest owner group) = .ok r)
    (howner : Text.trim owner = owner) (hsound : ∀ m ∈ group, m.Sound)
    (htags : ∀ m ∈ group, ∀ t ∈ m.tags, t ≠ "" ∧ normalizeTag t = t) :
    r = e.config.consolidation.mergedRequest owner group := by
  refine prepare_eq_self h howner (fun t ht => ?_) (Ascending.pairwise_ofList _) rfl ⟨_, rfl, ?_⟩
  · obtain ⟨m, hm, htm⟩ := List.mem_flatMap.mp ((Ascending.mem_ofList _ _).mp ht)
    exact htags m hm t htm
  · exact (neat_mergedCategory hsound).2

theorem normal_mergedRequest {owner : String} {group : List Memory} (hne : group ≠ [])
    (howner : ∀ m ∈ group, m.owner = owner) (hsound : ∀ m ∈ group, m.Sound)
    (htags : ∀ m ∈ group, e.vocabulary.Keeps m.tags) :
    (e.config.consolidation.mergedRequest owner group).Normal e.vocabulary := by
  obtain ⟨first, hfirst⟩ := List.exists_mem_of_ne_nil group hne
  obtain ⟨tag, htag⟩ := List.exists_mem_of_ne_nil _ (htags first hfirst).nonempty
  refine
    { owner := howner first hfirst ▸ (hsound first hfirst).owner
      content := not_blank_synthesize _ hne
      tags := ⟨?_, Ascending.pairwise_ofList _, fun t ht => ?_⟩
      category := ⟨_, rfl, neat_mergedCategory hsound⟩
      importance := mergedImportance_bounds hne fun m hm => (hsound m hm).importance
      confidence := Single.inUnit_foldl_max Single.inUnit_zero fun x hx => ?_
      contexts := fun c hc => nomatch hc }
  · have hin : tag ∈ Ascending.ofList (group.flatMap (·.tags)) :=
      (Ascending.mem_ofList _ _).mpr (List.mem_flatMap.mpr ⟨first, hfirst, htag⟩)
    exact List.ne_nil_of_mem hin
  · obtain ⟨m, hm, htm⟩ := List.mem_flatMap.mp ((Ascending.mem_ofList _ _).mp ht)
    exact (htags m hm).known t htm
  · obtain ⟨m, hm, rfl⟩ := List.mem_map.mp hx
    exact (hsound m hm).confidence

/-- The request for the memory of a group of valid memories is acceptable as it is. -/
theorem prepare_mergedRequest (hv : e.vocabulary = .ofList l) {owner : String}
    {group : List Memory} (hne : group ≠ []) (howner : ∀ m ∈ group, m.owner = owner)
    (hsound : ∀ m ∈ group, m.Sound) (htags : ∀ m ∈ group, e.vocabulary.Keeps m.tags) :
    e.prepare (e.config.consolidation.mergedRequest owner group) =
      .ok (e.config.consolidation.mergedRequest owner group) := by
  have hnormal := normal_mergedRequest hne howner hsound htags
  refine prepare_of_normal hnormal (fun t ht => ?_) rfl fun c hc => nomatch hc
  exact Vocabulary.normal_of_mem_ofList (hv ▸ hnormal.tags.2.2 t ht)

end Engine

end LongTermMemory
