import LongTermMemory.Proofs.ContextBlock.Truncation
import LongTermMemory.Store

/-!
Growth: a greater budget only adds to the text. A cut at a sentence may lie far before the budget,
so that two budgets may be cut in different ways; where the greater one is not cut at a sentence,
the smaller one is not either, and the greater one leaves every clean cut within it.
-/

namespace LongTermMemory.ContextBlock

variable {ss : List Section} {k : Nat}

/-- No word ends in the blank line before a section. -/
theorem le_render_of_wordEnd {before after : List Section} {s : Section} (hne : before ≠ [])
    (hword : WordEnd (render (before ++ s :: after)) k) (hle : k ≤ (opening before).length) :
    k ≤ (render before).length := by
  by_contra hgt
  obtain ⟨c, hc, hcloses⟩ := hword.getElem
  have hlength : (opening before).length = (render before).length + separator.length := by
    rw [opening_eq hne, List.length_append]
  rw [render_append, opening_eq hne, List.append_assoc, List.getElem?_append_right (by omega),
    List.getElem?_append_left (by omega)] at hc
  have hblank : separator.all (fun c => !closesWord c) = true := by decide
  have hopen := List.all_eq_true.mp hblank c (List.mem_of_getElem? hc)
  simp [hcloses] at hopen

namespace CutTo

variable {budget : Nat} {out : List Char} (hout : CutTo ss budget out)
include hout

/-- Without the end of a sentence, nothing is lost before a clean cut that fits. -/
theorem le_length_of_cleanCut (hnone : endsWithin closesSentence (render ss) budget = ∅)
    (hclean : CleanCut ss k) (hle : k ≤ budget) : k ≤ out.length := by
  have hmem : k ∈ endsWithin closesWord (render ss) budget := ⟨hclean.wordEnd, hle⟩
  cases hout with
  | sentence hk => exact absurd (hnone ▸ hk.1) (Set.notMem_empty _)
  | word _ hk =>
    rw [List.length_take_of_le hk.1.1.le_length]
    exact hk.2 hmem
  | @bare last before _ hk hin =>
    have hlast : k ≤ last := hk.2 hmem
    obtain ⟨s, after, rfl, -, hlead⟩ := hin
    -- past the sections before the lead, the cut would be in the lead
    have hopening : k ≤ (opening before).length := Nat.le_of_not_lt fun hlt =>
      hclean.notInLead before ⟨s, after, rfl, hlt, hlast.trans hlead⟩
    by_cases hne : before = []
    · subst hne
      exact absurd hopening (Nat.not_le.mpr hclean.wordEnd.pos)
    · exact le_render_of_wordEnd hne hclean.wordEnd hopening
  | nothing hempty => exact absurd (hempty ▸ hmem) (Set.notMem_empty k)

/-- With the end of a sentence, the text goes on to the last one that fits. -/
theorem exists_sentence (hsome : endsWithin closesSentence (render ss) budget ≠ ∅) :
    ∃ k, IsGreatest (endsWithin closesSentence (render ss) budget) k ∧ out.length = k := by
  cases hout with
  | sentence hk => exact ⟨_, hk, List.length_take_of_le hk.1.1.le_length⟩
  | word hnone => exact absurd hnone hsome
  | bare hnone => exact absurd hnone hsome
  | nothing hnone =>
    refine absurd (Set.eq_empty_of_forall_notMem fun k hk => ?_) hsome
    have hword : k ∈ endsWithin closesWord (render ss) budget :=
      ⟨wordEnd_of_sentenceEnd hk.1, hk.2⟩
    exact Set.notMem_empty k (hnone ▸ hword)

theorem length_le (h : ∀ s ∈ ss, s.Proper) {more : Nat} {longer : List Char}
    (hlonger : CutTo ss more longer) (hmore : budget ≤ more) : out.length ≤ longer.length := by
  have hcut := hout.eq_nil_or_cleanCut h
  by_cases hnone : endsWithin closesSentence (render ss) more = ∅
  · rcases hcut with rfl | ⟨k, hle, hclean, rfl⟩
    · exact Nat.zero_le _
    · exact (List.length_take_le _ _).trans
        (hlonger.le_length_of_cleanCut hnone hclean (hle.trans hmore))
  · obtain ⟨last, hlast, hlength⟩ := hlonger.exists_sentence hnone
    rw [hlength]
    by_cases hnone' : endsWithin closesSentence (render ss) budget = ∅
    · -- the last sentence ends after the smaller budget
      have hlt : budget < last := Nat.lt_of_not_le fun hle =>
        Set.notMem_empty last (hnone' ▸ ⟨hlast.1.1, hle⟩)
      exact (within_of_cleanCut hcut).trans hlt.le
    · obtain ⟨k, hk, hlength⟩ := hout.exists_sentence hnone'
      exact hlength.trans_le (hlast.2 ⟨hk.1.1, hk.1.2.trans hmore⟩)

end CutTo

/-! ## The text in two budgets -/

/-- The sections that memories are given in. -/
def sectionsFor (r : RetrievalConfig) (c : ContextConfig) (now : Instant) (memories : List Memory)
    (query : String) : List Section :=
  sections c ((r.rank now query memories).map (·.1))

theorem cutTo_format (r : RetrievalConfig) (c : ContextConfig) (now : Instant)
    (memories : List Memory) (query : String) {budget : Nat}
    (h : budget < (render (sectionsFor r c now memories query)).length) :
    CutTo (sectionsFor r c now memories query) budget
      (format r c now memories query budget).toList := by
  have hproper : ∀ s ∈ sectionsFor r c now memories query, s.Proper :=
    fun s => proper_of_mem_sections
  unfold sectionsFor at h hproper ⊢
  unfold format
  dsimp only
  rw [if_neg (Nat.not_le.mpr h), String.toList_ofList]
  exact cutTo_truncate hproper h

/-- In a greater budget the text goes on where it ended in a smaller one, until it is the whole
block. -/
theorem format_grows (r : RetrievalConfig) (c : ContextConfig) (now : Instant)
    (memories : List Memory) (query : String) {less more : Nat} (h : less ≤ more) :
    (format r c now memories query less).toList <+: (format r c now memories query more).toList ∧
      ((render (sectionsFor r c now memories query)).length ≤ more →
        (format r c now memories query more).toList =
          render (sectionsFor r c now memories query)) := by
  have hless : Truncation (sectionsFor r c now memories query) less
      (format r c now memories query less).toList := format_truncates r c now memories query less
  have hmore : Truncation (sectionsFor r c now memories query) more
      (format r c now memories query more).toList := format_truncates r c now memories query more
  refine ⟨List.prefix_of_prefix_length_le hless.front hmore.front ?_, hmore.whole⟩
  by_cases hfits : (render (sectionsFor r c now memories query)).length ≤ more
  · rw [hmore.whole hfits]
    exact hless.front.length_le
  · have hlt := Nat.lt_of_not_le hfits
    exact (cutTo_format r c now memories query (h.trans_lt hlt)).length_le
      (fun s => proper_of_mem_sections) (cutTo_format r c now memories query hlt) h

/-- A memory of two sentences of which the second has no end. -/
def hotTea : Memory :=
  Store.newMemory ⟨0⟩ 1 [] { owner := "ann", content := "Tea is hot. It cools", importance := 5 }

theorem rank_singleton (r : RetrievalConfig) (now : Instant) (query : String) (m : Memory) :
    (r.rank now query [m]).map (·.1) = [m] := by
  simp [RetrievalConfig.rank]

/-- The smaller budget is cut at a word, the greater one at a sentence. -/
theorem format_grows_hotTea :
    20 ≤ 30 ∧
      (format {} {} ⟨0⟩ [hotTea] "" 20).toList <+: (format {} {} ⟨0⟩ [hotTea] "" 30).toList ∧
      format {} {} ⟨0⟩ [hotTea] "" 20 = "**Insight:** Tea is" ∧
      format {} {} ⟨0⟩ [hotTea] "" 30 = "**Insight:** Tea is hot." := by
  refine ⟨by decide, (format_grows {} {} ⟨0⟩ [hotTea] "" (by decide)).1, ?_, ?_⟩
  · simp only [format, rank_singleton]
    decide
  · simp only [format, rank_singleton]
    decide

end LongTermMemory.ContextBlock
