import LongTermMemory.Proofs.ContextBlock.Gathering
import LongTermMemory.Proofs.ContextBlock.Layout

/-!
Truncation: what a block of text becomes in a budget of characters. It is cut at the end of the
last sentence that fits, else of the last word, and no section is left with a lead alone.
-/

namespace LongTermMemory.ContextBlock

open LongTermMemory.Text (isBlank trimEnd)

/-- The text `out` is what a budget leaves of a block of sections. -/
structure Truncation (ss : List Section) (budget : Nat) (out : List Char) : Prop where
  within : out.length ≤ budget
  front : out <+: render ss
  whole : (render ss).length ≤ budget → out = render ss
  sentence : budget < (render ss).length → ∀ k,
    IsGreatest (endsWithin closesSentence (render ss) budget) k → out = (render ss).take k
  /-- A word in the lead of a section does not count: the text ends with the section before. -/
  word : budget < (render ss).length → (∀ k ≤ budget, ¬ SentenceEnd (render ss) k) → ∀ k,
    IsGreatest (endsWithin closesWord (render ss) budget) k →
      (∀ before, InLead ss k before → out = render before) ∧
      ((∀ before, ¬ InLead ss k before) → out = (render ss).take k)
  noWord : budget < (render ss).length → (∀ k ≤ budget, ¬ WordEnd (render ss) k) → out = []
  wordEnd : out ≠ [] → WordEnd (render ss) out.length
  /-- Of each section there is nothing, or its lead and at least one more character. -/
  sections : ∀ before s after, ss = before ++ s :: after → out.length ≤ (opening before).length ∨
    ∃ c, s.lead ++ [c] <+: s.text ∧ opening before ++ s.lead ++ [c] <+: out
  /-- There is nothing only where no word of the first section fits. -/
  empty : out = [] ↔ render ss = [] ∨ ∀ s after, ss = s :: after →
    ∀ k ≤ budget, WordEnd (render ss) k → k ≤ s.lead.length

/-- What becomes of a block in a budget that is too small for it. -/
inductive CutTo (ss : List Section) (budget : Nat) : List Char → Prop
  | sentence {k : Nat} (hk : IsGreatest (endsWithin closesSentence (render ss) budget) k) :
      CutTo ss budget ((render ss).take k)
  | word {k : Nat} (hnone : endsWithin closesSentence (render ss) budget = ∅)
      (hk : IsGreatest (endsWithin closesWord (render ss) budget) k)
      (hnot : ∀ before, ¬ InLead ss k before) : CutTo ss budget ((render ss).take k)
  | bare {k : Nat} {before : List Section}
      (hnone : endsWithin closesSentence (render ss) budget = ∅)
      (hk : IsGreatest (endsWithin closesWord (render ss) budget) k)
      (hin : InLead ss k before) : CutTo ss budget (render before)
  | nothing (hnone : endsWithin closesWord (render ss) budget = ∅) : CutTo ss budget []

/-! ## The sections of memories -/

theorem heading_proper (g : DisplayGroup) : g.heading.toList.any closesSentence = false := by
  cases g with
  | toolPreference => decide
  | communicationStyle => decide
  | type t => cases t <;> decide

theorem proper_of_mem_sections {c : ContextConfig} {ranked : List Memory} {s : Section}
    (h : s ∈ sections c ranked) : s.Proper := by
  rw [sections_eq] at h
  obtain ⟨g, hg, rfl⟩ := List.mem_map.mp h
  refine ⟨heading_proper g, ?_, fun item hitem => ?_⟩
  · simpa [contents] using (List.mem_filter.mp hg).2
  · obtain ⟨m, hm, rfl⟩ := List.mem_map.mp hitem
    obtain ⟨-, -, hblank⟩ := mem_shown hm
    exact ⟨by simpa [Text.blank] using hblank, Text.trim_trim _⟩

/-! ## Cuts -/

/-- What is left of a block that is cut at a position. -/
def cutAt (ss : List Section) (k : Nat) : List Char :=
  trimEnd ((render ss).take (withoutBareLead k (spansFrom 0 ss).reverse))

theorem truncate_eq (ss : List Section) {budget : Nat} (h : budget < (render ss).length) :
    truncate ss budget = (cutPoint (render ss) budget).elim [] (cutAt ss) := by
  unfold truncate
  dsimp only
  rw [Nat.min_eq_left (Nat.le_of_lt h)]
  cases cutPoint (render ss) budget <;> rfl

/-- A word ends at the position, and it lies in no lead. -/
structure CleanCut (ss : List Section) (k : Nat) : Prop where
  wordEnd : WordEnd (render ss) k
  notInLead : ∀ before, ¬ InLead ss k before

variable {ss : List Section} {k : Nat}

/-- A clean cut is made where it is. -/
theorem CleanCut.cutAt_eq (hk : CleanCut ss k) : cutAt ss k = (render ss).take k := by
  obtain ⟨front, c, htake, hc⟩ := hk.wordEnd.take
  rw [cutAt, withoutBareLead_of_not_inLead hk.notInLead, htake]
  exact Text.trimEnd_concat front (by simpa [closesWord] using hc)

/-- What a clean cut leaves has of each section nothing, or its lead and more. -/
theorem CleanCut.sections (hk : CleanCut ss k) (h : ∀ s ∈ ss, s.Proper)
    {before after : List Section} {s : Section} (hss : ss = before ++ s :: after) :
    k ≤ (opening before).length ∨
      ∃ c, s.lead ++ [c] <+: s.text ∧
        opening before ++ s.lead ++ [c] <+: (render ss).take k := by
  rcases Nat.lt_or_ge (opening before).length k with hlt | hle
  · have hlead : (opening before).length + s.lead.length < k :=
      Nat.lt_of_not_le fun hle => hk.notInLead before ⟨s, after, hss, hlt, hle⟩
    obtain ⟨front, last, htext, -⟩ := (h s (by simp [hss])).text_eq
    obtain ⟨c, body, hbody⟩ : ∃ c body, front ++ [last] = c :: body :=
      List.exists_cons_of_ne_nil (by simp)
    obtain ⟨rest, hrest⟩ := exists_render_cons s after
    have hs : s.text = s.lead ++ [c] ++ body := by
      rw [htext, List.append_assoc, hbody]
      simp
    refine Or.inr ⟨c, ⟨body, hs.symm⟩, List.prefix_take_iff.mpr ⟨?_, ?_⟩⟩
    · rw [hss, render_append, hrest, hs]
      exact ⟨body ++ rest, by simp⟩
    · simp only [List.length_append, List.length_singleton]
      omega
  · exact Or.inl hle

section Left

variable {budget : Nat} {out : List Char}
  (hcut : out = [] ∨ ∃ k ≤ budget, CleanCut ss k ∧ out = (render ss).take k)
include hcut

theorem within_of_cleanCut : out.length ≤ budget := by
  rcases hcut with rfl | ⟨k, hle, -, rfl⟩
  · exact Nat.zero_le _
  · exact (List.length_take_le k _).trans hle

theorem front_of_cleanCut : out <+: render ss := by
  rcases hcut with rfl | ⟨k, -, -, rfl⟩
  · exact List.nil_prefix
  · exact List.take_prefix k _

theorem wordEnd_of_cleanCut (hne : out ≠ []) : WordEnd (render ss) out.length := by
  rcases hcut with rfl | ⟨k, -, hk, rfl⟩
  · exact absurd rfl hne
  · rw [List.length_take, Nat.min_eq_left hk.wordEnd.le_length]
    exact hk.wordEnd

theorem sections_of_cleanCut (h : ∀ s ∈ ss, s.Proper) (before : List Section) (s : Section)
    (after : List Section) (hss : ss = before ++ s :: after) :
    out.length ≤ (opening before).length ∨
      ∃ c, s.lead ++ [c] <+: s.text ∧ opening before ++ s.lead ++ [c] <+: out := by
  rcases hcut with rfl | ⟨k, -, hk, rfl⟩
  · exact Or.inl (Nat.zero_le _)
  · exact (hk.sections h hss).imp_left (List.length_take_le k _).trans

theorem empty_iff_of_cleanCut (hword : ∀ s after, ss = s :: after → ∀ k ≤ budget,
    WordEnd (render ss) k → s.lead.length < k → out ≠ []) :
    out = [] ↔ render ss = [] ∨ ∀ s after, ss = s :: after →
      ∀ k ≤ budget, WordEnd (render ss) k → k ≤ s.lead.length := by
  constructor
  · intro hnil
    refine Or.inr fun s after hss k hle hk => Nat.le_of_not_lt fun hlead => ?_
    exact hword s after hss k hle hk hlead hnil
  · intro hnone
    rcases hcut with hnil | ⟨k, hle, hk, rfl⟩
    · exact hnil
    · -- the first section has a word that ends at the cut
      exfalso
      rcases hnone with hnil | hnone
      · have hpos := Nat.lt_of_lt_of_le hk.wordEnd.pos hk.wordEnd.le_length
        rw [hnil] at hpos
        exact absurd hpos (Nat.lt_irrefl 0)
      · cases ss with
        | nil => exact absurd hk.wordEnd.le_length (Nat.not_le.mpr hk.wordEnd.pos)
        | cons s after =>
          have hlead := hnone s after rfl k hle hk.wordEnd
          exact hk.notInLead [] ⟨s, after, rfl, hk.wordEnd.pos, by simpa [opening] using hlead⟩

end Left

section Proper

variable (h : ∀ s ∈ ss, s.Proper)
include h

/-- No sentence ends in a lead. -/
theorem cleanCut_of_sentenceEnd (hk : SentenceEnd (render ss) k) : CleanCut ss k := by
  refine ⟨wordEnd_of_sentenceEnd hk, ?_⟩
  rintro before ⟨s, after, rfl, hstart, hle⟩
  obtain ⟨c, hc, hcloses⟩ := hk.getElem
  obtain ⟨rest, hrest⟩ := exists_render_cons s after
  rw [render_append, hrest, Section.text, List.getElem?_append_right (by omega),
    List.append_assoc, List.getElem?_append_left (by omega)] at hc
  have hlead := List.any_eq_false.mp (h s (by simp)).not_closesSentence
  exact hlead c (List.mem_of_getElem? hc) hcloses

/-- The end of the block is a clean cut. -/
theorem cleanCut_length (hne : ss ≠ []) : CleanCut ss (render ss).length := by
  obtain ⟨front, c, hrender, hc⟩ := render_eq h hne
  refine ⟨⟨front, c, [], hrender, by simp [hrender], by simp [closesWord, hc], by simp⟩, ?_⟩
  rintro before ⟨s, after, rfl, -, hle⟩
  obtain ⟨rest, hrest⟩ := exists_render_cons s after
  have hlt := (h s (by simp)).lead_lt_text
  rw [render_append, hrest] at hle
  simp only [List.length_append] at hle
  omega

/-- The end of the last section before a lead is a clean cut. -/
theorem cleanCut_of_inLead {before : List Section} (hin : InLead ss k before) (hne : before ≠ []) :
    CleanCut ss (render before).length ∧ (render before).length ≤ k ∧
      render before = (render ss).take (render before).length := by
  obtain ⟨s, after, rfl, hstart, -⟩ := hin
  have hopening := opening_eq hne
  have hsplit : render (before ++ s :: after) =
      render before ++ (separator ++ render (s :: after)) := by
    rw [render_append, hopening, List.append_assoc]
  obtain ⟨front, c, hrender, hc⟩ := render_eq (fun t ht => h t (by simp [ht])) hne
  refine ⟨⟨⟨front, c, separator ++ render (s :: after), ?_, by simp [hrender],
    by simp [closesWord, hc], ?_⟩, ?_⟩, ?_, by rw [hsplit, List.take_left]⟩
  · rw [hsplit, hrender]
    simp
  · intro b hb
    have hb : b = '\n' := by simpa [separator] using hb.symm
    rw [hb]
    decide
  · -- Any lead lies before the end of a section of `before` or after all of them.
    rintro before' ⟨s', after', hss, hlt, hle⟩
    rcases List.append_eq_append_iff.mp hss with ⟨more, rfl, -⟩ | ⟨more, rfl, hmore⟩
    · rw [opening, List.flatMap_append, ← opening, hopening] at hlt
      simp only [List.length_append] at hlt
      omega
    · cases more with
      | nil =>
        rw [List.append_nil] at hopening hlt
        simp only [hopening, List.length_append] at hlt
        omega
      | cons t more =>
        obtain ⟨rfl, -⟩ := List.cons.inj hmore
        obtain ⟨rest, hrest⟩ := exists_render_cons s' more
        have htext := (h s' (by simp)).lead_lt_text
        rw [render_append, hrest] at hle
        simp only [List.length_append] at hle
        omega
  · rw [hopening] at hstart
    simp only [List.length_append] at hstart
    omega

/-- A cut in a lead leaves the sections before. -/
theorem cutAt_of_inLead {before : List Section} (hin : InLead ss k before) :
    cutAt ss k = render before := by
  rw [cutAt, withoutBareLead_of_inLead h hin]
  obtain ⟨s, after, rfl, -⟩ := hin
  rw [render_append, List.take_left]
  by_cases hne : before = []
  · subst hne
    rfl
  · obtain ⟨front, c, hrender, hc⟩ := render_eq (fun t ht => h t (by simp [ht])) hne
    have hblank : ∀ b ∈ separator, isBlank b = true := List.all_eq_true.mp rfl
    rw [opening_eq hne, Text.trimEnd_append_blanks _ hblank, hrender, Text.trimEnd_concat _ hc]

/-! ## Budgets -/

theorem cutTo_truncate {budget : Nat} (hbudget : budget < (render ss).length) :
    CutTo ss budget (truncate ss budget) := by
  rw [truncate_eq ss hbudget, cutPoint]
  cases hsentence : lastBefore (endsSentence (render ss)) budget with
  | some k =>
    have hk : IsGreatest (endsWithin closesSentence (render ss) budget) k :=
      lastEnd_eq_some hsentence
    show CutTo ss budget (cutAt ss k)
    rw [(cleanCut_of_sentenceEnd h hk.1.1).cutAt_eq]
    exact .sentence hk
  | none =>
    have hnone : endsWithin closesSentence (render ss) budget = ∅ := lastEnd_eq_none hsentence
    cases hword : lastBefore (endsWord (render ss)) budget with
    | none => exact .nothing (lastEnd_eq_none hword)
    | some k =>
      have hk : IsGreatest (endsWithin closesWord (render ss) budget) k := lastEnd_eq_some hword
      show CutTo ss budget (cutAt ss k)
      by_cases hin : ∃ before, InLead ss k before
      · obtain ⟨before, hin⟩ := hin
        rw [cutAt_of_inLead h hin]
        exact .bare hnone hk hin
      · have hclean : CleanCut ss k := ⟨hk.1.1, not_exists.mp hin⟩
        rw [hclean.cutAt_eq]
        exact .word hnone hk hclean.notInLead

/-- What is left of a block is nothing, or the block up to a clean cut within the budget. -/
theorem CutTo.eq_nil_or_cleanCut {budget : Nat} {out : List Char} (hout : CutTo ss budget out) :
    out = [] ∨ ∃ k ≤ budget, CleanCut ss k ∧ out = (render ss).take k := by
  cases hout with
  | sentence hk => exact Or.inr ⟨_, hk.1.2, cleanCut_of_sentenceEnd h hk.1.1, rfl⟩
  | word hnone hk hnot => exact Or.inr ⟨_, hk.1.2, ⟨hk.1.1, hnot⟩, rfl⟩
  | @bare k before hnone hk hin =>
    by_cases hne : before = []
    · exact Or.inl (by rw [hne]; rfl)
    · obtain ⟨hclean, hle, heq⟩ := cleanCut_of_inLead h hin hne
      exact Or.inr ⟨_, Nat.le_trans hle hk.1.2, hclean, heq⟩
  | nothing => exact Or.inl rfl

/-- A word of the first section that fits is not lost. -/
theorem CutTo.ne_nil {budget : Nat} {out : List Char} (hout : CutTo ss budget out) {s : Section}
    {after : List Section} (hss : ss = s :: after) (hword : WordEnd (render ss) k)
    (hle : k ≤ budget) (hlead : s.lead.length < k) : out ≠ [] := by
  have htake {j : Nat} (hj : 0 < j) : (render ss).take j ≠ [] := by
    have hne := List.ne_nil_of_length_pos (Nat.lt_of_lt_of_le hword.pos hword.le_length)
    simp [List.take_eq_nil_iff, hne, Nat.pos_iff_ne_zero.mp hj]
  cases hout with
  | sentence hk => exact htake hk.1.1.pos
  | word hnone hk hnot => exact htake hk.1.1.pos
  | @bare j before hnone hk hin =>
    by_cases hne : before = []
    · -- the lead of the first section ends before the word
      have hkj : k ≤ j := hk.2 ⟨hword, hle⟩
      obtain ⟨t, rest, hsplit, -, hjlead⟩ := hin
      subst hne
      obtain ⟨rfl, -⟩ := List.cons.inj (hss.symm.trans hsplit)
      simp only [opening, List.flatMap_nil, List.length_nil] at hjlead
      omega
    · obtain ⟨hclean, -, heq⟩ := cleanCut_of_inLead h hin hne
      rw [heq]
      exact htake hclean.wordEnd.pos
  | nothing hnone =>
    have hmem : k ∈ endsWithin closesWord (render ss) budget := ⟨hword, hle⟩
    rw [hnone] at hmem
    exact absurd hmem (Set.notMem_empty k)

theorem truncation_of_cutTo {budget : Nat} (hbudget : budget < (render ss).length) {out : List Char}
    (hout : CutTo ss budget out) : Truncation ss budget out := by
  have hcut := hout.eq_nil_or_cleanCut h
  refine
    { within := within_of_cleanCut hcut
      front := front_of_cleanCut hcut
      whole := fun hle => absurd hbudget (Nat.not_lt.mpr hle)
      sentence := fun _ k hk => ?_
      word := fun _ hnone k hk => ?_
      noWord := fun _ hnone => ?_
      wordEnd := wordEnd_of_cleanCut hcut
      sections := sections_of_cleanCut hcut h
      empty := empty_iff_of_cleanCut hcut fun s after hss k hle hword hlead =>
        hout.ne_nil h hss hword hle hlead }
  · have hmem : k ∉ (∅ : Set Nat) := Set.notMem_empty k
    cases hout with
    | sentence hk' => rw [hk.unique hk']
    | word hnone => exact absurd (hnone ▸ hk.1) hmem
    | bare hnone => exact absurd (hnone ▸ hk.1) hmem
    | nothing hnone => exact absurd (hnone ▸ ⟨wordEnd_of_sentenceEnd hk.1.1, hk.1.2⟩) hmem
  · cases hout with
    | sentence hk' => exact absurd hk'.1.1 (hnone _ hk'.1.2)
    | word _ hk' hnot =>
      rw [hk.unique hk']
      exact ⟨fun before hin => absurd hin (hnot before), fun _ => rfl⟩
    | @bare k' before' _ hk' hin' =>
      rw [hk.unique hk']
      refine ⟨fun before hin => ?_, fun hnot => absurd hin' (hnot before')⟩
      rw [← cutAt_of_inLead h hin', cutAt_of_inLead h hin]
    | nothing hempty => exact absurd (hempty ▸ hk.1) (Set.notMem_empty k)
  · cases hout with
    | sentence hk => exact absurd (wordEnd_of_sentenceEnd hk.1.1) (hnone _ hk.1.2)
    | word _ hk => exact absurd hk.1.1 (hnone _ hk.1.2)
    | bare _ hk => exact absurd hk.1.1 (hnone _ hk.1.2)
    | nothing => rfl

theorem truncation_render {budget : Nat} (hbudget : (render ss).length ≤ budget) :
    Truncation ss budget (render ss) := by
  have hcut : render ss = [] ∨
      ∃ k ≤ budget, CleanCut ss k ∧ render ss = (render ss).take k := by
    by_cases hne : ss = []
    · exact Or.inl (by rw [hne]; rfl)
    · exact Or.inr ⟨_, hbudget, cleanCut_length h hne, List.take_length.symm⟩
  have hnot {P : Prop} : budget < (render ss).length → P := fun hlt =>
    absurd hlt (Nat.not_lt.mpr hbudget)
  exact
    { within := hbudget
      front := List.prefix_refl _
      whole := fun _ => rfl
      sentence := hnot
      word := hnot
      noWord := hnot
      wordEnd := wordEnd_of_cleanCut hcut
      sections := sections_of_cleanCut hcut h
      empty := empty_iff_of_cleanCut hcut fun s after hss k hle hword hlead =>
        List.ne_nil_of_length_pos (Nat.lt_of_lt_of_le hword.pos hword.le_length) }

end Proper

/-- Whatever the memories, the query, the time and the configurations, the text in a budget is the
block of all sections as far as the budget lets it be. -/
theorem format_truncates (r : RetrievalConfig) (c : ContextConfig) (now : Instant)
    (memories : List Memory) (query : String) (budget : Nat) :
    Truncation (sections c ((r.rank now query memories).map (·.1))) budget
      (format r c now memories query budget).toList := by
  have hproper : ∀ s ∈ sections c ((r.rank now query memories).map (·.1)), s.Proper :=
    fun s => proper_of_mem_sections
  unfold format
  dsimp only
  rw [String.toList_ofList]
  split
  · next hfits => exact truncation_render hproper hfits
  · next hfits =>
    have hbudget := Nat.lt_of_not_le hfits
    exact truncation_of_cutTo hproper hbudget (cutTo_truncate hproper hbudget)

end LongTermMemory.ContextBlock
