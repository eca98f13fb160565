import LongTermMemory.Classification
import LongTermMemory.Proofs.Ascending
import LongTermMemory.Proofs.Text.Runs
import Mathlib.Data.List.Nodup
import Mathlib.Data.List.Pairwise

/-!
Categories and topics of contents. The category is the first of those with the most keywords among
the tokens; no keyword is one of two categories, so that a keyword of its own never takes a category
away from a content. Topics only become more as a content grows.
-/

namespace LongTermMemory

variable {t t' : String}

/-! ## Tokens -/

namespace Text

theorem runs_append_of_none {p : Char → Bool} {cs : List Char} (h : ∀ c ∈ cs, p c = false)
    (ds : List Char) : runs p (cs ++ ds) = runs p ds := by
  induction cs with
  | nil => rfl
  | cons c cs ih =>
    obtain ⟨hc, hcs⟩ := List.forall_mem_cons.mp h
    have hfront : runs p (c :: (cs ++ ds)) = runs p [] ++ runs p (cs ++ ds) :=
      runs_append hc [] (cs ++ ds)
    rw [List.cons_append, hfront, ih hcs]
    rfl

theorem runs_of_forall {p : Char → Bool} {cs : List Char} (hne : cs ≠ [])
    (h : ∀ c ∈ cs, p c = true) : runs p cs = [cs] := by
  have hsplit : splitRuns p cs = (cs, []) := by
    clear hne
    induction cs with
    | nil => rfl
    | cons c cs ih =>
      obtain ⟨hc, hcs⟩ := List.forall_mem_cons.mp h
      simp only [splitRuns, ih hcs, hc, if_true]
  simp [runs, hsplit, hne]

/-- A small letter is a character of tokens, and lowering leaves it alone. -/
theorem tokenChar_and_lowered_of_letter {c : Char} (h : 'a' ≤ c ∧ c ≤ 'z') :
    isTokenChar c = true ∧ Lowered c := by
  have hlow : 97 ≤ c.toNat := h.1
  have hhigh : c.toNat ≤ 122 := h.2
  have hletter : alphabetic.contains c.toNat = true :=
    Ranges.contains_of_uniform (by decide) hlow hhigh
  have hstill : CaseRun.apply lowercaseRuns c.toNat = (c.toNat + 0 : Int).toNat :=
    CaseRun.apply_of_shifts (by decide) hlow hhigh (Nat.mod_one _)
  refine ⟨by simp [isTokenChar, isAlphanumeric, hletter], ?_, ?_, lowerChar_of_toNat hstill⟩
  · rintro rfl
    exact absurd hhigh (by decide)
  · rintro rfl
    exact absurd hhigh (by decide)

/-- A word of small letters is one token. -/
theorem tokens_of_letters {word : String} (hne : word ≠ "")
    (h : ∀ c ∈ word.toList, 'a' ≤ c ∧ c ≤ 'z') : tokens word = [word] := by
  have hletters := fun c hc => tokenChar_and_lowered_of_letter (h c hc)
  have hruns : runs isTokenChar word.toList = [word.toList] :=
    runs_of_forall (mt String.toList_eq_nil_iff.mp hne) fun c hc => (hletters c hc).1
  rw [tokens, hruns, List.map_singleton, String.ofList_toList, lowercase,
    lowerFrom_of_lowered fun c hc => (hletters c hc).2, String.ofList_toList]

/-- A text between two others that holds no character of tokens. -/
def Separator (s : String) : Prop := s ≠ "" ∧ ∀ c ∈ s.toList, isTokenChar c = false

theorem separator_blank : Separator " " := by
  refine ⟨by decide, fun c hc => ?_⟩
  obtain rfl : c = ' ' := by simpa using hc
  decide

theorem tokens_append {sep : String} (hsep : Separator sep) (a b : String) :
    tokens (a ++ sep ++ b) = tokens a ++ tokens b := by
  obtain ⟨hne, hnone⟩ := hsep
  have htext : (a ++ sep ++ b).toList = a.toList ++ (sep.toList ++ b.toList) := by simp
  rw [tokens, tokens, tokens, ← List.map_append, htext]
  cases hchars : sep.toList with
  | nil => exact absurd (String.toList_eq_nil_iff.mp hchars) hne
  | cons c cs =>
    rw [hchars] at hnone
    obtain ⟨hc, hcs⟩ := List.forall_mem_cons.mp hnone
    rw [List.cons_append, runs_append hc, runs_append_of_none hcs]

/-- Words that are put together have the tokens of each of them. -/
theorem mem_tokens_intercalate {sep : String} (hsep : Separator sep) {word : String}
    {words : List String} :
    word ∈ tokens (sep.intercalate words) ↔ ∃ w ∈ words, word ∈ tokens w := by
  induction words with
  | nil => simp [tokens, runs, splitRuns]
  | cons first rest ih =>
    cases rest with
    | nil => simp
    | cons second rest =>
      rw [String.intercalate_cons_cons, tokens_append hsep, List.mem_append, ih]
      simp

end Text

/-- The first of the members of a list with the greatest value. -/
theorem exists_first_most {α : Type} (f : α → Nat) {l : List α} (h : l ≠ []) :
    ∃ before a after, l = before ++ a :: after ∧ (∀ b ∈ before, f b < f a) ∧
      ∀ b ∈ after, f b ≤ f a := by
  induction l with
  | nil => exact absurd rfl h
  | cons x rest ih =>
    by_cases hrest : rest = []
    · exact ⟨[], x, [], by rw [hrest]; rfl, by simp, by simp⟩
    obtain ⟨before, a, after, rfl, hbefore, hafter⟩ := ih hrest
    by_cases hx : f a ≤ f x
    · refine ⟨[], x, before ++ a :: after, rfl, by simp, fun b hb => ?_⟩
      rcases List.mem_append.mp hb with hb | hb
      · exact Nat.le_of_lt (Nat.lt_of_lt_of_le (hbefore b hb) hx)
      · rcases List.mem_cons.mp hb with rfl | hb
        · exact hx
        · exact Nat.le_trans (hafter b hb) hx
    · exact ⟨x :: before, a, after, rfl,
        List.forall_mem_cons.mpr ⟨Nat.not_le.mp hx, hbefore⟩, hafter⟩

namespace Classifier

/-! ## Keywords -/

/-- How many of some keywords are tokens of a text. -/
def occurring (t : String) (keywords : List String) : Nat :=
  keywords.countP fun k => k ∈ Text.tokens t

/-- No keyword is one of two categories, or twice one of a category. -/
theorem nodup_keywords : (categoryKeywords.flatMap (·.2)).Nodup := by decide

/-- No two categories have one name, and none has that of the general one. -/
theorem nodup_categories : (generalCategory :: categoryKeywords.map (·.1)).Nodup := by
  decide

theorem ne_general {entry : String × List String} (h : entry ∈ categoryKeywords) :
    entry.1 ≠ generalCategory := fun heq =>
  (List.nodup_cons.mp nodup_categories).1 (List.mem_map.mpr ⟨entry, h, heq⟩)

theorem eq_of_name {entry other : String × List String} (h : entry ∈ categoryKeywords)
    (hother : other ∈ categoryKeywords) (hname : other.1 = entry.1) : other = entry :=
  List.inj_on_of_nodup_map (List.nodup_cons.mp nodup_categories).2 hother h hname

theorem eq_of_keyword {entry other : String × List String} (h : entry ∈ categoryKeywords)
    (hother : other ∈ categoryKeywords) {k : String} (hk : k ∈ entry.2) (hk' : k ∈ other.2) :
    other = entry := by
  have : Std.Symm (Function.onFun List.Disjoint fun e : String × List String => e.2) :=
    ⟨fun _ _ => List.disjoint_symm⟩
  by_contra hne
  exact (List.nodup_flatMap.mp nodup_keywords).2.forall hother h hne hk' hk

theorem letters_of_keyword : ∀ entry ∈ categoryKeywords, ∀ k ∈ entry.2,
    k ≠ "" ∧ (k.toList.all fun c => 'a' ≤ c ∧ c ≤ 'z') = true := by
  decide

/-- Each keyword is one token. -/
theorem tokens_keyword {entry : String × List String} (h : entry ∈ categoryKeywords) {k : String}
    (hk : k ∈ entry.2) : Text.tokens k = [k] := by
  obtain ⟨hne, hletters⟩ := letters_of_keyword entry h k hk
  exact Text.tokens_of_letters hne fun c hc =>
    of_decide_eq_true (List.all_eq_true.mp hletters c hc)

/-- Tokens that are keywords are as many as keywords that are tokens. -/
theorem hits_tokenSet (t : String) {keywords : List String} (h : keywords.Nodup) :
    hits (Text.tokenSet t) keywords = occurring t keywords := by
  rw [hits, occurring, List.countP_eq_length_filter, List.countP_eq_length_filter]
  refine List.Perm.length_eq ((List.perm_ext_iff_of_nodup
    ((Ascending.nodup_ofList _).filter _) (h.filter _)).mpr fun k => ?_)
  simp [and_comm]

theorem hits_of_mem {entry : String × List String} (h : entry ∈ categoryKeywords) :
    hits (Text.tokenSet t) entry.2 = occurring t entry.2 :=
  hits_tokenSet t ((List.nodup_flatMap.mp nodup_keywords).1 entry h)

theorem occurring_eq_zero {keywords : List String} :
    occurring t keywords = 0 ↔ ∀ k ∈ keywords, k ∉ Text.tokens t := by
  simp [occurring, List.countP_eq_zero]

theorem occurring_append_le (t u : String) (keywords : List String) :
    occurring t keywords ≤ occurring (t ++ " " ++ u) keywords := by
  refine List.countP_mono_left fun k _ hk => ?_
  rw [Text.tokens_append Text.separator_blank]
  simp only [decide_eq_true_eq, List.mem_append] at hk ⊢
  exact Or.inl hk

/-- A token that is no keyword of theirs adds nothing to some keywords. -/
theorem occurring_append_of_not_mem {u : String} {keywords : List String}
    (htokens : Text.tokens u = [u]) (h : u ∉ keywords) :
    occurring (t ++ " " ++ u) keywords = occurring t keywords := by
  refine List.countP_congr fun k hk => ?_
  have hne : k ≠ u := fun heq => h (heq ▸ hk)
  simp [Text.tokens_append Text.separator_blank, htokens, hne]

/-! ## Categories -/

/-- The first of the categories with the most keywords among the tokens of a text, at least one. -/
def Leads (t : String) (entry : String × List String) : Prop :=
  ∃ before after, categoryKeywords = before ++ entry :: after ∧ 0 < occurring t entry.2 ∧
    (∀ other ∈ before, occurring t other.2 < occurring t entry.2) ∧
    ∀ other ∈ after, occurring t other.2 ≤ occurring t entry.2

theorem Leads.mem {entry : String × List String} (h : Leads t entry) :
    entry ∈ categoryKeywords := by
  obtain ⟨before, after, htable, -⟩ := h
  simp [htable]

section Scan

variable {tokens : List String} {entries : List (String × List String)}
  {best : Option (String × Nat)}

/-- What has no more hits does not take the place of the best. -/
theorem foldl_better_of_le (h : ∀ entry ∈ entries, hits tokens entry.2 ≤ best.elim 0 (·.2)) :
    entries.foldl (better tokens) best = best := by
  induction entries with
  | nil => rfl
  | cons entry rest ih =>
    obtain ⟨hentry, hrest⟩ := List.forall_mem_cons.mp h
    rw [List.foldl_cons, better, if_neg (Nat.not_lt.mpr hentry), ih hrest]

theorem foldl_better_lt {n : Nat} (hbest : best.elim 0 (·.2) < n)
    (h : ∀ entry ∈ entries, hits tokens entry.2 < n) :
    (entries.foldl (better tokens) best).elim 0 (·.2) < n := by
  induction entries generalizing best with
  | nil => exact hbest
  | cons entry rest ih =>
    obtain ⟨hentry, hrest⟩ := List.forall_mem_cons.mp h
    refine ih ?_ hrest
    unfold better
    dsimp only
    split
    · exact hentry
    · exact hbest

end Scan

/-- The scan of the table ends with the category that leads. -/
theorem Leads.classifyCategory_eq {entry : String × List String} (h : Leads t entry) :
    classifyCategory t = entry.1 := by
  have hentry := hits_of_mem (t := t) h.mem
  obtain ⟨before, after, htable, hpos, hbefore, hafter⟩ := h
  have hhits : ∀ other ∈ before ++ entry :: after,
      hits (Text.tokenSet t) other.2 = occurring t other.2 :=
    fun other hother => hits_of_mem (htable ▸ hother)
  have hless : (before.foldl (better (Text.tokenSet t)) none).elim 0 (·.2) <
      hits (Text.tokenSet t) entry.2 := by
    rw [hentry]
    refine foldl_better_lt hpos fun other hother => ?_
    rw [hhits other (by simp [hother])]
    exact hbefore other hother
  have hlater : ∀ other ∈ after, hits (Text.tokenSet t) other.2 ≤
      (some (entry.1, hits (Text.tokenSet t) entry.2)).elim 0 (·.2) := by
    intro other hother
    rw [Option.elim_some, hentry, hhits other (by simp [hother])]
    exact hafter other hother
  rw [classifyCategory, htable, List.foldl_append, List.foldl_cons, better, if_pos hless,
    foldl_better_of_le hlater]
  rfl

/-- Without keywords the category is the general one; otherwise some category leads. -/
theorem exists_leads (t : String) :
    (∀ entry ∈ categoryKeywords, occurring t entry.2 = 0) ∧
        classifyCategory t = generalCategory ∨
      ∃ entry, Leads t entry := by
  have hsome : categoryKeywords ≠ [] := List.cons_ne_nil _ _
  obtain ⟨before, entry, after, htable, hbefore, hafter⟩ :=
    exists_first_most (fun entry => occurring t entry.2) hsome
  rcases Nat.eq_zero_or_pos (occurring t entry.2) with hzero | hpos
  · have hall : ∀ other ∈ categoryKeywords, occurring t other.2 = 0 := by
      intro other hother
      rw [htable] at hother
      rcases List.mem_append.mp hother with hother | hother
      · have := hbefore other hother
        omega
      · rcases List.mem_cons.mp hother with rfl | hother
        · exact hzero
        · have := hafter other hother
          omega
    refine Or.inl ⟨hall, ?_⟩
    rw [classifyCategory, foldl_better_of_le fun other hother => by
      rw [hits_of_mem hother, hall other hother]
      exact Nat.zero_le _]
    rfl
  · exact Or.inr ⟨entry, before, after, htable, hpos, hbefore, hafter⟩

/-- A category that leads goes on leading when one of its keywords is added. -/
theorem Leads.append_keyword {entry : String × List String} (h : Leads t entry) {k : String}
    (hk : k ∈ entry.2) : Leads (t ++ " " ++ k) entry := by
  have hmem := h.mem
  obtain ⟨before, after, htable, hpos, hbefore, hafter⟩ := h
  have hmore := occurring_append_le t k entry.2
  have hothers : ∀ other ∈ categoryKeywords, other ≠ entry →
      occurring (t ++ " " ++ k) other.2 = occurring t other.2 := fun other hother hne =>
    occurring_append_of_not_mem (tokens_keyword hmem hk)
      fun hin => hne (eq_of_keyword hmem hother hk hin)
  refine ⟨before, after, htable, Nat.lt_of_lt_of_le hpos hmore, fun other hother => ?_,
    fun other hother => ?_⟩
  · have hless := hbefore other hother
    have hne : other ≠ entry := fun heq => by simp [heq] at hless
    rw [hothers other (by simp [htable, hother]) hne]
    omega
  · by_cases hsame : other = entry
    · rw [hsame]
    · have hle := hafter other hother
      rw [hothers other (by simp [htable, hother]) hsame]
      omega

theorem classifyCategory_congr (htokens : ∀ word, word ∈ Text.tokens t' ↔ word ∈ Text.tokens t) :
    classifyCategory t' = classifyCategory t := by
  have hset : Text.tokenSet t' = Text.tokenSet t := Ascending.ofList_congr htokens
  rw [classifyCategory, hset, classifyCategory]

/-! ## Topics -/

theorem keywordTags_congr (htokens : ∀ word, word ∈ Text.tokens t' ↔ word ∈ Text.tokens t) :
    keywordTags t' = keywordTags t := by
  have hset : Text.tokenSet t' = Text.tokenSet t := Ascending.ofList_congr htokens
  rw [keywordTags, hset, keywordTags]

theorem keywordTags_sublist_append (t u : String) :
    (keywordTags t).Sublist (keywordTags (t ++ " " ++ u)) := by
  refine List.Sublist.map _ (List.monotone_filter_right _ fun entry hentry => ?_)
  obtain ⟨k, hk, hkeyword⟩ := List.any_eq_true.mp hentry
  refine List.any_eq_true.mpr ⟨k, ?_, hkeyword⟩
  rw [Text.tokenSet, Ascending.mem_ofList] at hk ⊢
  rw [Text.tokens_append Text.separator_blank]
  exact List.mem_append_left _ hk

/-! ## What a classification is -/

/-- The category of a text is the first one with the most keywords among its tokens, and the general
one just when no keyword is a token. Category and topics depend on the set of tokens alone, not on
the order in which words are put together, how often they come or what stands between them. A
keyword of the category leaves the category as it is, and more words only add topics. -/
theorem category_is_first_plurality (t : String) :
    (classifyCategory t = generalCategory ↔
      ∀ entry ∈ categoryKeywords, ∀ k ∈ entry.2, k ∉ Text.tokens t) ∧
    (classifyCategory t ≠ generalCategory →
      ∃ entry, Leads t entry ∧ classifyCategory t = entry.1) ∧
    (∀ t', (∀ word, word ∈ Text.tokens t' ↔ word ∈ Text.tokens t) →
      classifyCategory t' = classifyCategory t ∧ keywordTags t' = keywordTags t) ∧
    (∀ sep sep' words words', Text.Separator sep → Text.Separator sep' →
      (∀ word, word ∈ words' ↔ word ∈ words) →
      classifyCategory (sep'.intercalate words') = classifyCategory (sep.intercalate words) ∧
        keywordTags (sep'.intercalate words') = keywordTags (sep.intercalate words)) ∧
    (∀ entry ∈ categoryKeywords, classifyCategory t = entry.1 → ∀ k ∈ entry.2,
      classifyCategory (t ++ " " ++ k) = entry.1) ∧
    ∀ u, (keywordTags t).Sublist (keywordTags (t ++ " " ++ u)) := by
  have hnamed {entry : String × List String} (h : Leads t entry) :
      classifyCategory t ≠ generalCategory := by
    rw [h.classifyCategory_eq]
    exact ne_general h.mem
  refine ⟨⟨fun hgeneral entry hentry => ?_, fun hnone => ?_⟩, fun hne => ?_, fun t' htokens =>
    ⟨classifyCategory_congr htokens, keywordTags_congr htokens⟩,
    fun sep sep' words words' hsep hsep' hwords => ?_, fun entry hentry hcategory k hk => ?_,
    keywordTags_sublist_append t⟩
  · rcases exists_leads t with ⟨hzero, -⟩ | ⟨first, hleads⟩
    · exact occurring_eq_zero.mp (hzero entry hentry)
    · exact absurd hgeneral (hnamed hleads)
  · rcases exists_leads t with ⟨-, hgeneral⟩ | ⟨first, hleads⟩
    · exact hgeneral
    · have hzero := occurring_eq_zero.mpr (hnone first hleads.mem)
      obtain ⟨-, -, -, hpos, -⟩ := hleads
      omega
  · rcases exists_leads t with ⟨-, hgeneral⟩ | ⟨first, hleads⟩
    · exact absurd hgeneral hne
    · exact ⟨first, hleads, hleads.classifyCategory_eq⟩
  · have htokens (word : String) : word ∈ Text.tokens (sep'.intercalate words') ↔
        word ∈ Text.tokens (sep.intercalate words) := by
      simp only [Text.mem_tokens_intercalate hsep', Text.mem_tokens_intercalate hsep, hwords]
    exact ⟨classifyCategory_congr htokens, keywordTags_congr htokens⟩
  · rcases exists_leads t with ⟨-, hgeneral⟩ | ⟨first, hleads⟩
    · exact absurd (hcategory.symm.trans hgeneral) (ne_general hentry)
    · have hname := hleads.classifyCategory_eq.symm.trans hcategory
      obtain rfl := eq_of_name hentry hleads.mem hname
      exact (hleads.append_keyword hk).classifyCategory_eq

/-- Two categories have a keyword each, and the first of them wins, until another one comes. -/
theorem category_is_first_plurality_meetingAtGym :
    classifyCategory "meeting at the gym" = "work" ∧
      classifyCategory "meeting at the gym client" = "work" ∧
      classifyCategory "the-sky is blue" = generalCategory ∧
      classifyCategory (", ".intercalate ["gym", "at", "gym", "the", "meeting"]) = "work" := by
  obtain ⟨-, -, -, harranged, hkeyword, -⟩ := category_is_first_plurality "meeting at the gym"
  obtain ⟨hgeneral, -⟩ := category_is_first_plurality "the-sky is blue"
  have hwork : classifyCategory "meeting at the gym" = "work" := by decide
  have hblank : Text.Separator " " := Text.separator_blank
  have hcomma : Text.Separator ", " := by
    refine ⟨by decide, fun c hc => ?_⟩
    obtain rfl | rfl : c = ',' ∨ c = ' ' := by simpa using hc
    · decide
    · decide
  refine ⟨hwork, hkeyword _ List.mem_cons_self hwork "client" (by decide),
    hgeneral.mpr (by decide), ?_⟩
  have hsame := (harranged " " ", " ["meeting", "at", "the", "gym"]
    ["gym", "at", "gym", "the", "meeting"] hblank hcomma (by grind)).1
  exact hsame.trans hwork

end Classifier

end LongTermMemory
