import LongTermMemory.Proofs.Text.Folding
import LongTermMemory.Text.Phrase

/-!
Phrases in texts. A phrase is found just where it stands: where a part of the text is the same
letters with a word boundary before and behind it. Between blanks that is so of a phrase which
starts and ends with word characters and which lowering leaves the same letters.
-/

namespace LongTermMemory.Text

/-- A part of the text is the phrase in some letter case, between word boundaries. -/
def Stands (phrase text : List Char) : Prop :=
  ∃ before part after, text = before ++ part ++ after ∧
    List.Forall₂ (fun a b => sameLetter a b = true) phrase part ∧
    isBoundary before.getLast? (part ++ after) = true ∧
    isBoundary (before ++ part).getLast? after = true

/-- The characters of a phrase that is found wherever it stands between blanks. -/
structure Findable (cs : List Char) : Prop where
  first : ∀ c ∈ cs.head?, isWord c = true
  last : ∀ c ∈ cs.getLast?, isWord c = true
  letters : ∀ c ∈ cs, c ≠ 'İ' ∧ newCapitals.contains c.toNat = false

/-! ## Where a phrase stands -/

section

variable {phrase text front rest : List Char} {last : Option Char}

/-- What a phrase leaves of a text is told with all that stands before it. -/
theorem afterPhrase?_eq_some : afterPhrase? front.getLast? phrase text = some (last, rest) ↔
    ∃ part, text = part ++ rest ∧ List.Forall₂ (fun a b => sameLetter a b = true) phrase part ∧
      last = (front ++ part).getLast? := by
  induction phrase generalizing front text with
  | nil =>
    simp only [afterPhrase?, Option.some.injEq, Prod.mk.injEq, List.forall₂_nil_left_iff]
    constructor
    · rintro ⟨rfl, rfl⟩
      exact ⟨[], rfl, rfl, by rw [List.append_nil]⟩
    · rintro ⟨part, rfl, rfl, rfl⟩
      exact ⟨by rw [List.append_nil], rfl⟩
  | cons p phrase ih =>
    cases text with
    | nil =>
      simp only [afterPhrase?, reduceCtorEq, false_iff]
      rintro ⟨part, htext, hpart, -⟩
      obtain rfl : part = [] := (List.append_eq_nil_iff.mp htext.symm).1
      cases hpart
    | cons c text =>
      have hlast : some c = (front ++ [c]).getLast? := by simp
      rw [afterPhrase?, hlast]
      constructor
      · intro h
        split at h
        · next hc =>
          obtain ⟨part, rfl, hpart, rfl⟩ := ih.mp h
          exact ⟨c :: part, rfl, .cons hc hpart, by rw [List.append_assoc, List.singleton_append]⟩
        · cases h
      · rintro ⟨part, htext, hpart, hend⟩
        cases hpart with
        | @cons _ d _ part hd hpart =>
          obtain ⟨rfl, rfl⟩ := List.cons_eq_cons.mp htext
          rw [if_pos hd]
          exact ih.mpr ⟨part, rfl, hpart, by rw [hend, List.append_assoc, List.singleton_append]⟩

theorem standsAt_iff : standsAt phrase front.getLast? text = true ↔ ∃ part after,
    text = part ++ after ∧ List.Forall₂ (fun a b => sameLetter a b = true) phrase part ∧
      isBoundary front.getLast? (part ++ after) = true ∧
      isBoundary (front ++ part).getLast? after = true := by
  unfold standsAt
  rw [Bool.and_eq_true]
  constructor
  · rintro ⟨hbefore, hafter⟩
    split at hafter
    · next last after heq =>
      obtain ⟨part, rfl, hpart, rfl⟩ := afterPhrase?_eq_some.mp heq
      exact ⟨part, after, rfl, hpart, hbefore, hafter⟩
    · cases hafter
  · rintro ⟨part, after, rfl, hpart, hbefore, hafter⟩
    rw [afterPhrase?_eq_some.mpr ⟨part, rfl, hpart, rfl⟩]
    exact ⟨hbefore, hafter⟩

theorem occursFrom_iff : occursFrom phrase front.getLast? text = true ↔ ∃ skipped rest,
    text = skipped ++ rest ∧ standsAt phrase (front ++ skipped).getLast? rest = true := by
  induction text generalizing front with
  | nil =>
    rw [occursFrom]
    constructor
    · intro h
      exact ⟨[], [], rfl, by rwa [List.append_nil]⟩
    · rintro ⟨skipped, rest, htext, h⟩
      obtain ⟨rfl, rfl⟩ := List.append_eq_nil_iff.mp htext.symm
      rwa [List.append_nil] at h
  | cons c text ih =>
    have hlast : some c = (front ++ [c]).getLast? := by simp
    rw [occursFrom, Bool.or_eq_true, hlast, ih]
    constructor
    · rintro (h | ⟨skipped, rest, rfl, h⟩)
      · exact ⟨[], c :: text, rfl, by rwa [List.append_nil]⟩
      · exact ⟨c :: skipped, rest, rfl, by rwa [List.append_cons]⟩
    · rintro ⟨skipped, rest, htext, h⟩
      cases skipped with
      | nil =>
        rw [List.append_nil, ← htext.trans (List.nil_append rest)] at h
        exact Or.inl h
      | cons d skipped =>
        obtain ⟨rfl, rfl⟩ := List.cons_eq_cons.mp htext
        exact Or.inr ⟨skipped, rest, rfl, by rwa [List.append_cons] at h⟩

end

/-- A phrase is found in a text just when it stands there. -/
theorem occurs_iff {phrase text : String} :
    occurs phrase text = true ↔ Stands phrase.toList text.toList := by
  have hstart : occurs phrase text =
      occursFrom phrase.toList ([] : List Char).getLast? text.toList := rfl
  rw [hstart, occursFrom_iff]
  constructor
  · rintro ⟨before, rest, htext, h⟩
    obtain ⟨part, after, rfl, hpart, hbefore, hafter⟩ := standsAt_iff.mp h
    exact ⟨before, part, after, by rw [htext, List.append_assoc], hpart, hbefore, hafter⟩
  · rintro ⟨before, part, after, htext, hpart, hbefore, hafter⟩
    exact ⟨before, part ++ after, by rw [htext, List.append_assoc],
      standsAt_iff.mpr ⟨part, after, rfl, hpart, hbefore, hafter⟩⟩

instance (phrase text : String) : Decidable (Stands phrase.toList text.toList) :=
  decidable_of_iff _ occurs_iff

/-! ## Blanks around a phrase -/

theorem map_isBlank_eq {cs ds : List Char}
    (h : List.Forall₂ (fun a b => sameLetter a b = true) cs ds) :
    cs.map isBlank = ds.map isBlank := by
  induction h with
  | nil => rfl
  | cons hsame _ ih => rw [List.map_cons, List.map_cons, isBlank_of_sameLetter hsame, ih]

section

variable {front rest before others cs part back after : List Char}

/-- Blanks in front of a whole stand before each of its parts that starts with no blank. -/
theorem length_le_of_blanks (h : front ++ rest = before ++ others)
    (hfront : ∀ c ∈ front, isBlank c = true) (hothers : others.head?.map isBlank = some false) :
    front.length ≤ before.length := by
  induction front generalizing before with
  | nil => exact Nat.zero_le _
  | cons c front ih =>
    obtain ⟨hc, hrest⟩ := List.forall_mem_cons.mp hfront
    cases before with
    | nil =>
      rw [List.nil_append] at h
      rw [← h, List.cons_append, List.head?_cons, Option.map_some, hc] at hothers
      cases hothers
    | cons d before =>
      exact Nat.succ_le_succ (ih (List.cons_eq_cons.mp h).2 hrest)

/-- A part between blanks is no longer than what they enclose, and is all of it if it is as long. -/
theorem eq_of_between_blanks (h : front ++ cs ++ back = before ++ part ++ after)
    (hfront : ∀ c ∈ front, isBlank c = true) (hback : ∀ c ∈ back, isBlank c = true)
    (hfirst : part.head?.map isBlank = some false) (hlast : part.getLast?.map isBlank = some false)
    (hlength : cs.length ≤ part.length) : before = front ∧ part = cs ∧ after = back := by
  have hpart : ∀ tail : List Char, (part ++ tail).head?.map isBlank = some false := by
    intro tail
    cases part with
    | nil => cases hfirst
    | cons c part => exact hfirst
  have hbefore : front.length ≤ before.length := by
    rw [List.append_assoc, List.append_assoc] at h
    exact length_le_of_blanks h hfront (hpart after)
  have hafter : back.reverse.length ≤ after.reverse.length := by
    have hreverse := congrArg List.reverse h
    simp only [List.reverse_append] at hreverse
    refine length_le_of_blanks hreverse (fun c hc => hback c (List.mem_reverse.mp hc)) ?_
    rw [← List.reverse_append, List.head?_reverse, List.getLast?_append]
    obtain ⟨c, hc, hblank⟩ := Option.map_eq_some_iff.mp hlast
    rw [hc, Option.some_or, Option.map_some, hblank]
  have htotal := congrArg List.length h
  simp only [List.length_append, List.length_reverse] at htotal hafter
  obtain ⟨hstart, rfl⟩ := List.append_inj h (by simp only [List.length_append]; omega)
  obtain ⟨rfl, rfl⟩ := List.append_inj hstart (by omega)
  exact ⟨rfl, rfl, rfl⟩

end

/-- Nothing but blanks, at least one. -/
structure Blanks (cs : List Char) : Prop where
  nonempty : cs ≠ []
  blank : ∀ c ∈ cs, isBlank c = true

section

variable {front back cs : List Char}

/-- Behind blanks a boundary stands just before a word character. -/
theorem isBoundary_behind (hfront : Blanks front) (hcs : cs ≠ []) (before after : List Char) :
    isBoundary (before ++ front).getLast? (cs ++ after) = true ↔
      ∀ c ∈ cs.head?, isWord c = true := by
  have hblank := not_word_of_isBlank (hfront.blank _ (List.getLast_mem hfront.nonempty))
  rw [isBoundary, List.getLast?_append, List.getLast?_eq_some_getLast hfront.nonempty,
    List.head?_append, List.head?_eq_some_head hcs]
  simp [wordAt, hblank]

/-- In front of blanks a boundary stands just behind a word character. -/
theorem isBoundary_before (hback : Blanks back) (hcs : cs ≠ []) (before after : List Char) :
    isBoundary (before ++ cs).getLast? (back ++ after) = true ↔
      ∀ c ∈ cs.getLast?, isWord c = true := by
  have hblank := not_word_of_isBlank (hback.blank _ (List.head_mem hback.nonempty))
  rw [isBoundary, List.getLast?_append, List.getLast?_eq_some_getLast hcs, List.head?_append,
    List.head?_eq_some_head hback.nonempty]
  simp [wordAt, hblank]

end

section

variable {s : String} {front back : List Char}

/-- A phrase that is findable stands wherever it is written between blanks. -/
theorem stands_of_findable (hne : s ≠ "") (h : Findable s.toList) (hfront : Blanks front)
    (hback : Blanks back) (before after : List Char) :
    Stands (lowercase s).toList (before ++ front ++ s.toList ++ (back ++ after)) := by
  have hchars : s.toList ≠ [] := fun hnil => hne (String.toList_eq_nil_iff.mp hnil)
  refine ⟨before ++ front, s.toList, back ++ after, rfl, ?_,
    (isBoundary_behind hfront hchars _ _).mpr h.first,
    (isBoundary_before hback hchars _ _).mpr h.last⟩
  rw [lowercase, String.toList_ofList]
  exact forall₂_lowerFrom_iff.mpr h.letters

/-- Between blanks a trimmed phrase stands nowhere but where it is written. -/
theorem parts_of_stands (htrim : trim s = s) (hne : s ≠ "")
    (hfront : ∀ c ∈ front, isBlank c = true) (hback : ∀ c ∈ back, isBlank c = true)
    (h : Stands (lowercase s).toList (front ++ s.toList ++ back)) :
    List.Forall₂ (fun a b => sameLetter a b = true) (lowercase s).toList s.toList ∧
      isBoundary front.getLast? (s.toList ++ back) = true ∧
      isBoundary (front ++ s.toList).getLast? back = true := by
  obtain ⟨before, part, after, htext, hpart, hstart, hend⟩ := h
  -- No end of the part is blank, since no end of the phrase is.
  have hblanks := map_isBlank_eq hpart
  have hlowered := trim_lowercase htrim
  have hfirst : part.head?.map isBlank = some false := by
    obtain ⟨c, rest, hcs, hc⟩ := exists_first_of_trim hlowered (mt lowercase_eq_empty.mp hne)
    rw [← List.head?_map, ← hblanks, hcs, List.map_cons, List.head?_cons, hc]
  have hlast : part.getLast?.map isBlank = some false := by
    obtain ⟨rest, c, hcs, hc⟩ := exists_last_of_trim hlowered (mt lowercase_eq_empty.mp hne)
    rw [← List.getLast?_map, ← hblanks, hcs, List.map_append, List.map_singleton,
      List.getLast?_concat, hc]
  -- The part is all that the blanks enclose, for lowering makes no text shorter.
  have hlength : s.toList.length ≤ part.length := by
    rw [← hpart.length_eq, lowercase, String.toList_ofList, length_lowerFrom]
    exact Nat.le_add_right _ _
  obtain ⟨rfl, rfl, rfl⟩ := eq_of_between_blanks htext hfront hback hfirst hlast hlength
  exact ⟨hpart, hstart, hend⟩

/-- Only a findable phrase stands where it is written between blanks and nothing else is. -/
theorem findable_of_stands (htrim : trim s = s) (hne : s ≠ "") (hfront : Blanks front)
    (hback : Blanks back) (h : Stands (lowercase s).toList (front ++ s.toList ++ back)) :
    Findable s.toList := by
  have hchars : s.toList ≠ [] := fun hnil => hne (String.toList_eq_nil_iff.mp hnil)
  obtain ⟨hsame, hstart, hend⟩ := parts_of_stands htrim hne hfront.blank hback.blank h
  refine ⟨(isBoundary_behind hfront hchars [] back).mp hstart,
    (isBoundary_before hback hchars front []).mp (by rwa [List.append_nil]), ?_⟩
  rw [lowercase, String.toList_ofList] at hsame
  exact forall₂_lowerFrom_iff.mp hsame

end

/-! ## Sets of phrases -/

namespace PhraseSet

theorem phrases_ofList (phrases : List String) : (ofList phrases).phrases =
    (phrases.filter fun p => !blank p).map fun p => lowercase (trim p) := by
  simp [ofList, List.filter_map, Function.comp_def, blank, beq_eq_decide]

theorem mem_found_iff {phrases : List String} {p : String} (hp : p ∈ phrases)
    (hblank : blank p = false) (text : String) :
    lowercase (trim p) ∈ (ofList phrases).found text ↔
      Stands (lowercase (trim p)).toList text.toList := by
  have hmem : lowercase (trim p) ∈ (ofList phrases).phrases := by
    rw [phrases_ofList]
    exact List.mem_map_of_mem (List.mem_filter.mpr ⟨hp, by simp [hblank]⟩)
  rw [found, List.mem_filter, occurs_iff]
  exact and_iff_right hmem

/-- A configured phrase is found between blanks in whatever texts just when it starts and ends with
word characters and no capital in it is lowered to other letters. Those phrases are found, in the
order of the configuration, that stand in the text, and there is one just when any is. -/
theorem found_where_it_stands (phrases : List String) :
    (∀ p ∈ phrases, blank p = false →
      ((∀ a b, lowercase (trim p) ∈ (ofList phrases).found (a ++ " " ++ p ++ " " ++ b)) ↔
        Findable (trim p).toList)) ∧
    ∀ text, (ofList phrases).found text =
        ((phrases.filter fun p => !blank p).map fun p => lowercase (trim p)).filter
          (fun q => Stands q.toList text.toList) ∧
      ((ofList phrases).any text = true ↔ (ofList phrases).found text ≠ []) := by
  refine ⟨fun p hp hblank => ?_, fun text => ⟨?_, ?_⟩⟩
  · have hne : trim p ≠ "" := by simpa [blank] using hblank
    obtain ⟨front, back, hchars, hfront, hback⟩ := exists_append_trimChars p.toList
    have hspace : isBlank ' ' = true := by decide
    have hbehind : Blanks (' ' :: front) :=
      ⟨List.cons_ne_nil _ _, List.forall_mem_cons.mpr ⟨hspace, hfront⟩⟩
    have hbefore : Blanks (back ++ [' ']) :=
      ⟨List.append_ne_nil_of_right_ne_nil _ (List.cons_ne_nil _ _),
        List.forall_mem_append.mpr ⟨hback, List.forall_mem_singleton.mpr hspace⟩⟩
    have htext (a b : String) : (a ++ " " ++ p ++ " " ++ b).toList =
        a.toList ++ ' ' :: front ++ (trim p).toList ++ (back ++ [' '] ++ b.toList) := by
      simp only [String.toList_append, toList_trim]
      conv_lhs => rw [hchars]
      simp
    simp only [mem_found_iff hp hblank, htext]
    constructor
    · intro h
      exact findable_of_stands (trim_trim p) hne hbehind hbefore (by simpa using h "" "")
    · intro h a b
      exact stands_of_findable hne h hbehind hbefore a.toList b.toList
  · rw [found, phrases_ofList]
    exact List.filter_congr fun q _ => by rw [Bool.eq_iff_iff, occurs_iff, decide_eq_true_iff]
  · rw [any_eq_found]
    simp

/-- A phrase with blanks around it, with capitals and with a sigma at the end of a word is found. -/
theorem found_where_it_stands_sigma :
    " Ist ΟΔΟΣ\n" ∈ ["I like", " Ist ΟΔΟΣ\n"] ∧ blank " Ist ΟΔΟΣ\n" = false ∧
      ∀ a b, "ist οδος" ∈
        (ofList ["I like", " Ist ΟΔΟΣ\n"]).found (a ++ " " ++ " Ist ΟΔΟΣ\n" ++ " " ++ b) := by
  have hmem : " Ist ΟΔΟΣ\n" ∈ ["I like", " Ist ΟΔΟΣ\n"] := by simp
  have hblank : blank " Ist ΟΔΟΣ\n" = false := by decide
  have hlower : lowercase (trim " Ist ΟΔΟΣ\n") = "ist οδος" := by decide
  have hchars : (trim " Ist ΟΔΟΣ\n").toList = ['I', 's', 't', ' ', 'Ο', 'Δ', 'Ο', 'Σ'] := by
    rw [toList_trim]
    decide
  have hletters : ∀ c ∈ ['I', 's', 't', ' ', 'Ο', 'Δ', 'Ο', 'Σ'],
      (c != 'İ' && !newCapitals.contains c.toNat) = true := by
    rw [← List.all_eq_true]
    decide
  have hfindable : Findable (trim " Ist ΟΔΟΣ\n").toList := by
    rw [hchars]
    refine ⟨?_, ?_, fun c hc => by simpa using hletters c hc⟩
    · rintro c ⟨⟩
      decide
    · rintro c ⟨⟩
      decide
  refine ⟨hmem, hblank, ?_⟩
  rw [← hlower]
  exact ((found_where_it_stands _).1 _ hmem hblank).mpr hfindable

/-- A phrase that ends with no word character, and one whose capital is lowered to two characters,
are not found between blanks. -/
theorem not_found_between_blanks :
    lowercase (trim "error:") ∉ (ofList ["error:"]).found ("" ++ " " ++ "error:" ++ " " ++ "") ∧
    lowercase (trim "İstanbul") ∉
      (ofList ["İstanbul"]).found ("" ++ " " ++ "İstanbul" ++ " " ++ "") := by
  decide

end PhraseSet

end LongTermMemory.Text
