import LongTermMemory.Proofs.ContextBlock.Ends
import LongTermMemory.Proofs.Text.Trim

/-!
Shortening: where a text that is too long is cut. The cut falls at the end of the last word that a
blank follows within the limit. A later word that ends just at the limit is lost, although it fits.
-/

namespace LongTermMemory.Text

open LongTermMemory.ContextBlock (WordEnd atBoundary closesWord endsWithin endsAfter_iff)

/-- The characters up to the first blank. -/
def firstWord (cs : List Char) : List Char := cs.takeWhile fun c => !isBlank c

/-- What shortening makes of a trimmed text that is longer than the limit. -/
structure Shortened (cs : List Char) (limit : Nat) (out : List Char) : Prop where
  /-- A first word that does not fit is cut off at the limit. -/
  broken : limit < (firstWord cs).length → out = cs.take limit
  /-- The longest front of whole words is kept, where no later word ends just at the limit. -/
  whole : (firstWord cs).length ≤ limit → (WordEnd cs limit → (firstWord cs).length = limit) →
    ∃ k, IsGreatest (endsWithin closesWord cs limit) k ∧ out = cs.take k
  /-- Of a later word that ends just at the limit nothing is kept. -/
  lost : (firstWord cs).length < limit → WordEnd cs limit →
    ∃ k, IsGreatest (endsWithin closesWord cs (limit - 1)) k ∧ out = cs.take k

/-! ## Dropping at the end -/

/-- Nothing is left, or what is left ends with a character of the other kind. -/
theorem rdropWhile_cases (p : Char → Bool) (cs : List Char) :
    (cs.rdropWhile p = [] ∧ ∀ c ∈ cs, p c = true) ∨
      ∃ front c tail, cs.rdropWhile p = front ++ [c] ∧ p c = false ∧ cs = front ++ c :: tail ∧
        ∀ b ∈ tail, p b = true := by
  rcases List.eq_nil_or_concat (cs.rdropWhile p) with hnil | ⟨front, c, hconcat⟩
  · exact Or.inl ⟨hnil, List.rdropWhile_eq_nil_iff.mp hnil⟩
  · rw [List.concat_eq_append] at hconcat
    have hlast := List.rdropWhile_last_not p cs (by simp [hconcat])
    have hsplit := List.rdropWhile_append_rtakeWhile (p := p) (l := cs)
    rw [hconcat, List.append_assoc, List.singleton_append] at hsplit
    exact Or.inr ⟨front, c, cs.rtakeWhile p, hconcat, by simpa [hconcat] using hlast, hsplit.symm,
      fun b hb => List.mem_rtakeWhile_imp hb⟩

/-! ## The last word before the limit -/

/-- Of a word, the blanks behind it and a part of the next word only the first has an end before the
last place. -/
theorem isGreatest_wordEnd {front blanks part beyond : List Char} {c : Char}
    (hc : isBlank c = false) (hblanks : ∀ b ∈ blanks, isBlank b = true) (hne : blanks ≠ [])
    (hpart : ∀ d ∈ part, isBlank d = false) :
    IsGreatest (endsWithin closesWord (front ++ [c] ++ (blanks ++ (part ++ beyond)))
      ((front ++ [c]).length + blanks.length + part.length - 1)) (front ++ [c]).length := by
  have hpos := List.length_pos_of_ne_nil hne
  refine ⟨⟨⟨front, c, _, List.append_assoc .., by simp, by simp [closesWord, hc], ?_⟩,
    by omega⟩, ?_⟩
  · obtain ⟨b, blanks, rfl⟩ := List.exists_cons_of_ne_nil hne
    simpa using hblanks b (by simp)
  · rintro j ⟨hj, hle⟩
    by_contra hbeyond
    obtain ⟨hlast, hnext⟩ := Bool.and_eq_true_iff.mp ((endsAfter_iff hj.pos).mpr hj)
    generalize front ++ [c] = word at hle hbeyond hlast hnext
    rcases Nat.lt_or_ge (j - 1 - word.length) blanks.length with hin | hout
    · -- the place before the end would hold a blank
      obtain ⟨d, hd, hcloses⟩ := (Option.any_eq_true _ _).mp hlast
      rw [List.getElem?_append_right (by omega), List.getElem?_append_left hin] at hd
      have hblank := hblanks d (List.mem_of_getElem? hd)
      simp [closesWord, hblank] at hcloses
    · -- the place behind it holds a character of the next word
      have hlt : j - word.length - blanks.length < part.length := by omega
      unfold atBoundary at hnext
      rw [List.getElem?_append_right (by omega), List.getElem?_append_right (by omega),
        List.getElem?_append_left hlt, List.getElem?_eq_getElem hlt, Option.elim_some,
        hpart _ (List.getElem_mem hlt)] at hnext
      cases hnext

/-- Where no word ends just at the limit the last end within the limit lies before it. -/
theorem isGreatest_of_not_wordEnd {cs : List Char} {limit k : Nat} (hnot : ¬ WordEnd cs limit)
    (h : IsGreatest (endsWithin closesWord cs (limit - 1)) k) :
    IsGreatest (endsWithin closesWord cs limit) k := by
  refine ⟨⟨h.1.1, h.1.2.trans (Nat.sub_le _ _)⟩, ?_⟩
  rintro j ⟨hj, hle⟩
  have hne : j ≠ limit := fun heq => hnot (heq ▸ hj)
  exact h.2 ⟨hj, by omega⟩

/-! ## The first word -/

section

variable {cs : List Char} {limit : Nat}

/-- A text goes on with a blank after its first word, if it goes on. -/
theorem exists_after_firstWord (h : (firstWord cs).length < cs.length) :
    ∃ b rest, cs = firstWord cs ++ b :: rest ∧ isBlank b = true := by
  have hsplit := List.takeWhile_append_dropWhile (p := fun c => !isBlank c) (l := cs)
  cases hrest : cs.dropWhile fun c => !isBlank c with
  | nil =>
    rw [hrest, List.append_nil] at hsplit
    rw [firstWord, hsplit] at h
    exact absurd h (Nat.lt_irrefl _)
  | cons b rest =>
    rw [hrest] at hsplit
    have hb := List.head_dropWhile_not (fun c => !isBlank c) (l := cs) (by simp [hrest])
    exact ⟨b, rest, hsplit.symm, by simpa [hrest] using hb⟩

theorem not_blank_of_mem_firstWord {c : Char} (hc : c ∈ firstWord cs) : isBlank c = false := by
  simpa using List.mem_takeWhile_imp hc

/-- The first word reaches to the limit just when no blank stands before it. -/
theorem le_firstWord_iff (h : limit < cs.length) :
    limit ≤ (firstWord cs).length ↔ ∀ c ∈ cs.take limit, isBlank c = false := by
  have hprefix : firstWord cs <+: cs := List.takeWhile_prefix _
  constructor
  · intro hle c hc
    obtain ⟨rest, hrest⟩ := hprefix
    rw [← hrest, List.take_append_of_le_length hle] at hc
    exact not_blank_of_mem_firstWord (List.mem_of_mem_take hc)
  · intro hnone
    by_contra hlt
    have hlonger : (firstWord cs).length < cs.length := by omega
    obtain ⟨b, rest, hcs, hb⟩ := exists_after_firstWord hlonger
    have hmem : b ∈ cs.take limit := by
      rw [hcs, List.take_append, List.take_of_length_le (by omega)]
      obtain ⟨n, hn⟩ := Nat.exists_eq_add_of_lt (Nat.lt_of_not_le hlt)
      simp [hn, Nat.add_assoc]
    rw [hnone b hmem] at hb
    cases hb

/-- A word ends with the first word. -/
theorem wordEnd_firstWord {first : Char} {others : List Char} (hcs : cs = first :: others)
    (hfirst : isBlank first = false) (h : (firstWord cs).length < cs.length) :
    WordEnd cs (firstWord cs).length := by
  obtain ⟨b, rest, hsplit, hb⟩ := exists_after_firstWord h
  rcases List.eq_nil_or_concat (firstWord cs) with hnil | ⟨front, c, hconcat⟩
  · rw [hcs] at hnil
    simp [firstWord, hfirst] at hnil
  · rw [List.concat_eq_append] at hconcat
    have hmem : c ∈ firstWord cs := by simp [hconcat]
    have hc := not_blank_of_mem_firstWord hmem
    refine ⟨front, c, b :: rest, ?_, by simp [hconcat], by simp [closesWord, hc], by simpa using hb⟩
    rw [hconcat, List.append_assoc] at hsplit
    exact hsplit

/-! ## Shortening -/

/-- The characters that are kept of those of a long text. -/
def shortenedChars (limit : Nat) (cs : List Char) : List Char :=
  let words := throughLastBlank (cs.take limit)
  if words.isEmpty then cs.take limit else trimEnd words

/-- Before a blank in the front of a text stands the last word, and behind it the part of a word
that is cut off. -/
theorem shortenedChars_eq {first : Char} {others : List Char} (hcs : cs = first :: others)
    (hfirst : isBlank first = false) {words part : List Char} {b : Char} (hb : isBlank b = true)
    (hthrough : throughLastBlank (cs.take limit) = words ++ [b])
    (hfront : cs.take limit = words ++ b :: part) :
    ∃ front c blanks, isBlank c = false ∧ (∀ d ∈ blanks, isBlank d = true) ∧ blanks ≠ [] ∧
      cs.take limit = front ++ [c] ++ (blanks ++ part) ∧
      shortenedChars limit cs = front ++ [c] := by
  have hout : shortenedChars limit cs = trimEnd (words ++ [b]) := by
    simp [shortenedChars, hthrough]
  rcases rdropWhile_cases isBlank (words ++ [b]) with
    ⟨-, hall⟩ | ⟨front, c, blanks, htrimmed, hc, hsplit, hblanks⟩
  · -- the text starts with a character that is not blank
    have hmem : first ∈ words ++ [b] := by
      cases limit with
      | zero => simp at hfront
      | succ limit =>
        rw [hcs, List.take_succ_cons] at hfront
        cases words with
        | nil => simp [(List.cons.inj hfront).1]
        | cons w words => simp [(List.cons.inj hfront).1]
    rw [hall first hmem] at hfirst
    cases hfirst
  · refine ⟨front, c, blanks, hc, hblanks, ?_, ?_, hout.trans htrimmed⟩
    · rintro rfl
      obtain rfl : b = c := by simpa using (List.append_inj' hsplit rfl).2
      rw [hb] at hc
      cases hc
    · calc cs.take limit = words ++ [b] ++ part := by simp [hfront]
        _ = front ++ [c] ++ (blanks ++ part) := by simp [hsplit]

theorem shortened_shortenedChars {first : Char} {others : List Char} (hcs : cs = first :: others)
    (hfirst : isBlank first = false) (h : limit < cs.length) :
    Shortened cs limit (shortenedChars limit cs) := by
  rcases rdropWhile_cases (fun c => !isBlank c) (cs.take limit) with
    ⟨hnil, hnone⟩ | ⟨words, b, part, hthrough, hb, hfront, hpart⟩
  · have hout : shortenedChars limit cs = cs.take limit := by
      have hwords : throughLastBlank (cs.take limit) = [] := hnil
      simp [shortenedChars, hwords]
    have hle : limit ≤ (firstWord cs).length :=
      (le_firstWord_iff h).mpr fun c hc => by simpa using hnone c hc
    refine ⟨fun _ => hout, fun hge _ => ?_, fun hlt => absurd hle (Nat.not_le.mpr hlt)⟩
    have heq : (firstWord cs).length = limit := Nat.le_antisymm hge hle
    have hend := wordEnd_firstWord hcs hfirst (heq ▸ h)
    rw [heq] at hend
    exact ⟨limit, ⟨⟨hend, Nat.le_refl _⟩, fun j hj => hj.2⟩, hout⟩
  · have hb : isBlank b = true := by simpa using hb
    have hlt : (firstWord cs).length < limit := by
      refine Nat.lt_of_not_le fun hle => ?_
      have hnot := (le_firstWord_iff h).mp hle b (by simp [hfront])
      rw [hb] at hnot
      cases hnot
    obtain ⟨front, c, blanks, hc, hblanks, hne, htake, hout⟩ :=
      shortenedChars_eq hcs hfirst hb hthrough hfront
    have hchars : cs = front ++ [c] ++ (blanks ++ (part ++ cs.drop limit)) := by
      calc cs = cs.take limit ++ cs.drop limit := (List.take_append_drop limit cs).symm
        _ = front ++ [c] ++ (blanks ++ (part ++ cs.drop limit)) := by simp [htake]
    have hlimit : (front ++ [c]).length + blanks.length + part.length = limit := by
      have hlength := congrArg List.length htake
      rw [List.length_take, Nat.min_eq_left (Nat.le_of_lt h)] at hlength
      simp only [List.length_append] at hlength ⊢
      omega
    have hgreatest : IsGreatest (endsWithin closesWord cs (limit - 1)) (front ++ [c]).length := by
      rw [hchars, ← hlimit]
      exact isGreatest_wordEnd hc hblanks hne fun d hd => by simpa using hpart d hd
    have hkept : shortenedChars limit cs = cs.take (front ++ [c]).length := by
      rw [hout, hchars, List.take_left]
    refine ⟨fun hgt => absurd hlt (Nat.not_lt.mpr (Nat.le_of_lt hgt)), fun _ hends => ?_,
      fun _ _ => ⟨_, hgreatest, hkept⟩⟩
    have hnot : ¬ WordEnd cs limit := fun hend => Nat.ne_of_lt hlt (hends hend)
    exact ⟨_, isGreatest_of_not_wordEnd hnot hgreatest, hkept⟩

end

/-- Shortening a text whose trimmed characters are more than the limit keeps the longest front of
whole words, unless a word other than the first ends just at the limit: that word is lost. A first
word that does not fit is cut. -/
theorem shorten_keeps_words {limit : Nat} {s : String} (h : limit < (trimChars s.toList).length) :
    Shortened (trimChars s.toList) limit (shorten limit s).toList := by
  have hout : (shorten limit s).toList = shortenedChars limit (trimChars s.toList) := by
    unfold shorten shortenedChars
    dsimp only
    rw [if_neg (Nat.not_le.mpr h), String.toList_ofList]
  rw [hout]
  have hstart := trimStart_trimChars s.toList
  cases hcs : trimChars s.toList with
  | nil =>
    rw [hcs] at h
    cases h
  | cons first others =>
    rw [hcs] at hstart h
    have hfirst : isBlank first = false :=
      Bool.eq_false_iff.mpr (List.dropWhile_eq_self_iff.mp hstart (Nat.succ_pos _))
    exact shortened_shortenedChars rfl hfirst h

def fourWords : String := "hello brave new world"

/-- Two of four words are kept where the limit lies behind the blank after them. -/
theorem shorten_keeps_words_fourWords :
    12 < (trimChars fourWords.toList).length ∧
    Shortened (trimChars fourWords.toList) 12 (shorten 12 fourWords).toList ∧
    shorten 12 fourWords = "hello brave" :=
  ⟨by decide, shorten_keeps_words (by decide), by decide⟩

/-- The second word ends just at the limit: two whole words fit, and one of them is lost. -/
theorem fitting_word_lost :
    11 < (trimChars fourWords.toList).length ∧
    (firstWord (trimChars fourWords.toList)).length ≤ 11 ∧
    IsGreatest (endsWithin closesWord (trimChars fourWords.toList) 11) 11 ∧
    String.ofList ((trimChars fourWords.toList).take 11) = "hello brave" ∧
    shorten 11 fourWords = "hello" := by
  refine ⟨by decide, by decide, ⟨⟨?_, Nat.le_refl _⟩, fun j hj => hj.2⟩,
    by decide, by decide⟩
  exact (endsAfter_iff (by decide)).mp (by decide)

end LongTermMemory.Text
