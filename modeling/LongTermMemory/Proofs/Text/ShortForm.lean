import LongTermMemory.Proofs.Text.Shortening

/-!
Short forms: a shortened text is a front of the trimmed text with at most as many characters as the
limit allows, has no blank at either end, and is its own short form under every greater limit.
-/

namespace LongTermMemory.Text

/-- What shortening with a limit makes of a text. -/
structure ShortForm (limit : Nat) (s out : String) : Prop where
  front : out.toList <+: (trim s).toList
  bounded : out.length ≤ limit
  first : ∀ c ∈ out.toList.head?, isBlank c = false
  last : ∀ c ∈ out.toList.getLast?, isBlank c = false
  /-- A text that fits is only trimmed. -/
  whole : (trim s).length ≤ limit → out = trim s
  nonempty : blank s = false → 1 ≤ limit → out ≠ ""
  /-- Shortening it again changes nothing, with the same limit or a greater one. -/
  stable : ∀ limit', limit ≤ limit' → shorten limit' out = out

theorem shorten_of_le {limit : Nat} {s : String} (h : (trim s).length ≤ limit) :
    shorten limit s = trim s := by
  have hfits : (trimChars s.toList).length ≤ limit := by
    rwa [← toList_trim, String.length_toList]
  unfold shorten
  dsimp only
  rw [if_pos hfits, trim]

@[simp] theorem shorten_trim (limit : Nat) (s : String) : shorten limit (trim s) = shorten limit s := by
  simp [shorten]

theorem toList_shorten_of_lt {limit : Nat} {s : String} (h : limit < (trim s).length) :
    (shorten limit s).toList = shortenedChars limit (trim s).toList := by
  have hlong : ¬(trimChars s.toList).length ≤ limit := by
    rw [← toList_trim, String.length_toList]
    omega
  unfold shorten shortenedChars
  dsimp only
  rw [if_neg hlong, String.toList_ofList, toList_trim]

theorem shortenedChars_prefix (limit : Nat) (cs : List Char) :
    shortenedChars limit cs <+: cs.take limit := by
  have hwords : throughLastBlank (cs.take limit) <+: cs.take limit := List.rdropWhile_prefix _ _
  have htrimmed : trimEnd (throughLastBlank (cs.take limit)) <+:
      throughLastBlank (cs.take limit) := List.rdropWhile_prefix _ _
  unfold shortenedChars
  dsimp only
  split
  · exact List.prefix_refl _
  · exact htrimmed.trans hwords

/-- What is kept ends with a word: either it is a part of one, or the blanks behind it are cut. -/
theorem last_shortenedChars (limit : Nat) (cs : List Char) :
    ∀ c ∈ (shortenedChars limit cs).getLast?, isBlank c = false := by
  unfold shortenedChars
  dsimp only
  split
  · next hwords =>
    have hnone : ∀ c ∈ cs.take limit, isBlank c = false := by
      have hnil : (cs.take limit).rdropWhile (fun c => !isBlank c) = [] := List.isEmpty_iff.mp hwords
      simpa using List.rdropWhile_eq_nil_iff.mp hnil
    exact fun c hc => hnone c (List.mem_of_getLast? hc)
  · exact last_trimEnd _

theorem shortenedChars_ne_nil {limit : Nat} {c : Char} {cs : List Char} (hc : isBlank c = false)
    (hlimit : 1 ≤ limit) : shortenedChars limit (c :: cs) ≠ [] := by
  obtain ⟨limit, rfl⟩ := Nat.exists_eq_add_of_le' hlimit
  have hcut : throughLastBlank (c :: cs.take limit) <+: c :: cs.take limit :=
    List.rdropWhile_prefix _ _
  unfold shortenedChars
  dsimp only
  rw [List.take_succ_cons]
  cases hwords : throughLastBlank (c :: cs.take limit) with
  | nil => simp
  | cons d words =>
    rw [hwords] at hcut
    obtain ⟨rfl, -⟩ := List.cons_prefix_cons.mp hcut
    simp [trimEnd_cons d words hc]

/-- Shortening gives the short form of every text. -/
theorem shortForm_shorten (limit : Nat) (s : String) : ShortForm limit s (shorten limit s) := by
  have hfirst := first_trimChars s.toList
  have hlast := last_trimChars s.toList
  rw [← toList_trim] at hfirst hlast
  have hends : (shorten limit s).toList <+: (trim s).toList ∧ (shorten limit s).length ≤ limit ∧
      ∀ c ∈ (shorten limit s).toList.getLast?, isBlank c = false := by
    rcases Nat.lt_or_ge limit (trim s).length with hlong | hfits
    · have hcut := shortenedChars_prefix limit (trim s).toList
      rw [← String.length_toList, toList_shorten_of_lt hlong]
      exact ⟨hcut.trans (List.take_prefix _ _),
        hcut.length_le.trans (List.length_take_le _ _), last_shortenedChars _ _⟩
    · rw [shorten_of_le hfits]
      exact ⟨List.prefix_refl _, hfits, hlast⟩
  obtain ⟨hfront, hbounded, hend⟩ := hends
  have hstart : ∀ c ∈ (shorten limit s).toList.head?, isBlank c = false := by
    intro c hc
    obtain ⟨rest, hrest⟩ := hfront
    refine hfirst c ?_
    rw [← hrest, List.head?_append, Option.mem_def.mp hc]
    rfl
  refine ⟨hfront, hbounded, hstart, hend, shorten_of_le, fun hblank hlimit => ?_,
    fun limit' hle => ?_⟩
  · rcases Nat.lt_or_ge limit (trim s).length with hlong | hfits
    · rw [← String.toList_eq_nil_iff.ne, toList_shorten_of_lt hlong]
      cases hcs : (trim s).toList with
      | nil =>
        rw [String.toList_eq_nil_iff.mp hcs] at hlong
        cases hlong
      | cons c cs => exact shortenedChars_ne_nil (hfirst c (by rw [hcs]; rfl)) hlimit
    · rw [shorten_of_le hfits]
      exact fun hempty => by simp [blank, hempty] at hblank
  · have htrim : trim (shorten limit s) = shorten limit s := by
      rw [trim, trimChars_eq_self hstart hend, String.ofList_toList]
    rw [shorten_of_le (by rw [htrim]; omega), htrim]

/-- A shortened text is empty or not blank. -/
theorem shorten_cases (limit : Nat) (s : String) :
    shorten limit s = "" ∨ blank (shorten limit s) = false := by
  cases hout : (shorten limit s).toList with
  | nil => exact Or.inl (String.toList_eq_nil_iff.mp hout)
  | cons c cs =>
    have hc := (shortForm_shorten limit s).first c (by rw [hout]; rfl)
    exact Or.inr (not_blank_of_mem (by rw [hout]; exact List.mem_cons_self) hc)

end LongTermMemory.Text
