import LongTermMemory.Proofs.Text.Lower
import Mathlib.Data.List.Forall2

/-!
Letters in whatever case. Lowering a character leaves it the same letter, two kinds of capitals
apart: one that is lowered to two characters, and those that are so new that they are lowered but
not folded. No blank is the same letter as another character.
-/

namespace LongTermMemory.Text

open CaseRun

/-- The capitals that the latest edition of Unicode adds. -/
def newCapitals : Ranges :=
  [(0xa7ce, 0xa7ce), (0xa7d2, 0xa7d2), (0xa7d4, 0xa7d4), (0x16ea0, 0x16eb8)]

/-! ## Folding a code point -/

/-- Whether all that a run of the lowercase table moves, new capitals apart, fold to what their
images fold to: both to the image, or both to the capital, or else as it is found one by one. -/
def foldsAlike (r : CaseRun) : Bool :=
  let first := (r.first + r.shift).toNat
  let last := (r.last + r.shift).toNat
  (shifts r.step r.first r.last r.shift foldingRuns && shifts r.step first last 0 foldingRuns) ||
  (shifts r.step r.first r.last 0 foldingRuns &&
    shifts r.step first last (-r.shift) foldingRuns) ||
  (List.range (r.last + 1 - r.first)).all fun k =>
    k % r.step != 0 || newCapitals.contains (r.first + k) ||
      apply foldingRuns (r.first + k + r.shift).toNat == apply foldingRuns (r.first + k)

section

-- A check of a table goes as deep as the table is long.
set_option maxRecDepth 4096

theorem lowercaseRuns_foldAlike : ∀ r ∈ lowercaseRuns, foldsAlike r = true := by
  decide

theorem foldingRuns_valid : ∀ r ∈ foldingRuns, r.Valid := by decide

/-- No run moves a blank, and no image is one. -/
theorem foldingRuns_avoid : ∀ range ∈ whiteSpace, 0 < range.1 ∧
    (∀ r ∈ foldingRuns, r.last < range.1 ∨ range.2 < r.first) ∧
    ∀ r ∈ foldingRuns, (r.last : Int) + r.shift < range.1 ∨ (range.2 : Int) < r.first + r.shift := by
  decide

theorem newCapitals_apart : ∀ range ∈ newCapitals,
    ∀ k ∈ List.range (range.2 + 1 - range.1),
      apply foldingRuns (apply lowercaseRuns (range.1 + k)) ≠
        apply foldingRuns (range.1 + k) := by
  decide

end

theorem apply_foldingRuns_apply {n : Nat} (h : newCapitals.contains n = false) :
    apply foldingRuns (apply lowercaseRuns n) = apply foldingRuns n := by
  rcases apply_cases lowercaseRuns n with hsame | ⟨r, hr, ⟨hfirst, hlast, hstep⟩, heq⟩
  · rw [hsame]
  · have hhigh := lowercaseRuns_high r hr
    have hfar : (n + r.shift).toNat - (r.first + r.shift).toNat = n - r.first := by omega
    have halike := lowercaseRuns_foldAlike r hr
    simp only [foldsAlike, Bool.or_eq_true, Bool.and_eq_true] at halike
    rw [heq]
    rcases halike with (⟨hcapital, himage⟩ | ⟨hcapital, himage⟩) | hall
    · rw [apply_of_shifts hcapital hfirst hlast hstep,
        apply_of_shifts himage (by omega) (by omega) (by rw [hfar, hstep]), Int.add_zero,
        Int.toNat_natCast]
    · rw [apply_of_shifts hcapital hfirst hlast hstep,
        apply_of_shifts himage (by omega) (by omega) (by rw [hfar, hstep])]
      omega
    · have hone := List.all_eq_true.mp hall (n - r.first) (List.mem_range.mpr (by omega))
      have hcode : (r.first : Int) + (n - r.first : Nat) = n := by omega
      rw [Nat.add_sub_cancel' hfirst, h] at hone
      simpa [hstep, hcode] using hone

/-! ## Folding a character -/

theorem toNat_foldCase (c : Char) : (foldCase c).toNat = apply foldingRuns c.toNat :=
  toNat_ofNat_apply foldingRuns_valid c

theorem sameLetter_iff {a b : Char} :
    sameLetter a b = true ↔ apply foldingRuns a.toNat = apply foldingRuns b.toNat := by
  rw [sameLetter, beq_iff_eq, ← Char.toNat_inj, toNat_foldCase, toNat_foldCase]

/-- Just the new capitals are other letters than what they are lowered to. -/
theorem sameLetter_lowerChar {c : Char} :
    sameLetter (lowerChar c) c = true ↔ newCapitals.contains c.toNat = false := by
  rw [sameLetter_iff, toNat_lowerChar]
  refine ⟨fun h => Bool.eq_false_iff.mpr fun hnew => ?_, apply_foldingRuns_apply⟩
  obtain ⟨range, hrange, hlow, hhigh⟩ := Ranges.contains_eq_true hnew
  refine newCapitals_apart range hrange (c.toNat - range.1) (List.mem_range.mpr (by omega)) ?_
  rwa [Nat.add_sub_cancel' hlow]

theorem isBlank_foldCase (c : Char) : isBlank (foldCase c) = isBlank c := by
  rw [Bool.eq_iff_iff]
  unfold isBlank
  rw [toNat_foldCase]
  constructor
  · intro h
    obtain ⟨range, hrange, hin⟩ := Ranges.contains_eq_true h
    obtain ⟨hpos, -, himages⟩ := foldingRuns_avoid range hrange
    rwa [apply_eq_of_between hpos himages hin] at h
  · intro h
    obtain ⟨range, hrange, hin⟩ := Ranges.contains_eq_true h
    obtain ⟨-, hstay, -⟩ := foldingRuns_avoid range hrange
    rcases apply_cases foldingRuns c.toNat with hsame | ⟨r, hr, ⟨hfirst, hlast, -⟩, -⟩
    · rwa [hsame]
    · have := hstay r hr
      omega

theorem isBlank_of_sameLetter {a b : Char} (h : sameLetter a b = true) :
    isBlank a = isBlank b := by
  rw [← isBlank_foldCase a, beq_iff_eq.mp h, isBlank_foldCase]

/-! ## Lowering a text -/

/-- Each other character than the dotted capital is lowered to one, a sigma among them. -/
theorem lowerBetween_eq_singleton {c : Char} (h : c ≠ 'İ') (before after : List Char) :
    ∃ d, lowerBetween before c after = [d] ∧
      (sameLetter d c = true ↔ newCapitals.contains c.toNat = false) := by
  unfold lowerBetween
  rw [if_neg h]
  split
  · next hsigma =>
    rw [hsigma]
    split
    · exact ⟨_, rfl, by decide⟩
    · exact ⟨_, rfl, by decide⟩
  · exact ⟨_, rfl, sameLetter_lowerChar⟩

theorem length_lowerFrom (before cs : List Char) :
    (lowerFrom before cs).length = cs.length + cs.count 'İ' := by
  induction cs generalizing before with
  | nil => rfl
  | cons c cs ih =>
    rw [lowerFrom, List.length_append, ih, List.length_cons]
    by_cases h : c = 'İ'
    · have htwo : (lowerBetween before c cs).length = 2 := by
        rw [h]
        rfl
      rw [htwo, h, List.count_cons_self]
      omega
    · obtain ⟨d, hd, -⟩ := lowerBetween_eq_singleton h before cs
      rw [hd, List.length_singleton, List.count_cons_of_ne h]
      omega

/-- A text and its lowercase are the same letters one by one just when no capital in it is lowered
to two characters or to another letter. -/
theorem forall₂_lowerFrom_iff {before cs : List Char} :
    List.Forall₂ (fun a b => sameLetter a b = true) (lowerFrom before cs) cs ↔
      ∀ c ∈ cs, c ≠ 'İ' ∧ newCapitals.contains c.toNat = false := by
  by_cases hdotted : 'İ' ∈ cs
  · refine iff_of_false (fun h => ?_) fun h => (h 'İ' hdotted).1 rfl
    have hlength := h.length_eq
    have hcount := List.count_pos_iff.mpr hdotted
    rw [length_lowerFrom] at hlength
    omega
  · induction cs generalizing before with
    | nil => simp [lowerFrom]
    | cons c cs ih =>
      obtain ⟨hc, hcs⟩ := not_or.mp fun h => hdotted (List.mem_cons.mpr h)
      obtain ⟨d, hd, hsame⟩ := lowerBetween_eq_singleton (Ne.symm hc) before cs
      rw [lowerFrom, hd, List.singleton_append, List.forall₂_cons, hsame, ih hcs,
        List.forall_mem_cons]
      simp [Ne.symm hc]

end LongTermMemory.Text
