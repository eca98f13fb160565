import LongTermMemory.Proofs.Text.Lower
import Mathlib.Data.List.Forall2

/-!
What lowering a text does not depend on. Blanks end words, so a text is lowered the same without the
blanks around it; and a letter is lowered the same in whichever case it is written, a capital sigma
and the dotted capital apart.
-/

namespace LongTermMemory.Text

open CaseRun

/-- Characters that are lowered alike wherever they stand. -/
def Recased (a b : Char) : Prop :=
  a = b ∨ lowerChar a = lowerChar b ∧ ∀ c ∈ [a, b], c ≠ 'Σ' ∧ c ≠ 'İ'

/-! ## Letters with two cases -/

section

-- A check of a table goes as deep as the table is long.
set_option maxRecDepth 4096

/-- All that the runs move are cased letters, and so are the images. -/
theorem lowercaseRuns_cased : ∀ r ∈ lowercaseRuns,
    (cased.uniform true r.first r.last || (List.range (r.last + 1 - r.first)).all fun k =>
      k % r.step != 0 || cased.contains (r.first + k)) = true ∧
      cased.uniform true (r.first + r.shift).toNat (r.last + r.shift).toNat = true := by
  decide

/-- None of them is passed over between letters. -/
theorem lowercaseRuns_not_passed : ∀ r ∈ lowercaseRuns,
    caseIgnorable.uniform false r.first r.last = true ∧
      caseIgnorable.uniform false (r.first + r.shift).toNat (r.last + r.shift).toNat = true := by
  decide

end

section

variable {a b c : Char}

theorem cased_of_lowerChar_ne (h : lowerChar c ≠ c) : ∀ d ∈ [c, lowerChar c],
    cased.contains d.toNat = true ∧ caseIgnorable.contains d.toNat = false := by
  rcases apply_cases lowercaseRuns c.toNat with hsame | ⟨r, hr, ⟨hfirst, hlast, hstep⟩, heq⟩
  · exact absurd (lowerChar_of_toNat hsame) h
  · obtain ⟨hcased, himages⟩ := lowercaseRuns_cased r hr
    obtain ⟨hpassed, hpassedImages⟩ := lowercaseRuns_not_passed r hr
    have hmoved : cased.contains c.toNat = true := by
      rcases Bool.or_eq_true_iff.mp hcased with hwhole | hall
      · exact Ranges.contains_of_uniform hwhole hfirst hlast
      · have hone := List.all_eq_true.mp hall (c.toNat - r.first) (List.mem_range.mpr (by omega))
        simpa [Nat.add_sub_cancel' hfirst, hstep] using hone
    simp only [List.forall_mem_cons, List.not_mem_nil, false_implies, implies_true, and_true]
    refine ⟨⟨hmoved, Ranges.contains_of_uniform hpassed hfirst hlast⟩, ?_⟩
    rw [toNat_lowerChar, heq]
    exact ⟨Ranges.contains_of_uniform himages (by omega) (by omega),
      Ranges.contains_of_uniform hpassedImages (by omega) (by omega)⟩

/-- The words around do not tell characters apart that are lowered alike. -/
theorem Recased.contains_eq (h : Recased a b) :
    cased.contains a.toNat = cased.contains b.toNat ∧
      caseIgnorable.contains a.toNat = caseIgnorable.contains b.toNat := by
  rcases h with rfl | ⟨hlower, -⟩
  · exact ⟨rfl, rfl⟩
  · by_cases ha : lowerChar a = a <;> by_cases hb : lowerChar b = b
    · rw [ha, hb] at hlower
      rw [hlower]
      exact ⟨rfl, rfl⟩
    · have hletters := cased_of_lowerChar_ne hb
      rw [← hlower, ha] at hletters
      simp [hletters]
    · have hletters := cased_of_lowerChar_ne ha
      rw [hlower, hb] at hletters
      simp [hletters]
    · have hfirst := cased_of_lowerChar_ne ha
      have hsecond := cased_of_lowerChar_ne hb
      simp [hfirst, hsecond]

/-! ## What stands around -/

theorem startsCased_cons (c : Char) (cs : List Char) : startsCased (c :: cs) =
    if caseIgnorable.contains c.toNat then startsCased cs else cased.contains c.toNat := by
  unfold startsCased
  rw [List.dropWhile_cons]
  by_cases h : caseIgnorable.contains c.toNat = true
  · rw [if_pos h, if_pos h]
  · rw [if_neg h, if_neg h]

theorem startsCased_blank (h : isBlank c = true) (cs : List Char) :
    startsCased (c :: cs) = false := by
  have htables := contains_of_isBlank h
  simp only [wordTables, List.forall_mem_cons] at htables
  simp [startsCased_cons, htables]

theorem startsCased_append_blanks {back : List Char} (cs : List Char)
    (hback : ∀ c ∈ back, isBlank c = true) : startsCased (cs ++ back) = startsCased cs := by
  induction cs with
  | nil =>
    cases back with
    | nil => rfl
    | cons c back => exact startsCased_blank (hback c List.mem_cons_self) back
  | cons c cs ih => rw [List.cons_append, startsCased_cons, startsCased_cons, ih]

theorem startsCased_recased {cs ds : List Char} (h : List.Forall₂ Recased cs ds) :
    startsCased cs = startsCased ds := by
  induction h with
  | nil => rfl
  | cons hcd _ ih =>
    obtain ⟨hcased, hpassed⟩ := hcd.contains_eq
    rw [startsCased_cons, startsCased_cons, hcased, hpassed, ih]

/-! ## Lowering in other surroundings -/

theorem lowerBetween_recased (h : Recased a b) {before before' after after' : List Char}
    (hbefore : startsCased before = startsCased before')
    (hafter : startsCased after = startsCased after') :
    lowerBetween before a after = lowerBetween before' b after' := by
  unfold lowerBetween
  rw [hbefore, hafter]
  rcases h with rfl | ⟨hlower, hplain⟩
  · rfl
  · simp only [List.forall_mem_cons] at hplain
    simp [hplain, hlower]

theorem lowerFrom_recased {cs ds : List Char} (h : List.Forall₂ Recased cs ds)
    {before before' : List Char} (hbefore : startsCased before = startsCased before') :
    lowerFrom before cs = lowerFrom before' ds := by
  induction h generalizing before before' with
  | nil => rfl
  | @cons c d cs ds hcd hrest ih =>
    obtain ⟨hcased, hpassed⟩ := hcd.contains_eq
    have hnext : startsCased (c :: before) = startsCased (d :: before') := by
      rw [startsCased_cons, startsCased_cons, hcased, hpassed, hbefore]
    rw [lowerFrom, lowerFrom, lowerBetween_recased hcd hbefore (startsCased_recased hrest),
      ih hnext]

theorem lowercase_recased {s t : String} (h : List.Forall₂ Recased s.toList t.toList) :
    lowercase s = lowercase t := by
  rw [lowercase, lowercase, lowerFrom_recased h rfl]

/-! ## Blanks around a text -/

theorem lowercaseRuns_pass_blanks : ∀ range ∈ whiteSpace,
    shifts 1 range.1 range.2 0 lowercaseRuns = true := by
  decide

theorem lowerBetween_blank (h : isBlank c = true) (before after : List Char) :
    lowerBetween before c after = [c] := by
  obtain ⟨range, hrange, hlow, hhigh⟩ := Ranges.contains_eq_true h
  have hstill := apply_of_shifts (lowercaseRuns_pass_blanks range hrange) hlow hhigh (Nat.mod_one _)
  have hsame : lowerChar c = c := lowerChar_of_toNat (by omega)
  have hplain : c ≠ 'Σ' ∧ c ≠ 'İ' := by
    constructor <;> rintro rfl <;> exact absurd h (by decide)
  rw [lowerBetween, if_neg hplain.1, if_neg hplain.2, hsame]

end

theorem lowerFrom_blanks_append {front : List Char} (before cs : List Char)
    (hfront : ∀ c ∈ front, isBlank c = true) :
    lowerFrom before (front ++ cs) = front ++ lowerFrom (front.reverse ++ before) cs := by
  induction front generalizing before with
  | nil => rfl
  | cons c front ih =>
    obtain ⟨hc, hrest⟩ := List.forall_mem_cons.mp hfront
    rw [List.cons_append, lowerFrom, lowerBetween_blank hc, ih _ hrest, List.reverse_cons,
      List.append_assoc, List.singleton_append, List.singleton_append, List.cons_append]

theorem lowerFrom_append_blanks {back : List Char} (before cs : List Char)
    (hback : ∀ c ∈ back, isBlank c = true) :
    lowerFrom before (cs ++ back) = lowerFrom before cs ++ back := by
  induction cs generalizing before with
  | nil => simpa [lowerFrom] using lowerFrom_blanks_append before [] hback
  | cons c cs ih =>
    have hsame : lowerBetween before c (cs ++ back) = lowerBetween before c cs :=
      lowerBetween_recased (Or.inl rfl) rfl (startsCased_append_blanks cs hback)
    rw [List.cons_append, lowerFrom, hsame, ih, lowerFrom, List.append_assoc]

/-- A text may be trimmed before it is lowered or after. -/
theorem lowercase_trim (s : String) : lowercase (trim s) = trim (lowercase s) := by
  obtain ⟨front, back, hchars, hfront, hback⟩ := exists_append_trimChars s.toList
  -- The blanks in front count as no surroundings, so that the rest is lowered as if it stood alone.
  have hsurroundings : startsCased (front.reverse ++ []) = startsCased [] := by
    rw [List.append_nil]
    exact startsCased_append_blanks [] fun c hc => hfront c (List.mem_reverse.mp hc)
  have hlowered : (lowercase s).toList = front ++ (lowercase (trim s)).toList ++ back := by
    rw [lowercase, lowercase, String.toList_ofList, String.toList_ofList, hchars, toList_trim,
      lowerFrom_append_blanks _ _ hback, lowerFrom_blanks_append _ _ hfront,
      lowerFrom_recased (List.forall₂_same.mpr fun _ _ => Or.inl rfl) hsurroundings]
  have htrimmed := trimChars_toList (trim_lowercase (trim_trim s))
  refine String.toList_inj.mp ?_
  rw [toList_trim, hlowered, trimChars_append _ hfront hback, htrimmed]

end LongTermMemory.Text
