import LongTermMemory.Text.Case

/-!
Classes of characters. Whether a table holds a whole interval of code points, or nothing of it, is
told in one pass over its ranges. No blank is a letter, a mark, a digit or ignored between letters.
-/

namespace LongTermMemory.Text

namespace Ranges

theorem contains_eq_true {ranges : Ranges} {n : Nat} (h : ranges.contains n = true) :
    ∃ range ∈ ranges, range.1 ≤ n ∧ n ≤ range.2 := by
  induction ranges with
  | nil => cases h
  | cons range ranges ih =>
    unfold contains at h
    split at h
    · cases h
    · split at h
      · exact ⟨range, List.mem_cons_self, by omega, by assumption⟩
      · obtain ⟨q, hq, hin⟩ := ih h
        exact ⟨q, List.mem_cons_of_mem _ hq, hin⟩

/-- Whether one range holds all code points between `lo` and `hi` or, for `inside` false, no range
holds any. The search ends at the first range that ends above `lo`. -/
def uniform (inside : Bool) (lo hi : Nat) : Ranges → Bool
  | [] => !inside
  | (first, last) :: rest =>
    bif first.ble lo && last.blt lo then uniform inside lo hi rest
    else bif hi.blt first then !inside
    else inside && first.ble lo && hi.ble last

theorem contains_of_uniform {ranges : Ranges} {inside : Bool} {lo hi n : Nat}
    (h : uniform inside lo hi ranges = true) (hlo : lo ≤ n) (hhi : n ≤ hi) :
    ranges.contains n = inside := by
  induction ranges with
  | nil => simpa [uniform, contains] using h
  | cons range rest ih =>
    unfold uniform at h
    simp only [cond_eq_ite, Bool.and_eq_true, Nat.ble_eq, Nat.blt_eq] at h
    unfold contains
    split at h
    · rw [if_neg (by omega), if_neg (by omega)]
      exact ih h
    · split at h
      · rw [if_pos (by omega)]
        simpa using h
      · simp only [Bool.and_eq_true, Nat.ble_eq] at h
        rw [if_neg (by omega), if_pos (by omega), h.1.1]

end Ranges

/-- The tables that tell a character as one of a word, or as one that case depends on. -/
def wordTables : List Ranges :=
  [alphabetic, newlyAlphabetic, numeric, mark, decimalDigit, connector, joinControl, cased,
   caseIgnorable]

theorem whiteSpace_apart : ∀ range ∈ whiteSpace, ∀ table ∈ wordTables,
    table.uniform false range.1 range.2 = true := by
  set_option maxRecDepth 4096 in decide

section

variable {c : Char}

/-- No blank is in any of these tables. -/
theorem contains_of_isBlank (h : isBlank c = true) :
    ∀ table ∈ wordTables, table.contains c.toNat = false := by
  intro table htable
  obtain ⟨range, hrange, hlow, hhigh⟩ := Ranges.contains_eq_true h
  exact Ranges.contains_of_uniform (whiteSpace_apart range hrange table htable) hlow hhigh

theorem not_word_of_isBlank (h : isBlank c = true) : isWord c = false := by
  have htables := contains_of_isBlank h
  simp only [wordTables, List.forall_mem_cons] at htables
  simp [isWord, htables]

theorem not_alphanumeric_of_isBlank (h : isBlank c = true) :
    (isAlphanumeric c || c = '_') = false := by
  have htables := contains_of_isBlank h
  have hline : c ≠ '_' := by
    rintro rfl
    exact absurd h (by decide)
  simp only [wordTables, List.forall_mem_cons] at htables
  simp [isAlphanumeric, htables, hline]

end

end LongTermMemory.Text
