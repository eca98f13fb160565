import LongTermMemory.Proofs.Text.NameOrder
import LongTermMemory.Proofs.Text.Property
import LongTermMemory.Proofs.Text.Trim

/-!
Lower case: lowering gives no capital of ASCII, leaves alone what is in lower case already, and
keeps a trimmed text trimmed. The table is asked run by run where the images of a run lie.
-/

namespace LongTermMemory.Text

/-! ## Runs -/

namespace CaseRun

/-- The code points that a run moves. -/
def Moves (r : CaseRun) (n : Nat) : Prop :=
  r.first ≤ n ∧ n ≤ r.last ∧ (n - r.first) % r.step = 0

theorem apply_cases (runs : List CaseRun) (n : Nat) :
    apply runs n = n ∨ ∃ r ∈ runs, r.Moves n ∧ apply runs n = (n + r.shift).toNat := by
  induction runs with
  | nil => exact Or.inl rfl
  | cons r rest ih =>
    unfold apply
    split
    · exact Or.inl rfl
    · split
      · next hlow hmoves => exact Or.inr ⟨r, List.mem_cons_self, ⟨by omega, hmoves⟩, rfl⟩
      · exact ih.imp_right fun ⟨q, hq, h⟩ => ⟨q, List.mem_cons_of_mem _ hq, h⟩

/-- What ends between `lo` and `hi`, where no run has its images, was not moved. -/
theorem apply_eq_of_between {runs : List CaseRun} {lo hi n : Nat} (hpos : 0 < lo)
    (h : ∀ r ∈ runs, (r.last : Int) + r.shift < lo ∨ (hi : Int) < r.first + r.shift)
    (hn : lo ≤ apply runs n ∧ apply runs n ≤ hi) : apply runs n = n := by
  refine (apply_cases runs n).resolve_right fun ⟨r, hr, ⟨hfirst, hlast, _⟩, heq⟩ => ?_
  rw [heq] at hn
  have := h r hr
  omega

/-- Whether one run moves by `shift` all code points between `lo` and `hi` that are some steps away
from `lo`, or, for the shift zero, none moves any. The search ends at the first run above `hi`; a
run of every second code point may move just those that are left out. -/
def shifts (step lo hi : Nat) (shift : Int) : List CaseRun → Bool
  | [] => shift == 0
  | r :: rest =>
    bif r.first.ble lo && r.last.blt lo then shifts step lo hi shift rest
    else bif hi.blt r.first then shift == 0
    else bif r.first.ble lo && hi.ble r.last && (lo - r.first) % r.step == 0 &&
        step % r.step == 0 then
      r.shift == shift
    else
      (shift == 0 || r.first.ble lo) && step == 2 && r.step == 2 && (lo + r.first) % 2 == 1 &&
        shifts step lo hi shift rest

theorem apply_of_shifts {runs : List CaseRun} {step lo hi n : Nat} {shift : Int}
    (h : shifts step lo hi shift runs = true) (hlo : lo ≤ n) (hhi : n ≤ hi)
    (hstep : (n - lo) % step = 0) : apply runs n = (n + shift).toNat := by
  have hzero (hshift : shift = 0) : n = (n + shift).toNat := by omega
  induction runs with
  | nil => exact hzero (beq_iff_eq.mp h)
  | cons r rest ih =>
    unfold shifts at h
    simp only [cond_eq_ite, Bool.and_eq_true, Nat.ble_eq, Nat.blt_eq, beq_iff_eq] at h
    unfold apply
    split at h
    · rw [if_neg (by omega), if_neg (by omega)]
      exact ih h
    · split at h
      · rw [if_pos (by omega)]
        exact hzero (beq_iff_eq.mp h)
      · split at h
        · next hcovers =>
          obtain ⟨⟨⟨hfirst, hlast⟩, hstart⟩, hsteps⟩ := hcovers
          have hdvd : r.step ∣ (n - lo) + (lo - r.first) :=
            Nat.dvd_add (Nat.dvd_trans (Nat.dvd_of_mod_eq_zero hsteps)
              (Nat.dvd_of_mod_eq_zero hstep)) (Nat.dvd_of_mod_eq_zero hstart)
          have hsum : (n - lo) + (lo - r.first) = n - r.first := by omega
          rw [hsum] at hdvd
          rw [if_neg (by omega), if_pos ⟨by omega, Nat.mod_eq_zero_of_dvd hdvd⟩, beq_iff_eq.mp h]
        · simp only [Bool.and_eq_true, Bool.or_eq_true, Nat.ble_eq, beq_iff_eq] at h
          obtain ⟨⟨⟨⟨hshift, rfl⟩, htwo⟩, hodd⟩, h⟩ := h
          rw [htwo]
          split
          · exact hzero (hshift.resolve_right (by omega))
          · rw [if_neg (by omega)]
            exact ih h

/-- The images of a run are characters. -/
def Valid (r : CaseRun) : Prop :=
  ((r.last : Int) + r.shift < 0xd800 ∨ (0xdfff : Int) < r.first + r.shift) ∧
    (r.last : Int) + r.shift < 0x110000

instance : DecidablePred Valid := fun r =>
  inferInstanceAs (Decidable (((r.last : Int) + r.shift < 0xd800 ∨
    (0xdfff : Int) < r.first + r.shift) ∧ (r.last : Int) + r.shift < 0x110000))

theorem toNat_ofNat_apply {runs : List CaseRun} (h : ∀ r ∈ runs, r.Valid) (c : Char) :
    (Char.ofNat (apply runs c.toNat)).toNat = apply runs c.toNat := by
  rcases apply_cases runs c.toNat with hsame | ⟨r, hr, ⟨hfirst, hlast, -⟩, heq⟩
  · rw [hsame, Char.ofNat_toNat]
  · obtain ⟨hchar, hlimit⟩ := h r hr
    have hvalid : ((c.toNat : Int) + r.shift).toNat.isValidChar := by
      rw [Nat.isValidChar]
      omega
    rw [heq, Char.ofNat, dif_pos hvalid]
    rfl

end CaseRun

open CaseRun

/-! ## Lowering a code point -/

section

-- A check of the table goes as deep as the table is long.
set_option maxRecDepth 4096

theorem lowercaseRuns_high : ∀ r ∈ lowercaseRuns, (97 : Int) ≤ r.first + r.shift := by
  decide

theorem lowercaseRuns_still : ∀ r ∈ lowercaseRuns,
    shifts r.step (r.first + r.shift).toNat (r.last + r.shift).toNat 0 lowercaseRuns = true := by
  decide

theorem lowercaseRuns_valid : ∀ r ∈ lowercaseRuns, r.Valid := by decide

/-- The images are neither blank nor the capital that is lowered to two characters. -/
theorem lowercaseRuns_avoid : ∀ range ∈ (0x130, 0x130) :: whiteSpace,
    0 < range.1 ∧ ∀ r ∈ lowercaseRuns,
      (r.last : Int) + r.shift < range.1 ∨ (range.2 : Int) < r.first + r.shift := by
  decide

end

theorem apply_lowercaseRuns_apply (n : Nat) :
    apply lowercaseRuns (apply lowercaseRuns n) = apply lowercaseRuns n := by
  rcases apply_cases lowercaseRuns n with h | ⟨r, hr, ⟨hfirst, hlast, hstep⟩, heq⟩
  · rw [h, h]
  · have hhigh := lowercaseRuns_high r hr
    have hfar : (n + r.shift).toNat - (r.first + r.shift).toNat = n - r.first := by omega
    have hstill := apply_of_shifts (lowercaseRuns_still r hr) (n := (n + r.shift).toNat) (by omega)
      (by omega) (by rw [hfar, hstep])
    rw [heq, hstill, Int.add_zero, Int.toNat_natCast]

/-- Lowering a character never gives a capital of ASCII: these are moved, and no image lies among
them. -/
theorem apply_lowercaseRuns (n : Nat) :
    apply lowercaseRuns n < 65 ∨ 90 < apply lowercaseRuns n := by
  rcases apply_cases lowercaseRuns n with h | ⟨r, hr, ⟨hfirst, -⟩, heq⟩
  · by_contra hcapital
    have hruns : lowercaseRuns = ⟨0x41, 0x5a, 1, 32⟩ :: lowercaseRuns.tail := rfl
    have hmoved : apply lowercaseRuns n = ((n : Int) + 32).toNat := by
      rw [hruns, apply, if_neg (by dsimp only; omega), if_pos (by dsimp only; omega)]
    omega
  · have := lowercaseRuns_high r hr
    omega

/-! ## Lowering a character -/

theorem toNat_lowerChar (c : Char) : (lowerChar c).toNat = apply lowercaseRuns c.toNat :=
  toNat_ofNat_apply lowercaseRuns_valid c

theorem lowerChar_not_capital (c : Char) : ¬('A' ≤ lowerChar c ∧ lowerChar c ≤ 'Z') := by
  rw [NoCase.capital_iff, toNat_lowerChar]
  have := apply_lowercaseRuns c.toNat
  omega

theorem lowerChar_of_toNat {c : Char} (h : apply lowercaseRuns c.toNat = c.toNat) :
    lowerChar c = c := by
  rw [lowerChar, h, Char.ofNat_toNat]

@[simp] theorem lowerChar_lowerChar (c : Char) : lowerChar (lowerChar c) = lowerChar c := by
  refine lowerChar_of_toNat ?_
  rw [toNat_lowerChar, apply_lowercaseRuns_apply]

/-- A character that ends in a range without images was not moved. -/
theorem lowerChar_eq_of_between {range : Nat × Nat} {c : Char}
    (hrange : range ∈ (0x130, 0x130) :: whiteSpace)
    (hc : range.1 ≤ (lowerChar c).toNat ∧ (lowerChar c).toNat ≤ range.2) : lowerChar c = c := by
  obtain ⟨hpos, havoid⟩ := lowercaseRuns_avoid range hrange
  rw [toNat_lowerChar] at hc
  exact lowerChar_of_toNat (apply_eq_of_between hpos havoid hc)

theorem isBlank_lowerChar {c : Char} (h : isBlank c = false) : isBlank (lowerChar c) = false := by
  refine Bool.eq_false_iff.mpr fun hblank => ?_
  obtain ⟨range, hrange, hin⟩ := Ranges.contains_eq_true hblank
  rw [lowerChar_eq_of_between (List.mem_cons_of_mem _ hrange) hin, h] at hblank
  cases hblank

/-- A character that lowering leaves alone wherever it stands. -/
def Lowered (c : Char) : Prop := c ≠ 'Σ' ∧ c ≠ 'İ' ∧ lowerChar c = c

instance : DecidablePred Lowered := fun c =>
  inferInstanceAs (Decidable (c ≠ 'Σ' ∧ c ≠ 'İ' ∧ lowerChar c = c))

theorem lowered_lowerChar {c : Char} (h : c ≠ 'İ') : Lowered (lowerChar c) := by
  refine ⟨fun hsigma => ?_, fun hdotted => ?_, lowerChar_lowerChar c⟩
  · have hidem := lowerChar_lowerChar c
    rw [hsigma] at hidem
    exact absurd hidem (by decide)
  · have hmoved : lowerChar c = c :=
      lowerChar_eq_of_between List.mem_cons_self (by rw [hdotted]; decide)
    exact h (hmoved.symm.trans hdotted)

/-! ## Lowering a text -/

/-- What holds of the lowercase of a character wherever it stands. -/
theorem forall_mem_lowerBetween {p : Char → Prop} {c : Char} (before after : List Char)
    (hsigma : p 'ς' ∧ p 'σ') (hdotted : p 'i' ∧ p '\u0307')
    (hother : c ≠ 'Σ' → c ≠ 'İ' → p (lowerChar c)) : ∀ d ∈ lowerBetween before c after, p d := by
  unfold lowerBetween
  split
  · split
    · simpa using hsigma.1
    · simpa using hsigma.2
  · split
    · simpa using hdotted
    · simpa using hother ‹_› ‹_›

theorem forall_mem_lowerFrom {p : Char → Prop} {cs : List Char}
    (h : ∀ c ∈ cs, ∀ before after, ∀ d ∈ lowerBetween before c after, p d) (before : List Char) :
    ∀ d ∈ lowerFrom before cs, p d := by
  induction cs generalizing before with
  | nil => simp [lowerFrom]
  | cons c cs ih =>
    intro d hd
    rcases List.mem_append.mp hd with hd | hd
    · exact h c List.mem_cons_self before cs d hd
    · exact ih (fun b hb => h b (List.mem_cons_of_mem _ hb)) (c :: before) d hd

theorem lowercase_not_capital (s : String) (c : Char) (hc : c ∈ (lowercase s).toList) :
    ¬('A' ≤ c ∧ c ≤ 'Z') := by
  rw [lowercase, String.toList_ofList] at hc
  refine forall_mem_lowerFrom (p := fun c => ¬('A' ≤ c ∧ c ≤ 'Z')) (fun b _ before after => ?_) []
    c hc
  exact forall_mem_lowerBetween before after (by decide) (by decide)
    fun _ _ => lowerChar_not_capital b

theorem lowerFrom_of_lowered {cs : List Char} (h : ∀ c ∈ cs, Lowered c) (before : List Char) :
    lowerFrom before cs = cs := by
  induction cs generalizing before with
  | nil => rfl
  | cons c cs ih =>
    obtain ⟨hsigma, hdotted, hsame⟩ := h c List.mem_cons_self
    rw [lowerFrom, lowerBetween, if_neg hsigma, if_neg hdotted, hsame,
      ih fun b hb => h b (List.mem_cons_of_mem _ hb)]
    rfl

@[simp] theorem lowercase_lowercase (s : String) : lowercase (lowercase s) = lowercase s := by
  have hlowered : ∀ c ∈ lowerFrom [] s.toList, Lowered c :=
    forall_mem_lowerFrom (fun c _ before after => forall_mem_lowerBetween before after
      (by decide) (by decide) fun _ => lowered_lowerChar) []
  rw [lowercase, lowercase, String.toList_ofList, lowerFrom_of_lowered hlowered]

/-! ## Lower case and trimming -/

theorem lowerBetween_not_blank {c : Char} (h : isBlank c = false) (before after : List Char) :
    ∀ d ∈ lowerBetween before c after, isBlank d = false :=
  forall_mem_lowerBetween before after (by decide) (by decide) fun _ _ => isBlank_lowerChar h

theorem lowerBetween_ne_nil (before : List Char) (c : Char) (after : List Char) :
    lowerBetween before c after ≠ [] := by
  unfold lowerBetween
  split
  · simp
  · split <;> simp

@[simp] theorem lowercase_eq_empty {s : String} : lowercase s = "" ↔ s = "" := by
  rw [lowercase, String.ofList_eq_empty_iff, ← String.toList_eq_nil_iff]
  cases s.toList with
  | nil => simp [lowerFrom]
  | cons c cs => simp [lowerFrom, lowerBetween_ne_nil]

theorem lowerFrom_append (before front cs : List Char) : ∃ lowered,
    lowerFrom before (front ++ cs) = lowered ++ lowerFrom (front.reverse ++ before) cs := by
  induction front generalizing before with
  | nil => exact ⟨[], rfl⟩
  | cons c front ih =>
    obtain ⟨lowered, h⟩ := ih (c :: before)
    refine ⟨lowerBetween before c (front ++ cs) ++ lowered, ?_⟩
    rw [List.cons_append, lowerFrom, h, List.reverse_cons, List.append_assoc, List.append_assoc,
      List.singleton_append]

theorem trimStart_lowerFrom {c : Char} (h : isBlank c = false) (before cs : List Char) :
    trimStart (lowerFrom before (c :: cs)) = lowerFrom before (c :: cs) := by
  have hfirst := lowerBetween_not_blank h before cs
  have hne := lowerBetween_ne_nil before c cs
  rw [lowerFrom]
  cases hlow : lowerBetween before c cs with
  | nil => exact absurd hlow hne
  | cons d ds =>
    rw [hlow] at hfirst
    exact List.dropWhile_cons_of_neg (by simp [hfirst d])

theorem trimEnd_lowerFrom {c : Char} (h : isBlank c = false) (before front : List Char) :
    trimEnd (lowerFrom before (front ++ [c])) = lowerFrom before (front ++ [c]) := by
  obtain ⟨lowered, heq⟩ := lowerFrom_append before front [c]
  have hlast := lowerBetween_not_blank h (front.reverse ++ before) []
  rw [heq, lowerFrom, lowerFrom, List.append_nil]
  rcases List.eq_nil_or_concat (lowerBetween (front.reverse ++ before) c []) with hnil | ⟨ds, d, hd⟩
  · exact absurd hnil (lowerBetween_ne_nil _ _ _)
  · rw [hd, List.concat_eq_append] at hlast ⊢
    rw [← List.append_assoc]
    exact trimEnd_concat _ (hlast d (by simp))

/-- The lowercase of a trimmed text is trimmed. -/
theorem trim_lowercase {s : String} (h : trim s = s) : trim (lowercase s) = lowercase s := by
  by_cases hempty : s = ""
  · rw [hempty]
    rfl
  · obtain ⟨front, c, hend, hc⟩ := exists_last_of_trim h hempty
    obtain ⟨b, rest, hstart, hb⟩ := exists_first_of_trim h hempty
    have htrim : trimChars (lowerFrom [] s.toList) = lowerFrom [] s.toList := by
      rw [trimChars, hstart, trimStart_lowerFrom hb, ← hstart, hend, trimEnd_lowerFrom hc]
    rw [lowercase, trim, String.toList_ofList, htrim]

end LongTermMemory.Text
