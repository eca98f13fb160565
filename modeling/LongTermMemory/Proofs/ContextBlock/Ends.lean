import LongTermMemory.ContextBlock
import Mathlib.Order.Bounds.Basic

/-!
The ends of sentences and of words in a text, told by the text before and after them, and the last
one within a budget.
-/

namespace LongTermMemory.ContextBlock

open LongTermMemory.Text (isBlank)

/-- The first `k` characters end with one that satisfies `p`, and no other text follows but after a
blank. -/
def EndsAfter (p : Char → Bool) (cs : List Char) (k : Nat) : Prop :=
  ∃ front c rest, cs = front ++ c :: rest ∧ k = front.length + 1 ∧ p c = true ∧
    ∀ b ∈ rest.head?, isBlank b = true

def closesSentence (c : Char) : Bool := c = '.' || c = '!' || c = '?'

def closesWord (c : Char) : Bool := !isBlank c

/-- A sentence ends with the first `k` characters. -/
abbrev SentenceEnd : List Char → Nat → Prop := EndsAfter closesSentence

/-- A word ends with the first `k` characters. -/
abbrev WordEnd : List Char → Nat → Prop := EndsAfter closesWord

namespace EndsAfter

variable {p q : Char → Bool} {cs : List Char} {k : Nat}

theorem pos (h : EndsAfter p cs k) : 0 < k := by
  obtain ⟨front, c, rest, -, rfl, -⟩ := h
  exact Nat.succ_pos _

theorem le_length (h : EndsAfter p cs k) : k ≤ cs.length := by
  obtain ⟨front, c, rest, rfl, rfl, -⟩ := h
  simp

theorem mono (hpq : ∀ c, p c = true → q c = true) (h : EndsAfter p cs k) : EndsAfter q cs k := by
  obtain ⟨front, c, rest, hcs, hk, hp, hrest⟩ := h
  exact ⟨front, c, rest, hcs, hk, hpq c hp, hrest⟩

/-- What is cut off there ends with the character. -/
theorem take (h : EndsAfter p cs k) : ∃ front c, cs.take k = front ++ [c] ∧ p c = true := by
  obtain ⟨front, c, rest, rfl, rfl, hp, -⟩ := h
  exact ⟨front, c, by simp [List.take_append, List.take_of_length_le], hp⟩

theorem getElem (h : EndsAfter p cs k) : ∃ c, cs[k - 1]? = some c ∧ p c = true := by
  obtain ⟨front, c, rest, rfl, rfl, hp, -⟩ := h
  exact ⟨c, by simp, hp⟩

end EndsAfter

theorem wordEnd_of_sentenceEnd {cs : List Char} {k : Nat} (h : SentenceEnd cs k) :
    WordEnd cs k := by
  refine h.mono fun c hc => ?_
  simp only [closesSentence, Bool.or_eq_true, decide_eq_true_eq] at hc
  rcases hc with (rfl | rfl) | rfl <;> decide

theorem endsAfter_iff {p : Char → Bool} {cs : List Char} {k : Nat} (hk : 0 < k) :
    ((cs[k - 1]?).any p && atBoundary cs k) = true ↔ EndsAfter p cs k := by
  constructor
  · intro h
    obtain ⟨hany, hboundary⟩ := Bool.and_eq_true_iff.mp h
    obtain ⟨c, hc, hp⟩ := (Option.any_eq_true _ _).mp hany
    obtain ⟨hlt, rfl⟩ := List.getElem?_eq_some_iff.mp hc
    refine ⟨cs.take (k - 1), _, cs.drop k, ?_, by rw [List.length_take]; omega, hp, ?_⟩
    · have hdrop : cs.drop (k - 1) = cs[k - 1] :: cs.drop k := by
        rw [List.drop_eq_getElem_cons hlt, Nat.sub_add_cancel hk]
      rw [← hdrop, List.take_append_drop]
    · intro b hb
      rw [List.head?_drop] at hb
      unfold atBoundary at hboundary
      rw [hb] at hboundary
      exact hboundary
  · rintro ⟨front, c, rest, rfl, rfl, hp, hrest⟩
    have hnext : (front ++ c :: rest)[front.length + 1]? = rest.head? := by
      rw [List.getElem?_append_right (by omega), Nat.add_sub_cancel_left, List.getElem?_cons_succ,
        List.head?_eq_getElem?]
    have hboundary : atBoundary (front ++ c :: rest) (front.length + 1) = true := by
      unfold atBoundary
      rw [hnext]
      cases hhead : rest.head? with
      | none => rfl
      | some b => exact hrest b hhead
    simp [hp, hboundary]

/-! ## The last end within a budget -/

theorem lastBefore_eq_some {p : Nat → Bool} {budget k : Nat} (h : lastBefore p budget = some k) :
    0 < k ∧ k ≤ budget ∧ p k = true ∧ ∀ j ≤ budget, p j = true → j ≤ k := by
  induction budget with
  | zero => cases h
  | succ budget ih =>
    unfold lastBefore at h
    split at h
    · next hp =>
      cases h
      exact ⟨Nat.succ_pos _, Nat.le_refl _, hp, fun j hj _ => hj⟩
    · next hp =>
      obtain ⟨hpos, hle, hk, hlast⟩ := ih h
      refine ⟨hpos, Nat.le_succ_of_le hle, hk, fun j hj hpj => ?_⟩
      rcases Nat.le_succ_iff.mp hj with hj | rfl
      · exact hlast j hj hpj
      · exact absurd hpj hp

theorem lastBefore_eq_none {p : Nat → Bool} {budget : Nat} (h : lastBefore p budget = none) :
    ∀ j ≤ budget, 0 < j → p j = false := by
  induction budget with
  | zero =>
    intro j hj hpos
    omega
  | succ budget ih =>
    unfold lastBefore at h
    split at h
    · cases h
    · next hp =>
      intro j hj hpos
      rcases Nat.le_succ_iff.mp hj with hj | rfl
      · exact ih h j hj hpos
      · simpa using hp

/-- The positions within a budget at which a text ends after a character of a kind. -/
def endsWithin (p : Char → Bool) (cs : List Char) (budget : Nat) : Set Nat :=
  {k | EndsAfter p cs k ∧ k ≤ budget}

variable {p : Char → Bool} {cs : List Char} {budget : Nat}

theorem lastEnd_eq_some {k : Nat}
    (h : lastBefore (fun k => (cs[k - 1]?).any p && atBoundary cs k) budget = some k) :
    IsGreatest (endsWithin p cs budget) k := by
  obtain ⟨hpos, hle, hk, hlast⟩ := lastBefore_eq_some h
  refine ⟨⟨(endsAfter_iff hpos).mp hk, hle⟩, ?_⟩
  rintro j ⟨hj, hjle⟩
  exact hlast j hjle ((endsAfter_iff hj.pos).mpr hj)

theorem lastEnd_eq_none
    (h : lastBefore (fun k => (cs[k - 1]?).any p && atBoundary cs k) budget = none) :
    endsWithin p cs budget = ∅ := by
  refine Set.eq_empty_of_forall_notMem ?_
  rintro j ⟨hj, hjle⟩
  have hfalse := lastBefore_eq_none h j hjle hj.pos
  rw [(endsAfter_iff hj.pos).mpr hj] at hfalse
  cases hfalse

end LongTermMemory.ContextBlock
