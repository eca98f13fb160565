import LongTermMemory.Proofs.Sorting
import LongTermMemory.Relevance
import LongTermMemory.Store.Query
import Mathlib.Data.Prod.Lex

/-!
The orders in which memories are ranked. Each comparison of the program compares keys in a linear
order, the greatest first, so that what is sorted by it stands by descending keys. A key ends in the
id: memories of different ids are never level.
-/

namespace LongTermMemory

/-- The first of two answers that decides is the lexicographic order. -/
theorem thenBy_eq_true {α β : Type} [LinearOrder α] [LE β] {a b : α} {x y : β} {next : Bool}
    (hnext : next = true ↔ x ≤ y) :
    thenBy (decide (a < b)) (decide (b < a)) next = true ↔ toLex (a, x) ≤ toLex (b, y) := by
  rw [Prod.Lex.toLex_le_toLex]
  simp only [thenBy, Bool.or_eq_true, Bool.and_eq_true, Bool.not_eq_true', decide_eq_true_eq,
    decide_eq_false_iff_not, hnext]
  constructor
  · rintro (hlt | ⟨hnot, hle⟩)
    · exact Or.inl hlt
    · rcases lt_or_eq_of_le (not_lt.mp hnot) with hlt | heq
      · exact Or.inl hlt
      · exact Or.inr ⟨heq, hle⟩
  · rintro (hlt | ⟨heq, hle⟩)
    · exact Or.inl hlt
    · exact Or.inr ⟨not_lt.mpr (le_of_eq heq), hle⟩

/-! ## Candidates -/

/-- What candidates are chosen by. -/
def poolKey (m : Memory) : Int ×ₗ Int := toLex (m.importance, m.id)

theorem atOrBefore_importance (a b : Memory) :
    SortField.importance.atOrBefore .descending a b = true ↔ poolKey b ≤ poolKey a := by
  have hid : decide (b.id ≤ a.id) = true ↔ b.id ≤ a.id := decide_eq_true_iff
  exact thenBy_eq_true hid

/-! ## Ranking -/

/-- The place of a last access, that of a memory never accessed before all others. -/
def accessPlace : Option Instant → Int ×ₗ Int
  | none => toLex (0, 0)
  | some t => toLex (1, t.millis)

theorem accessedBefore_iff (s t : Option Instant) :
    accessedBefore s t = true ↔ accessPlace s < accessPlace t := by
  cases s with
  | none =>
    cases t with
    | none => simp [accessedBefore, accessPlace]
    | some t => simp [accessedBefore, accessPlace, Prod.Lex.toLex_lt_toLex]
  | some s =>
    cases t with
    | none => simp [accessedBefore, accessPlace, Prod.Lex.toLex_lt_toLex]
    | some t =>
      have hless : s < t ↔ s.millis < t.millis := Iff.rfl
      simp [accessedBefore, accessPlace, Prod.Lex.toLex_lt_toLex, hless]

/-- What a memory with its score is ranked by: total score, importance, last access and id. -/
def rankKey (x : Memory × Score) : Int ×ₗ Int ×ₗ (Int ×ₗ Int) ×ₗ Int :=
  toLex (x.2.total.totalPlace, toLex (x.1.importance, toLex (accessPlace x.1.lastAccessed, x.1.id)))

theorem ranksBefore_iff (a b : Memory × Score) :
    ranksBefore a b = true ↔ rankKey b ≤ rankKey a := by
  have hid : decide (b.1.id ≤ a.1.id) = true ↔ b.1.id ≤ a.1.id := decide_eq_true_iff
  have haccess (s t : Option Instant) :
      accessedBefore s t = decide (accessPlace s < accessPlace t) := by
    rw [Bool.eq_iff_iff, accessedBefore_iff, decide_eq_true_eq]
  unfold ranksBefore
  dsimp only
  rw [haccess, haccess]
  exact thenBy_eq_true (thenBy_eq_true (thenBy_eq_true hid))

end LongTermMemory
