import Mathlib.Data.List.Nodup
import Mathlib.Data.Prod.Lex

/-!
Lists sorted by a comparison of keys. Where the keys are distinct the keys of the sorted list
descend, and it is the only arrangement of its members whose keys do.
-/

namespace LongTermMemory

theorem mergeSort_pair {α : Type} (le : α → α → Bool) (a b : α) :
    [a, b].mergeSort le = if le a b then [a, b] else [b, a] := by
  simp [List.mergeSort, List.merge]

/-- How others than the members compare does not matter. -/
theorem mergeSort_congr {α : Type} {before before' : α → α → Bool} {l : List α}
    (h : ∀ a ∈ l, ∀ b ∈ l, before a b = before' a b) :
    l.mergeSort before = l.mergeSort before' := by
  have hmap := List.map_mergeSort (f := id) h
  simpa using hmap

/-- Sorting by a comparison of distinct keys makes them descend. -/
theorem descending_mergeSort {α κ : Type} [LinearOrder κ] {key : α → κ} {before : α → α → Bool}
    (hkey : ∀ a b, before a b = true ↔ key b ≤ key a) {l : List α} (hdistinct : (l.map key).Nodup) :
    (l.mergeSort before).Pairwise fun a b => key b < key a := by
  have htrans : ∀ a b c, before a b = true → before b c = true → before a c = true := by
    intro a b c hab hbc
    rw [hkey] at hab hbc ⊢
    exact hbc.trans hab
  have htotal : ∀ a b, (before a b || before b a) = true := by
    intro a b
    rw [Bool.or_eq_true, hkey, hkey]
    exact le_total (key b) (key a)
  have hdistinct : ((l.mergeSort before).map key).Nodup :=
    ((List.mergeSort_perm l before).map key).nodup_iff.mpr hdistinct
  refine ((List.pairwise_mergeSort htrans htotal l).and (List.pairwise_map.mp hdistinct)).imp ?_
  rintro a b ⟨hbefore, hne⟩
  exact lt_of_le_of_ne ((hkey a b).mp hbefore) hne.symm

/-- A list whose keys descend is what sorting gives for any arrangement of its members. -/
theorem mergeSort_of_perm {α κ : Type} [LinearOrder κ] {key : α → κ} {before : α → α → Bool}
    (hkey : ∀ a b, before a b = true ↔ key b ≤ key a) {l sorted : List α} (hperm : l.Perm sorted)
    (hsorted : sorted.Pairwise fun a b => key b < key a) : l.mergeSort before = sorted := by
  have hdistinct : (l.map key).Nodup := by
    rw [(hperm.map key).nodup_iff]
    exact List.pairwise_map.mpr (hsorted.imp fun hless => ne_of_gt hless)
  refine ((List.mergeSort_perm l before).trans hperm).eq_of_pairwise (fun a b _ _ hab hba => ?_)
    (descending_mergeSort hkey hdistinct) hsorted
  exact absurd hab (lt_asymm hba)

section

variable {α κ : Type} [LinearOrder κ] (key : α → κ)

theorem decide_key_le_iff (a b : α) : decide (key a ≤ key b) = true ↔
    OrderDual.toDual (key b) ≤ OrderDual.toDual (key a) := decide_eq_true_iff

theorem ascending_mergeSort {l : List α} (hdistinct : (l.map key).Nodup) :
    (l.mergeSort fun a b => key a ≤ key b).Pairwise fun a b => key a < key b :=
  descending_mergeSort (decide_key_le_iff key) hdistinct

/-- The same of a list whose keys ascend. -/
theorem mergeSort_of_ascending {l sorted : List α} (hperm : l.Perm sorted)
    (hsorted : sorted.Pairwise fun a b => key a < key b) :
    (l.mergeSort fun a b => key a ≤ key b) = sorted :=
  mergeSort_of_perm (decide_key_le_iff key) hperm hsorted

end

end LongTermMemory
