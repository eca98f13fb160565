import LongTermMemory.Ascending

/-!
Sets as strictly ascending lists: `ofList` is strictly ascending, has the members of the list it
is made of, and leaves a strictly ascending list as it is.
-/

namespace LongTermMemory.Ascending

variable {α : Type} [LT α]

section Fixed

variable [DecidableRel (fun a b : α => a < b)]

theorem insert_eq_cons (a : α) (l : List α) (h : ∀ b ∈ l, a < b) : insert a l = a :: l := by
  cases l with
  | nil => rfl
  | cons b l => rw [insert_cons, if_pos (h b List.mem_cons_self)]

/-- A strictly ascending list is the set of its members already. -/
theorem ofList_of_pairwise (l : List α) (h : l.Pairwise (· < ·)) : ofList l = l := by
  induction l with
  | nil => rfl
  | cons a l ih =>
    rw [ofList_cons, ih h.of_cons]
    exact insert_eq_cons a l fun b hb => List.rel_of_pairwise_cons h hb

end Fixed

variable [LE α] [Std.IsLinearOrder α] [Std.LawfulOrderLT α]

/-- Strictly ascending lists with the same members are equal. -/
theorem eq_of_mem_iff {l l' : List α} (hl : l.Pairwise (· < ·)) (hl' : l'.Pairwise (· < ·))
    (h : ∀ a, a ∈ l ↔ a ∈ l') : l = l' := by
  have hperm : l.Perm l' :=
    (List.perm_ext_iff_of_nodup (hl.imp Std.ne_of_lt) (hl'.imp Std.ne_of_lt)).mpr h
  refine hperm.eq_of_pairwise (fun a b _ _ hab hba => ?_) hl hl'
  exact absurd (Std.lt_trans hab hba) Std.lt_irrefl

variable [DecidableRel (fun a b : α => a < b)]

@[simp] theorem mem_insert (a b : α) (l : List α) : b ∈ insert a l ↔ b = a ∨ b ∈ l := by
  induction l with
  | nil => simp
  | cons c l ih =>
    rw [insert_cons]
    split
    · simp
    · split
      · simp only [List.mem_cons, ih]
        exact or_left_comm
      · next hac hca =>
        have : a = c := Std.le_antisymm (Std.not_lt.mp hca) (Std.not_lt.mp hac)
        simp [this]

theorem pairwise_insert (a : α) (l : List α) (h : l.Pairwise (· < ·)) :
    (insert a l).Pairwise (· < ·) := by
  induction l with
  | nil => simp
  | cons c l ih =>
    have hc : ∀ b ∈ l, c < b := fun b hb => List.rel_of_pairwise_cons h hb
    rw [insert_cons]
    split
    · next hac =>
      refine List.pairwise_cons.mpr ⟨?_, h⟩
      intro b hb
      rcases List.mem_cons.mp hb with rfl | hb
      · exact hac
      · exact Std.lt_trans hac (hc b hb)
    · split
      · next hca =>
        refine List.pairwise_cons.mpr ⟨?_, ih h.of_cons⟩
        intro b hb
        rcases (mem_insert a b l).mp hb with rfl | hb
        · exact hca
        · exact hc b hb
      · exact h

@[simp] theorem mem_ofList (a : α) (l : List α) : a ∈ ofList l ↔ a ∈ l := by
  induction l with
  | nil => simp
  | cons b l ih => simp [ih]

theorem pairwise_ofList (l : List α) : (ofList l).Pairwise (· < ·) := by
  induction l with
  | nil => simp
  | cons a l ih => exact pairwise_insert a _ ih

theorem nodup_ofList (l : List α) : (ofList l).Nodup :=
  (pairwise_ofList l).imp Std.ne_of_lt

/-- Lists with the same members are one set. -/
theorem ofList_congr {l l' : List α} (h : ∀ a, a ∈ l ↔ a ∈ l') : ofList l = ofList l' :=
  eq_of_mem_iff (pairwise_ofList l) (pairwise_ofList l') fun a => by
    rw [mem_ofList, mem_ofList, h]

end LongTermMemory.Ascending
